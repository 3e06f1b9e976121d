import EnaDevice.Model.World

/-! Completion-queue pushes and the interrupt state of the MSI-X vectors. -/
namespace EnaDevice

/-- `timer_mod_anticipate`: an armed timer is only ever moved to an earlier deadline. -/
def timerModAnticipate (timer : Option ℕ) (expire : ℕ) : Option ℕ :=
  match timer with
  | none => some expire
  | some t => some (min t expire)

namespace EnaCq

/-- Address of the entry that the next completion is written to. -/
def slotAddr (cq : EnaCq) : UInt64 :=
  cq.base + (cq.tail &&& (cq.depth - 1)).toUInt64*cq.entrySize.toUInt64

/-- Tail and phase after one more completion. -/
def advance (cq : EnaCq) : EnaCq :=
  { cq with
    tail := cq.tail + 1
    phase := if (cq.tail + 1) &&& (cq.depth - 1) = 0 then !cq.phase else cq.phase }

end EnaCq

/-- `ena_cq_push`. The entry carries the current phase, set by the caller. -/
def enaCqPush (w : World) (c : CqIdx) (cdesc : Bytes) : Except Fault World := do
  let cq := w.dev.cq c
  check cq.used (.assertion .cqPush)
  let w := enaDmaWrite w (.cq c) cq.slotAddr (cdesc.take cq.entrySize.toNat)
  return w.setDev (w.dev.setCq c cq.advance)

namespace EnaIrq

def fire (irq : EnaIrq) : EnaIrq :=
  { irq with moderTimer := none, unmasked := false, rxPending := false, txPending := false }

def pend (irq : EnaIrq) (isTx : Bool) : EnaIrq :=
  if isTx then { irq with txPending := true } else { irq with rxPending := true }

def delayUs (irq : EnaIrq) (isTx : Bool) : UInt32 := if isTx then irq.txDelayUs else irq.rxDelayUs

def pending (irq : EnaIrq) (isTx : Bool) : Bool := if isTx then irq.txPending else irq.rxPending

end EnaIrq

/-- `ena_irq_fire`. -/
def enaIrqFire (w : World) (v : Vec) : World :=
  msixNotify (w.setDev (w.dev.setIrq v (w.dev.irq v).fire)) v

/-- `ena_irq_moder_timer`, the callback of an expired timer. -/
def enaIrqModerTimer (w : World) (v : Vec) : World := enaIrqFire w v

/-- `ena_irq_schedule`. -/
def enaIrqSchedule (w : World) (v : Vec) (delayUs : UInt32) : World :=
  if delayUs = 0 then enaIrqFire w v
  else
    let irq := w.dev.irq v
    w.setDev (w.dev.setIrq v
      { irq with moderTimer := timerModAnticipate irq.moderTimer (w.clockUs + delayUs.toNat) })

/-- The vector that a CQ interrupts, if it has one. -/
def EnaCq.vec (cq : EnaCq) : Option Vec :=
  if h : cq.intrEnabled = true ∧ cq.msixVector.toNat < 9 then some ⟨cq.msixVector.toNat,h.2⟩
  else none

/-- `ena_cq_intr`. -/
def enaCqIntr (w : World) (c : CqIdx) (isTx : Bool) : World :=
  let cq := w.dev.cq c
  let w := w.emit (.cqIntr cq isTx)
  match cq.vec with
  | none => w
  | some v =>
    let irq := w.dev.irq v
    if irq.unmasked then enaIrqSchedule w v (irq.delayUs isTx)
    else w.setDev (w.dev.setIrq v (irq.pend isTx))

/-- Moderation delays and mask bit as an unmask-register write sets them. -/
def EnaIrq.unmaskWrite (irq : EnaIrq) (val : UInt32) : EnaIrq :=
  let irq :=
    if val &&& bit 31 = 0 then
      { irq with
        rxDelayUs := val &&& genmask 14 0
        txDelayUs := (val &&& genmask 29 15) >>> 15 }
    else irq
  { irq with unmasked := val &&& bit 30 != 0 }

/-- The end of `ena_cq_unmask_write`: completions recorded while the vector was masked. -/
def enaIrqResume (w : World) (v : Vec) : World :=
  let w := if (w.dev.irq v).rxPending then enaIrqSchedule w v (w.dev.irq v).rxDelayUs else w
  if (w.dev.irq v).txPending then enaIrqSchedule w v (w.dev.irq v).txDelayUs else w

/-- `ena_cq_unmask_write`: the register of any CQ re-arms the vector the CQ is bound to. -/
def enaCqUnmaskWrite (w : World) (c : CqIdx) (val : UInt32) : World :=
  let cq := w.dev.cq c
  if cq.used then
    match cq.vec with
    | none => w
    | some v =>
      let irq := (w.dev.irq v).unmaskWrite val
      if irq.unmasked then enaIrqResume (w.setDev (w.dev.setIrq v irq)) v
      else w.setDev (w.dev.setIrq v { irq with moderTimer := none })
  else w

end EnaDevice
