import EnaDevice.Invariant.Tx

/-! Two runs in lock step: the second one is the first in a guise, which changes parts of the state
that the running function neither looks at nor decides by. -/
namespace EnaDevice
open Bytes Result

/-- A change of the device state, of memory, and of what happened before. -/
structure Guise where
  dev : EnaState → EnaState
  mem : Memory → Memory
  past : List Event

namespace Guise

/-- An event of the run in its guise: the recorded device state changes with the device. -/
def event (g : Guise) : Event → Event
  | .dmaWrite site s a data => .dmaWrite site (g.dev s) a data
  | e => e

def wear (g : Guise) (w : World) : World :=
  { w with dev := g.dev w.dev, mem := g.mem w.mem, trace := g.past ++ w.trace.map g.event }

/-- Reading some bytes is the same in the guise, up to what a failed read leaves behind. -/
structure Reads (g : Guise) (m : Memory) (a : UInt64) (n : ℕ) : Prop where
  okAt : (g.mem m).okAt a n = m.okAt a n
  bytesAt : m.okAt a n = true → (g.mem m).bytesAt a n = m.bytesAt a n

/-- The guise does not show in the interrupt state of a vector. -/
structure SparesIrq (g : Guise) (v : Vec) : Prop where
  irq : ∀ s, (g.dev s).irq v = s.irq v
  setIrq : ∀ s q, g.dev (s.setIrq v q) = (g.dev s).setIrq v q

/-- It does not show in a completion queue, nor in the vector that the CQ interrupts. -/
structure SparesCq (g : Guise) (c : CqIdx) : Prop where
  cq : ∀ s, (g.dev s).cq c = s.cq c
  setCq : ∀ s q, g.dev (s.setCq c q) = (g.dev s).setCq c q

/-- It does not show in what a TX doorbell looks at, and counters go on from where they are. -/
structure SparesTx (g : Guise) (i : SqIdx) : Prop where
  sq : ∀ s, (g.dev s).sq i = s.sq i
  setSq : ∀ s q, g.dev (s.setSq i q) = (g.dev s).setSq i q
  macaddr : ∀ s, (g.dev s).macaddr = s.macaddr
  mtu : ∀ s, (g.dev s).mtu = s.mtu
  txDrops : ∀ s : EnaState, g.dev { s with txDrops := s.txDrops + 1 } =
    { g.dev s with txDrops := (g.dev s).txDrops + 1 }
  txCount : ∀ (s : EnaState) n, g.dev { s with txPkts := s.txPkts + 1, txBytes := s.txBytes + n } =
    { g.dev s with txPkts := (g.dev s).txPkts + 1, txBytes := (g.dev s).txBytes + n }

section
variable {g : Guise} {w : World} {i : SqIdx} {c : CqIdx} {v : Vec}

@[simp] lemma wear_dev (g : Guise) (w : World) : (g.wear w).dev = g.dev w.dev := rfl

@[simp] lemma wear_mem (g : Guise) (w : World) : (g.wear w).mem = g.mem w.mem := rfl

@[simp] lemma wear_clockUs (g : Guise) (w : World) : (g.wear w).clockUs = w.clockUs := rfl

lemma wear_setDev {s s' : EnaState} (h : s' = g.dev s) :
    (g.wear w).setDev s' = g.wear (w.setDev s) := by
  subst h
  rfl

lemma wear_emit {e : Event} (h : g.event e = e) : (g.wear w).emit e = g.wear (w.emit e) := by
  simp only [wear, World.emit, List.map_append, List.map_cons, List.map_nil, h, List.append_assoc]

lemma wear_dmaWrite {site : WriteSite} {a : UInt64} {data : Bytes}
    (h : (g.mem w.mem).write a data = g.mem (w.mem.write a data)) :
    enaDmaWrite (g.wear w) site a data = g.wear (enaDmaWrite w site a data) := by
  simp only [wear, enaDmaWrite, h, List.map_append, List.map_cons, List.map_nil, event,
    List.append_assoc]

lemma wear_dmaRead {a : UInt64} {n : ℕ} (h : g.Reads w.mem a n) :
    enaDmaRead (g.wear w) a n = enaDmaRead w a n ∨
      (enaDmaRead (g.wear w) a n).1 = false ∧ (enaDmaRead w a n).1 = false := by
  unfold enaDmaRead Memory.read
  rw [wear_mem,h.okAt]
  split_ifs with hok
  · rw [h.bytesAt hok]
    exact .inl rfl
  · exact .inr ⟨rfl,rfl⟩

lemma wear_ite {c c' : Prop} [Decidable c] [Decidable c'] {x y x' y' : World} (hc : c' ↔ c)
    (hx : x' = g.wear x) (hy : y' = g.wear y) :
    (if c' then x' else y') = g.wear (if c then x else y) := by
  by_cases h : c
  · rw [if_pos h,if_pos (hc.mpr h),hx]
  · rw [if_neg h,if_neg (mt hc.mp h),hy]

lemma wear_irqFire (h : g.SparesIrq v) : enaIrqFire (g.wear w) v = g.wear (enaIrqFire w v) := by
  unfold enaIrqFire msixNotify
  rw [← wear_emit (g := g) (w := w.setDev _) rfl]
  congr 1
  apply wear_setDev
  rw [h.setIrq,wear_dev,h.irq]

lemma wear_irqSchedule (h : g.SparesIrq v) (delay : UInt32) :
    enaIrqSchedule (g.wear w) v delay = g.wear (enaIrqSchedule w v delay) := by
  unfold enaIrqSchedule
  split_ifs
  · exact wear_irqFire h
  · apply wear_setDev
    rw [h.setIrq,wear_dev,h.irq,wear_clockUs]

lemma wear_cqIntr (hc : g.SparesCq c) (hv : ∀ v, (w.dev.cq c).vec = some v → g.SparesIrq v)
    (isTx : Bool) : enaCqIntr (g.wear w) c isTx = g.wear (enaCqIntr w c isTx) := by
  unfold enaCqIntr
  simp only [wear_dev, hc.cq]
  rw [wear_emit (g := g) (w := w) (by rfl)]
  cases hvec : (w.dev.cq c).vec with
  | none => rfl
  | some v =>
    have h := hv v hvec
    simp only [wear_dev, h.irq]
    split_ifs
    · exact wear_irqSchedule h _
    · apply wear_setDev
      rw [h.setIrq]

/-- A push writes one entry of the ring; the guise has to let it through. -/
lemma wear_cqPush (hc : g.SparesCq c) {cdesc : Bytes}
    (hw : (g.mem w.mem).write (w.dev.cq c).slotAddr (cdesc.take (w.dev.cq c).entrySize.toNat) =
      g.mem (w.mem.write (w.dev.cq c).slotAddr (cdesc.take (w.dev.cq c).entrySize.toNat))) :
    enaCqPush (g.wear w) c cdesc = (enaCqPush w c cdesc).map g.wear := by
  unfold enaCqPush
  simp only [wear_dev, hc.cq]
  refine bind_same rfl fun _ _ => ?_
  rw [wear_dmaWrite hw]
  congr 1
  apply wear_setDev
  rw [hc.setCq]
  rfl

end
end Guise
end EnaDevice
