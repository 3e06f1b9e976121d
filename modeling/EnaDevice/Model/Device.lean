import EnaDevice.Model.Admin
import EnaDevice.Model.Tx
import EnaDevice.Model.Rx

/-! The device as a transition system: register writes, received frames, timers, link changes and
resets, interleaved with whatever the guest does to its memory and with the passage of time. -/
namespace EnaDevice

/-- The SQ doorbell of `ena_reg_write`. -/
def enaSqDoorbell (net : Net) (w : World) (i : SqIdx) (val : UInt32) : Except Fault World :=
  let sq := w.dev.sq i
  if !sq.used then return w
  else if val.toUInt16 - sq.head > sq.depth then return w
  else
    let w := w.setSq i { sq with tail := val.toUInt16 }
    if sq.isTx then enaTxDoorbell net w i else enaRxDoorbell w i

/-- A register that keeps the value written to it. -/
def storesValue (addr : ℕ) : Bool :=
  [regMmioRespLo,regMmioRespHi,regAqBaseLo,regAqBaseHi,regAcqBaseLo,regAcqBaseHi,regAenqBaseLo,
    regAenqBaseHi,regAenqHeadDb].contains addr

/-- A register that ignores writes. -/
def readOnly (addr : ℕ) : Bool :=
  [regVersion,regControllerVersion,regCaps,regCapsExt,regAcqTail,regAenqTail,
    regDevSts].contains addr

lemma sqDb_lt {addr : ℕ} (h : regSqDbBase ≤ addr ∧ addr < regSqDbBase + 16*4) :
    (addr - regSqDbBase)/4 < 16 := by
  omega

lemma cqUnmask_lt {addr : ℕ} (h : regCqUnmaskBase ≤ addr ∧ addr < regCqUnmaskBase + 16*4) :
    (addr - regCqUnmaskBase)/4 < 16 := by
  omega

/-- `ena_reg_write` -/
def enaRegWrite (net : Net) (w : World) (addr : ℕ) (val64 : UInt64) : Except Fault World := do
  let val := val64.toUInt32
  if h : regSqDbBase ≤ addr ∧ addr < regSqDbBase + 16*4 then
    enaSqDoorbell net w ⟨(addr - regSqDbBase)/4,sqDb_lt h⟩ val
  else if h : regCqUnmaskBase ≤ addr ∧ addr < regCqUnmaskBase + 16*4 then
    return enaCqUnmaskWrite w ⟨(addr - regCqUnmaskBase)/4,cqUnmask_lt h⟩ val
  else if addr ≥ regFileSize then throw (.unsupported (.bar0Offset addr))
  else if readOnly addr then return w
  else if addr = regDevCtl then enaDevCtlWrite w val
  else if addr = regMmioRegRead then
    return enaMmioReadless (w.setDev (w.dev.setReg addr val)) val
  else if addr = regAqDb then enaAdminProcess (w.setDev (w.dev.setReg addr val))
  else if addr = regAqCaps then
    enaCheckQueueCaps val
    return w.setDev { w.dev.setReg addr val with aqHead := 0 }
  else if addr = regAcqCaps then
    enaCheckQueueCaps val
    return w.setDev ({ w.dev.setReg addr val with
      acqTail := 0, acqPhase := true }.setReg regAcqTail 0)
  else if addr = regAenqCaps then
    enaCheckQueueCaps val
    return w.setDev ({ w.dev.setReg addr val with
      aenqTail := 0, aenqPhase := true }.setReg regAenqTail 0)
  else if storesValue addr then return w.setDev (w.dev.setReg addr val)
  else if addr = regIntrMask then
    if val &&& ~~~1 ≠ 0 then throw (.unsupported (.intrMaskWrite val))
    return w.setDev (w.dev.setReg addr val)
  else throw (.unsupported (.registerWrite addr))

/-- `ena_reg_read`, the read of BAR 0. -/
def enaRegRead (w : World) (addr : ℕ) : UInt64 := (enaRegFileRead w.dev addr).toUInt64

/-- What can happen to the device next. -/
inductive Input
  | regWrite (addr : ℕ) (val : UInt64)
  | receive (frame : Bytes)
  /-- expiry of the moderation timer of a vector -/
  | moderTimer (v : Vec)
  /-- expiry of the keep-alive timer -/
  | keepAliveTimer
  | linkChange (up : Bool)
  /-- bus reset of the device -/
  | qdevReset
  /-- the guest writes its memory and the LLQ BAR -/
  | guest (mem : Memory) (llq : ℕ → UInt8)
  /-- time passes -/
  | tick (ns : ℕ)

/-- A timer runs its callback only when it is armed and its time has come. -/
def timerDue (timer : Option ℕ) (now : ℕ) : Bool :=
  match timer with
  | none => false
  | some t => decide (t ≤ now)

/-- One step of the device. -/
def step (net : Net) (w : World) : Input → Except Fault World
  | .regWrite addr val => enaRegWrite net w addr val
  | .receive frame => enaRxReceiveIov net w frame
  | .moderTimer v =>
    if timerDue (w.dev.irq v).moderTimer w.clockUs then return enaIrqModerTimer w v else return w
  | .keepAliveTimer =>
    if timerDue w.dev.keepAliveTimer w.clockMs then
      enaKeepAlive (w.setDev { w.dev with keepAliveTimer := none })
    else return w
  | .linkChange up => enaPostLinkChange { w with linkUp := up }
  | .qdevReset => return enaDevReset w
  | .guest mem llq => return { w with mem := mem, llq := llq }
  | .tick ns => return { w with clock := w.clock + ns }

/-- A run of any length; it ends at the first abort. -/
def run (net : Net) : World → List Input → Except Fault World
  | w, [] => return w
  | w, inp::inputs => do
    let w ← step net w inp
    run net w inputs

/-- The zeroed object that `ena_realize` starts from, with its MAC and property. -/
def EnaState.realized (macaddr : Fin 6 → UInt8) (llqLarge : Bool) : EnaState where
  macaddr := macaddr
  llqLarge := llqLarge
  reg := fun _ => 0
  aqHead := 0
  acqTail := 0
  acqPhase := false
  aenqTail := 0
  aenqPhase := false
  aenqGroups := 0
  keepAliveTimer := none
  mtu := 0
  hostInfoAddr := 0
  debugAreaAddr := 0
  debugAreaSize := 0
  llqEnabled := false
  llqEntrySize := 0
  rss := ⟨fun _ => 0,0,0,fun _ => 0,fun _ => 0⟩
  sq := fun _ => EnaSq.zero
  cq := fun _ => EnaCq.zero
  irq := fun _ => EnaIrq.zero
  txPkts := 0
  txBytes := 0
  rxPkts := 0
  rxBytes := 0
  rxDrops := 0
  txDrops := 0

/-- A machine that has just been switched on, with readable zeroed memory. -/
def World.powerOn (macaddr : Fin 6 → UInt8) (llqLarge : Bool) : World where
  dev := EnaState.realized macaddr llqLarge
  mem := ⟨fun _ => 0,fun _ => true,fun _ => 0⟩
  llq := fun _ => 0
  clock := 0
  linkUp := true
  trace := []

/-- States that some run reaches from a device that has just been reset. -/
def Reachable (net : Net) (w : World) : Prop :=
  ∃ w₀ inputs, run net (enaDevReset w₀) inputs = .ok w

end EnaDevice
