import EnaDevice.Model.World

/-! Asynchronous event notification queue. -/
namespace EnaDevice

/-- Event groups that the device reports. -/
inductive AenqGroup
  | linkChange
  | keepAlive
  deriving DecidableEq, Repr

def AenqGroup.code : AenqGroup → ℕ
  | .linkChange => 0
  | .keepAlive => 4

/-- One AENQ entry with the phase, group and time of the event. -/
def aenqEntry (group : AenqGroup) (syndrome : UInt16) (phase : Bool) (us : ℕ) (data : Bytes) :
    Bytes :=
  Bytes.pad 64 (Bytes.ofLe16 (UInt16.ofNat group.code) ++ Bytes.ofLe16 syndrome ++
    [if phase then 1 else 0,0,0,0] ++ Bytes.ofLe32 (UInt32.ofNat us) ++
    Bytes.ofLe32 (UInt32.ofNat (us/2^32)) ++ data)

/-- `ena_aenq_post`. -/
def enaAenqPost (w : World) (group : AenqGroup) (syndrome : UInt16) (data : Bytes) :
    Except Fault World := do
  let s := w.dev
  let base := s.aenqBase
  let depth := s.capsDepth regAenqCaps
  let headDb := (s.getReg regAenqHeadDb).toUInt16
  check (data.length ≤ 48) (.assertion .aenqPost)
  if base = 0 ∨ depth = 0 ∨ s.aenqGroups &&& bit group.code = 0 then return w
  else if headDb - s.aenqTail > depth then return w
  else if headDb = s.aenqTail then return w
  else
    let slot ← modDepth s.aenqTail depth
    let w := enaDmaWrite w .aenq (base + slot.toUInt64*64)
      (aenqEntry group syndrome s.aenqPhase w.clockUs data)
    let tail := s.aenqTail + 1
    let lap ← modDepth tail depth
    let s := { w.dev with
      aenqTail := tail
      aenqPhase := if lap = 0 then !s.aenqPhase else s.aenqPhase }
    return enaAdminIntr (w.setDev (s.setReg regAenqTail tail.toUInt32))

/-- `ena_post_link_change`. -/
def enaPostLinkChange (w : World) : Except Fault World :=
  enaAenqPost w .linkChange 0 (Bytes.ofLe32 (if w.linkUp then 1 else 0))

/-- `ena_keep_alive`: only the RX drop counter is filled in. -/
def enaKeepAlive (w : World) : Except Fault World := do
  let d := Bytes.pad 24 (Bytes.ofLe32 w.dev.rxDrops.toUInt32 ++
    Bytes.ofLe32 (w.dev.rxDrops >>> 32).toUInt32)
  let w ← enaAenqPost w .keepAlive 0 d
  return w.setDev { w.dev with keepAliveTimer := some (w.clockMs + enaKeepAliveIntervalMs) }

/-- `ena_aenq_config`. -/
def enaAenqConfig (w : World) (groups : UInt32) : Except Fault World := do
  let w := w.setDev { w.dev with aenqGroups := groups }
  let w ← if groups &&& bit AenqGroup.linkChange.code ≠ 0 then enaPostLinkChange w else pure w
  if groups &&& bit AenqGroup.keepAlive.code ≠ 0 then
    return w.setDev { w.dev with keepAliveTimer := some (w.clockMs + enaKeepAliveIntervalMs) }
  else return w.setDev { w.dev with keepAliveTimer := none }

end EnaDevice
