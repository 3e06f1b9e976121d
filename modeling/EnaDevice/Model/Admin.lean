import EnaDevice.Model.AdminFeatures

/-! The admin queue: execution of one command and processing of a doorbell. -/
namespace EnaDevice
open Bytes

/-- `enum ena_admin_aq_opcode` -/
inductive Opcode
  | createSq
  | destroySq
  | createCq
  | destroyCq
  | getFeature
  | setFeature
  | getStats
  deriving DecidableEq, Repr

def Opcode.ofCode (n : UInt8) : Option Opcode :=
  if n = 1 then some .createSq
  else if n = 2 then some .destroySq
  else if n = 3 then some .createCq
  else if n = 4 then some .destroyCq
  else if n = 8 then some .getFeature
  else if n = 9 then some .setFeature
  else if n = 11 then some .getStats
  else none

/-- A command that works on the device state alone. -/
def World.onDev (w : World) (r : AdminStatus × Bytes × EnaState) : AdminStatus × Bytes × World :=
  (r.1,r.2.1,w.setDev r.2.2)

/-- `ena_admin_exec` -/
def enaAdminExec (w : World) (cmd : Bytes) : Except Fault (AdminStatus × Bytes × World) :=
  match Opcode.ofCode (u8At cmd 2) with
  | some .createSq => do
    let r ← enaCreateSq w.dev cmd
    return w.onDev r
  | some .destroySq => return w.onDev (enaDestroySq w.dev cmd)
  | some .createCq => return w.onDev (enaCreateCq w.dev cmd)
  | some .destroyCq => return w.onDev (enaDestroyCq w.dev cmd)
  | some .getFeature => enaGetFeature w cmd
  | some .setFeature => enaSetFeature w cmd
  | some .getStats =>
    let r := enaGetStats w.dev cmd
    return (r.1,r.2,w)
  | none => return (.badOpcode,noResp,w)

/-- `struct ena_admin_acq_entry` -/
def acqEntry (cmdId : UInt16) (status : AdminStatus) (phase : Bool) (sqHeadIndx : UInt16)
    (resp : Bytes) : Bytes :=
  ofLe16 (cmdId &&& 0xfff) ++ [status.code,if phase then 1 else 0] ++ ofLe16 0 ++
    ofLe16 sqHeadIndx ++ pad 56 resp

/-- The rings that `ena_admin_process` works on, read from the registers when it starts. -/
structure AdminRings where
  aqBase : UInt64
  acqBase : UInt64
  aqDepth : UInt16
  acqDepth : UInt16
  deriving DecidableEq, Repr

def EnaState.adminRings (s : EnaState) : AdminRings :=
  ⟨s.aqBase,s.acqBase,s.capsDepth regAqCaps,s.capsDepth regAcqCaps⟩

/-- The completion half of an iteration of `ena_admin_process`. -/
def enaAcqPush (r : AdminRings) (w : World) (cmd : Bytes) (status : AdminStatus) (resp : Bytes) :
    Except Fault World := do
  let s := w.dev
  let slot ← modDepth s.acqTail r.acqDepth
  let w := enaDmaWrite w .acq (r.acqBase + slot.toUInt64*64)
    (acqEntry (le16At cmd 0) status s.acqPhase s.aqHead resp)
  let tail := s.acqTail + 1
  let lap ← modDepth tail r.acqDepth
  return w.setDev { w.dev with
    acqTail := tail
    acqPhase := if lap = 0 then !s.acqPhase else s.acqPhase }

/-- One iteration of `ena_admin_process`: fetch a command, execute it, write its completion. The
result of the DMA read is not looked at. -/
def enaAdminStep (r : AdminRings) (w : World) : Except Fault World := do
  let slot ← modDepth w.dev.aqHead r.aqDepth
  let cmd := (enaDmaRead w (r.aqBase + slot.toUInt64*64) 64).2
  let w := w.setDev { w.dev with aqHead := w.dev.aqHead + 1 }
  let (status,resp,w) ← enaAdminExec w cmd
  enaAcqPush r (w.emit (.adminExec cmd status.code)) cmd status resp

/-- The loop of `ena_admin_process`; every iteration takes one posted command. -/
def enaAdminLoop (r : AdminRings) (tail : UInt16) : ℕ → World → Except Fault World
  | 0, w => if w.dev.aqHead = tail then return w else throw .diverges
  | n+1, w =>
    if w.dev.aqHead = tail then return w
    else do
      let w ← enaAdminStep r w
      enaAdminLoop r tail n w

/-- `ena_admin_process` -/
def enaAdminProcess (w : World) : Except Fault World := do
  let r := w.dev.adminRings
  let head := w.dev.aqHead
  let tail := (w.dev.getReg regAqDb).toUInt16
  if r.aqBase = 0 ∨ r.acqBase = 0 ∨ r.aqDepth = 0 ∨ r.acqDepth = 0 then return w
  if tail - head > r.aqDepth then return w
  let w ← enaAdminLoop r tail (tail - head).toNat w
  let w := w.setDev (w.dev.setReg regAcqTail w.dev.acqTail.toUInt32)
  -- an interrupt only when a command was completed
  if head ≠ tail then return enaAdminIntr w else return w

end EnaDevice
