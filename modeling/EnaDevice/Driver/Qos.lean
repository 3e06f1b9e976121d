import EnaDevice.Model.Device

/-! The libqos driver of the qtests: register access, the reset handshake, bring-up, admin commands
and AENQ polls. What `guest_alloc` returned is an argument, the uninitialised fields of a record are
a parameter, and so is `qtest_clock_step`, which runs whatever timers are due. -/
namespace EnaDevice.Driver
open Bytes

/-- The assertions of the driver, by function. -/
inductive Assertion
  | readless
  | waitResetState
  | devReset
  | alloc
  | adminCmd
  | tx
  | rx
  deriving DecidableEq, Repr

/-- A test ends early when the device aborts or an assertion of its own fails. -/
inductive Abort
  | device (f : Fault)
  | assertion (site : Assertion)
  deriving DecidableEq, Repr

/-- What the test harness adds to the device. -/
structure Qtest where
  net : Net
  clockStep : ℕ → World → Except Fault World
  /-- `reg_off` and `reg_val` of a response record before the device fills it -/
  garbage : UInt16 × UInt32

/-- `struct QEna`, without the handles of the bus and the MSI-X messages. -/
structure QEna where
  mmioResp : UInt64
  mmioSeq : UInt16
  aq : UInt64
  acq : UInt64
  aenq : UInt64
  aqTail : UInt16
  acqHead : UInt16
  acqPhase : Bool
  aenqHead : UInt16
  aenqPhase : Bool
  deriving DecidableEq, Repr

/-- The driver and the machine it runs on. -/
structure Session where
  d : QEna
  w : World

abbrev enaTestAqDepth : UInt16 := 32
abbrev enaTestAenqDepth : UInt16 := 16
abbrev enaAdminEntrySize : ℕ := 64
abbrev enaResetPollLimit : ℕ := 1000

/-- `g_assert` -/
def gAssert (c : Bool) (site : Assertion) : Except Abort Unit :=
  if c then .ok () else .error (.assertion site)

/-- A step of the machine, whose aborts end the test. -/
def Session.stepped (s : Session) (x : Except Fault World) : Except Abort Session :=
  match x with
  | .ok w => .ok { s with w := w }
  | .error f => .error (.device f)

/-- `qtest_memwrite` -/
def qtestMemwrite (s : Session) (addr : UInt64) (data : Bytes) : Session :=
  { s with w := { s.w with mem := s.w.mem.write addr data } }

/-- `qtest_memread` -/
def qtestMemread (s : Session) (addr : UInt64) (len : ℕ) : Bytes := s.w.mem.bytesAt addr len

/-- `qtest_clock_step` -/
def qtestClockStep (q : Qtest) (s : Session) (ns : ℕ) : Except Abort Session :=
  s.stepped (q.clockStep ns s.w)

/-- The `for` loops that wait for the device: look, and let time pass before the next look. The
result is the last look. -/
def pollLoop {α : Type} (q : Qtest) (ns : ℕ) (look : Session → α) (found : α → Bool) :
    ℕ → Session → α → Except Abort (α × Session)
  | 0, s, last => .ok (last,s)
  | n+1, s, _ =>
    if found (look s) then .ok (look s,s)
    else do
      let s' ← qtestClockStep q s ns
      pollLoop q ns look found n s' (look s)

/-- `ena_reg_read` -/
def enaRegRead (s : Session) (off : ℕ) : UInt32 := (EnaDevice.enaRegRead s.w off).toUInt32

/-- `ena_reg_write` -/
def enaRegWrite (q : Qtest) (s : Session) (off : ℕ) (val : UInt32) : Except Abort Session :=
  s.stepped (step q.net s.w (.regWrite off val.toUInt64))

/-- `ena_mmio_resp_setup` -/
def enaMmioRespSetup (q : Qtest) (s : Session) : Except Abort Session := do
  let s ← enaRegWrite q s regMmioRespLo s.d.mmioResp.toUInt32
  enaRegWrite q s regMmioRespHi (s.d.mmioResp >>> 32).toUInt32

/-- `struct ena_admin_ena_mmio_req_read_less_resp` -/
def readlessResp (reqId regOff : UInt16) (regVal : UInt32) : Bytes :=
  ofLe16 reqId ++ ofLe16 regOff ++ ofLe32 regVal

/-- `ena_readless` -/
def enaReadless (q : Qtest) (s : Session) (off : UInt16) : Except Abort (UInt32 × Session) := do
  let reqId := s.d.mmioSeq + 1
  let s : Session := { s with d := { s.d with mmioSeq := reqId } }
  let s := qtestMemwrite s s.d.mmioResp (readlessResp (reqId + 0xdead) q.garbage.1 q.garbage.2)
  let s ← enaRegWrite q s regMmioRegRead ((off.toUInt32 <<< 16) ||| reqId.toUInt32)
  let (resp,s) ← pollLoop q 1000 (fun s => qtestMemread s s.d.mmioResp 8)
    (fun resp => le16At resp 0 = reqId) enaResetPollLimit s []
  gAssert (le16At resp 0 = reqId) .readless
  gAssert (le16At resp 2 = off) .readless
  return (le32At resp 4,s)

/-- `ena_wait_reset_state`, with the number of polls left. -/
def enaWaitResetState (q : Qtest) (expected : UInt32) : ℕ → Session → Except Abort Session
  | 0, _ => .error (.assertion .waitResetState)
  | n+1, s => do
    let (sts,s) ← enaReadless q s (UInt16.ofNat regDevSts)
    if sts &&& devStsResetInProgress = expected then return s
    else
      let s ← qtestClockStep q s 100000
      enaWaitResetState q expected n s

/-- `ena_dev_reset`: the reason is `ENA_REGS_RESET_NORMAL`, which is 0. -/
def enaDevReset (q : Qtest) (s : Session) : Except Abort Session := do
  let s ← enaRegWrite q s regDevCtl ((1 : UInt32) ||| (0 : UInt32) <<< 28)
  let s ← enaMmioRespSetup q s
  let s ← enaWaitResetState q devStsResetInProgress enaResetPollLimit s
  let s ← enaRegWrite q s regDevCtl 0
  let s ← enaWaitResetState q 0 enaResetPollLimit s
  let (sts,s) ← enaReadless q s (UInt16.ofNat regDevSts)
  gAssert (sts &&& devStsReady = devStsReady) .devReset
  return s

/-- `ena_alloc_zeroed` of memory that `guest_alloc` found at an address. -/
def enaAllocZeroed (s : Session) (addr : UInt64) (size : ℕ) : Except Abort Session := do
  gAssert (addr ≠ 0) .alloc
  return qtestMemwrite s addr (zeros size)

/-- `ena_admin_init` -/
def enaAdminInit (q : Qtest) (s : Session) (aq acq aenq : UInt64) : Except Abort Session := do
  let s ← enaAllocZeroed s aq (enaTestAqDepth.toNat*enaAdminEntrySize)
  let s ← enaAllocZeroed s acq (enaTestAqDepth.toNat*enaAdminEntrySize)
  let s ← enaAllocZeroed s aenq (enaTestAenqDepth.toNat*enaAdminEntrySize)
  let s : Session := { s with d := { s.d with
    aq := aq, acq := acq, aenq := aenq, aqTail := 0, acqHead := 0, acqPhase := true,
    aenqHead := enaTestAenqDepth, aenqPhase := true } }
  let s ← enaRegWrite q s regAqBaseLo aq.toUInt32
  let s ← enaRegWrite q s regAqBaseHi (aq >>> 32).toUInt32
  let s ← enaRegWrite q s regAcqBaseLo acq.toUInt32
  let s ← enaRegWrite q s regAcqBaseHi (acq >>> 32).toUInt32
  let caps := enaTestAqDepth.toUInt32 ||| (64 : UInt32) <<< 16
  let s ← enaRegWrite q s regAqCaps caps
  let s ← enaRegWrite q s regAcqCaps caps
  let s ← enaRegWrite q s regAenqBaseLo aenq.toUInt32
  let s ← enaRegWrite q s regAenqBaseHi (aenq >>> 32).toUInt32
  enaRegWrite q s regAenqCaps (enaTestAenqDepth.toUInt32 ||| (64 : UInt32) <<< 16)

/-- `ena_aenq_enable` -/
def enaAenqEnable (q : Qtest) (s : Session) : Except Abort Session :=
  enaRegWrite q s regAenqHeadDb s.d.aenqHead.toUInt32

/-- `ena_bringup`, without the MSI-X table, which belongs to the bus. -/
def enaBringup (q : Qtest) (s : Session) (aq acq aenq : UInt64) : Except Abort Session := do
  let s ← enaDevReset q s
  let s ← enaAdminInit q s aq acq aenq
  enaAenqEnable q s

/-- The command as `ena_admin_cmd` completes it: a record of 64 bytes with its id and phase. -/
def aqEntry (cmdId : UInt16) (phase : Bool) (cmd : Bytes) : Bytes :=
  ofLe16 cmdId ++ [u8At cmd 2,u8At cmd 3 ||| (if phase then 1 else 0)] ++ (pad 64 cmd).drop 4

/-- The second half of `ena_admin_cmd`: wait for the completion of a command and take it. -/
def enaAdminAwait (q : Qtest) (s : Session) (cmdId : UInt16) (respLen : ℕ) :
    Except Abort (UInt8 × Bytes × Session) := do
  let (comp,s) ← pollLoop q 1000
    (fun s => qtestMemread s (s.d.acq + (s.d.acqHead % enaTestAqDepth).toUInt64*64) 64)
    (fun comp => (u8At comp 3 &&& 1 != 0) = s.d.acqPhase) enaResetPollLimit s []
  gAssert ((u8At comp 3 &&& 1 != 0) = s.d.acqPhase) .adminCmd
  gAssert (le16At comp 0 &&& 0xfff = cmdId) .adminCmd
  let head := s.d.acqHead + 1
  let s : Session := { s with d := { s.d with
    acqHead := head
    acqPhase := if head % enaTestAqDepth = 0 then !s.d.acqPhase else s.d.acqPhase } }
  return (u8At comp 2,comp.take respLen,s)

/-- `ena_admin_cmd`: the status and as much of the completion as the caller asks for. -/
def enaAdminCmd (q : Qtest) (s : Session) (cmd : Bytes) (respLen : ℕ) :
    Except Abort (UInt8 × Bytes × Session) := do
  let cmdId := s.d.aqTail % enaTestAqDepth
  let aqPhase : Bool := (s.d.aqTail/enaTestAqDepth) &&& 1 = 0
  gAssert (cmd.length ≤ 64) .adminCmd
  gAssert (respLen ≤ 64) .adminCmd
  let s := qtestMemwrite s (s.d.aq + cmdId.toUInt64*64) (aqEntry cmdId aqPhase cmd)
  let s : Session := { s with d := { s.d with aqTail := s.d.aqTail + 1 } }
  let s ← enaRegWrite q s regAqDb s.d.aqTail.toUInt32
  enaAdminAwait q s cmdId respLen

/-- `struct ena_common_mem_addr`, as the driver fills it: the upper 16 bits of an address are
lost. -/
def memAddr (addr : UInt64) : Bytes :=
  ofLe32 addr.toUInt32 ++ ofLe16 (addr >>> 32).toUInt16 ++ ofLe16 0

/-- The indirect bit of `flags`, for commands with a control buffer. -/
def ctrlFlags (flags : UInt8) (ctrlLen : UInt32) : UInt8 := if ctrlLen ≠ 0 then 4 else flags

/-- `ena_get_feature` -/
def enaGetFeature (q : Qtest) (s : Session) (id ver : UInt8) (ctrlBuf : UInt64) (ctrlLen : UInt32) :
    Except Abort (UInt8 × Bytes × Session) :=
  enaAdminCmd q s ([0,0,8,ctrlFlags 0 ctrlLen] ++ ofLe32 ctrlLen ++ memAddr ctrlBuf ++
    [0,id,ver,0] ++ zeros 44) 64

/-- `ena_set_feature`, with a command that holds the feature and its value. -/
def enaSetFeature (q : Qtest) (s : Session) (cmd : Bytes) (ctrlBuf : UInt64) (ctrlLen : UInt32) :
    Except Abort (UInt8 × Session) := do
  let cmd := [u8At cmd 0,u8At cmd 1,9,ctrlFlags (u8At cmd 3) ctrlLen] ++ ofLe32 ctrlLen ++
    memAddr ctrlBuf ++
    cmd.drop 16
  let (status,_,s) ← enaAdminCmd q s cmd 64
  return (status,s)

def createCqReq (depth : UInt16) (entryWords : UInt8) (msixVector : UInt32) (base : UInt64) :
    Bytes :=
  [0,0,3,0,0x20,entryWords &&& 0x1f] ++ ofLe16 depth ++ ofLe32 msixVector ++ memAddr base

/-- `ena_create_cq` -/
def enaCreateCq (q : Qtest) (s : Session) (depth : UInt16) (entryWords : UInt8)
    (msixVector : UInt32) (base : UInt64) : Except Abort (UInt8 × Bytes × Session) :=
  enaAdminCmd q s (createCqReq depth entryWords msixVector base) 24

def sqIdentity (tx : Bool) : UInt8 := (if tx then sqDirectionTx else sqDirectionRx) <<< 5

def createSqReq (tx : Bool) (placement : UInt8) (cqIdx depth : UInt16) (base : UInt64) : Bytes :=
  [0,0,1,0,sqIdentity tx,0,placement,1] ++ ofLe16 cqIdx ++ ofLe16 depth ++ memAddr base ++ zeros 16

/-- `ena_create_sq` -/
def enaCreateSq (q : Qtest) (s : Session) (tx : Bool) (placement : UInt8) (cqIdx depth : UInt16)
    (base : UInt64) :
    Except Abort (UInt8 × Bytes × Session) :=
  enaAdminCmd q s (createSqReq tx placement cqIdx depth base) 24

/-- `ena_destroy_sq` -/
def enaDestroySq (q : Qtest) (s : Session) (sqIdx : UInt16) (tx : Bool) :
    Except Abort (UInt8 × Session) := do
  let (status,_,s) ← enaAdminCmd q s ([0,0,2,0] ++ ofLe16 sqIdx ++ [sqIdentity tx,0]) 8
  return (status,s)

/-- `ena_destroy_cq` -/
def enaDestroyCq (q : Qtest) (s : Session) (cqIdx : UInt16) : Except Abort (UInt8 × Session) := do
  let (status,_,s) ← enaAdminCmd q s ([0,0,4,0] ++ ofLe16 cqIdx ++ ofLe16 0) 8
  return (status,s)

/-- `ena_aenq_poll` -/
def enaAenqPoll (q : Qtest) (s : Session) : Except Abort (Option Bytes × Session) := do
  let e := qtestMemread s (s.d.aenq + (s.d.aenqHead % enaTestAenqDepth).toUInt64*64) 64
  if (u8At e 4 &&& 1 != 0) ≠ s.d.aenqPhase then return (none,s)
  let head := s.d.aenqHead + 1
  let s : Session := { s with d := { s.d with
    aenqHead := head
    aenqPhase := if head % enaTestAenqDepth = 0 then !s.d.aenqPhase else s.d.aenqPhase } }
  let s ← enaRegWrite q s regAenqHeadDb head.toUInt32
  return (some e,s)

end EnaDevice.Driver
