import EnaDevice.Lib.Result
import EnaDevice.Model.State

/-! The device together with what it acts on: guest memory, LLQ memory, the virtual clock, the
link, and a record of every externally visible action. Aborts of the process are values of
`Fault`, so that the ones the device provokes deliberately can be told from the others. -/
namespace EnaDevice

/-- Guest actions outside the emulated driver contract (`ena_unsupported`). -/
inductive Unsupported
  | devCtlWrite (val : UInt32)
  | devCtlReasonWithoutReset (val : UInt32)
  | queueCaps (val : UInt32)
  | bar0Offset (addr : ℕ)
  | intrMaskWrite (val : UInt32)
  | registerWrite (addr : ℕ)
  | sqHeadWriteback
  | featureSelect (flags : UInt8)
  | inlineControlData
  | inlineIndirectionTable
  deriving DecidableEq, Repr

/-- The assertions of the source, by function. -/
inductive Assertion
  | llqMem
  | cqPush
  | aenqPost
  | txPktEntries
  | txComplete
  | txDoorbell
  | rxPushCdesc
  | rxDoorbell
  | rxReceiveIov
  deriving DecidableEq, Repr

/-- The arrays and buffers whose bounds the source relies on. -/
inductive Buffer
  | cq
  | llqMem
  | txPktDesc
  | txBuf
  | rxDesc
  | rxFrame
  deriving DecidableEq, Repr

inductive Fault
  | unsupported (why : Unsupported)
  /-- the host-info assertion on `os_type` -/
  | osType
  | assertion (site : Assertion)
  | outOfBounds (site : Buffer)
  | divisionByZero
  /-- a loop did not end within the iterations that its index allows -/
  | diverges
  deriving DecidableEq, Repr

/-- Aborts that end the emulation on purpose. -/
def Fault.Deliberate : Fault → Prop
  | .unsupported _ => True
  | .osType => True
  | _ => False

/-- What a DMA write is for. -/
inductive WriteSite
  | acq
  | aenq
  | mmioResp
  | cq (c : CqIdx)
  /-- the control buffer of an admin command -/
  | ctrlBuf (cmd : Bytes)
  | rxBuf (i : SqIdx)
  deriving DecidableEq, Repr

/-- Actions of the device in the order they happen. The last three only mark points of the
computation: an executed admin command with its status, a call of `ena_cq_intr` with the CQ as it
was, and a reset. A DMA write carries the device state of its moment. -/
inductive Event
  | dmaWrite (site : WriteSite) (dev : EnaState) (addr : UInt64) (data : Bytes)
  | msixNotify (v : Vec)
  | sendPacket (frame : Bytes)
  | addRawFragment (frame : Bytes)
  | txPktSend (frame : Bytes) (offloads : UInt32) (mss : UInt16)
  | flushQueuedPackets
  | adminExec (cmd : Bytes) (status : UInt8)
  | cqIntr (cq : EnaCq) (isTx : Bool)
  | reset
  deriving DecidableEq

structure World where
  dev : EnaState
  mem : Memory
  /-- contents of BAR 2 -/
  llq : ℕ → UInt8
  /-- `QEMU_CLOCK_VIRTUAL` in nanoseconds -/
  clock : ℕ
  linkUp : Bool
  trace : List Event

namespace World

def emit (w : World) (e : Event) : World := { w with trace := w.trace ++ [e] }

def setDev (w : World) (s : EnaState) : World := { w with dev := s }

@[simp] lemma setDev_dev (w : World) : w.setDev w.dev = w := rfl

def clockUs (w : World) : ℕ := w.clock/1000
def clockMs (w : World) : ℕ := w.clock/1000000

end World

/-- `assert(c)`, and the bounds that C leaves unchecked. -/
def check (c : Bool) (f : Fault) : Except Fault Unit := if c then .ok () else .error f

lemma holds_check {E : Fault → Prop} {c : Bool} {f : Fault} (h : c = false → E f) :
    Result.Holds E (fun _ => c = true) (check c f) := by
  unfold check
  split_ifs with hc
  · exact Result.holds_pure hc
  · exact Result.holds_throw (h (by simpa using hc))

lemma check_true (f : Fault) : check true f = .ok () := rfl

/-- Index of an entry of the completion-queue array. -/
def cqAt (idx : UInt16) : Except Fault CqIdx :=
  if h : idx.toNat < 16 then .ok ⟨idx.toNat,h⟩ else .error (.outOfBounds .cq)

/-- `a % d` on ring counters. -/
def modDepth (a d : UInt16) : Except Fault UInt16 :=
  if d = 0 then .error .divisionByZero else .ok (a % d)

lemma modDepth_of_ne_zero {a d : UInt16} (h : d ≠ 0) : modDepth a d = .ok (a % d) := if_neg h

/-- `ena_mem_addr` on the record at an offset of a command. -/
def enaMemAddr (b : Bytes) (off : ℕ) : UInt64 :=
  ((Bytes.le16At b (off+4)).toUInt64 <<< 32) ||| (Bytes.le32At b off).toUInt64

def enaDmaRead (w : World) (addr : UInt64) (len : ℕ) : Bool × Bytes := w.mem.read addr len

def enaDmaWrite (w : World) (site : WriteSite) (addr : UInt64) (data : Bytes) : World :=
  { w with mem := w.mem.write addr data, trace := w.trace ++ [.dmaWrite site w.dev addr data] }

def msixNotify (w : World) (v : Vec) : World := w.emit (.msixNotify v)

/-- Admin completions and AENQ events share MSI-X vector 0. -/
def enaAdminIntr (w : World) : World :=
  if w.dev.getReg regIntrMask &&& 1 ≠ 0 then w else msixNotify w 0

end EnaDevice
