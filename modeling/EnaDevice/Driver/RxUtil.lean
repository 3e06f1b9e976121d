import EnaDevice.Driver.Qos

/-! The RX rings of the qtests: creation of a queue pair with its buffers, posting and completion
polls. -/
namespace EnaDevice.Driver
open Bytes

/-- `RxRing`, without the handles of the driver and of the backend. -/
structure RxRing where
  sqBase : UInt64
  cqBase : UInt64
  bufBase : UInt64
  sqIdx : UInt16
  cqIdx : UInt16
  depth : UInt16
  cqDepth : UInt16
  entrySize : UInt8
  bufSize : UInt32
  tail : UInt16
  nextReq : UInt16
  cqHead : UInt16
  cqPhase : Bool
  deriving DecidableEq, Repr

/-- `rx_alloc` of memory that `guest_alloc` found at an address. -/
def rxAlloc (s : Session) (addr : UInt64) (size : ℕ) : Except Abort Session := do
  gAssert (addr ≠ 0) .rx
  return qtestMemwrite s addr (zeros size)

/-- `rx_ring_init`, with the memory for the rings and the buffers. -/
def rxRingInit (q : Qtest) (s : Session) (depth cqDepth : UInt16) (entryWords : UInt8)
    (msixVector bufSize : UInt32) (sqBase cqBase bufBase : UInt64) :
    Except Abort (RxRing × Session) := do
  let entrySize := entryWords*4
  let s ← rxAlloc s sqBase (depth.toNat*16)
  let s ← rxAlloc s cqBase (cqDepth.toNat*entrySize.toNat)
  let s ← rxAlloc s bufBase (depth.toNat*bufSize.toNat)
  let (status,cq,s) ← enaCreateCq q s cqDepth entryWords msixVector cqBase
  gAssert (status = 0) .rx
  let cqIdx := le16At cq 8
  let (status,sq,s) ← enaCreateSq q s false placementPolicyHost cqIdx depth sqBase
  gAssert (status = 0) .rx
  return ({ sqBase := sqBase, cqBase := cqBase, bufBase := bufBase
            sqIdx := le16At sq 8, cqIdx := cqIdx
            depth := depth, cqDepth := cqDepth, entrySize := entrySize, bufSize := bufSize
            tail := 0, nextReq := 0, cqHead := 0, cqPhase := true },s)

/-- `rx_buf_addr` -/
def rxBufAddr (r : RxRing) (reqId : UInt16) : UInt64 :=
  r.bufBase + reqId.toUInt64*r.bufSize.toUInt64

/-- The descriptor that `rx_post` writes for a buffer: first, last and completion requested. -/
def rxDescFill (length reqId : UInt16) (buf : UInt64) : Bytes :=
  ofLe16 length ++ ([0,0x1c] : Bytes) ++ ofLe16 reqId ++ ofLe16 0 ++ ofLe32 buf.toUInt32 ++
    ofLe16 (buf >>> 32).toUInt16 ++ ofLe16 0

/-- One iteration of the loop of `rx_post`. -/
def rxPostOne (r : RxRing) (s : Session) : RxRing × Session :=
  let reqId := r.nextReq % r.depth
  let desc := rxDescFill r.bufSize.toUInt16 reqId (rxBufAddr r reqId)
  ({ r with nextReq := r.nextReq + 1, tail := r.tail + 1 },
    qtestMemwrite s (r.sqBase + (r.tail &&& (r.depth - 1)).toUInt64*16) desc)

def rxPostLoop : ℕ → RxRing → Session → RxRing × Session
  | 0, r, s => (r,s)
  | n+1, r, s => rxPostLoop n (rxPostOne r s).1 (rxPostOne r s).2

/-- `rx_post` -/
def rxPost (q : Qtest) (r : RxRing) (s : Session) (count : ℕ) :
    Except Abort (RxRing × Session) := do
  let (r,s) := rxPostLoop count r s
  let s ← enaRegWrite q s (regSqDbBase + r.sqIdx.toNat*4) r.tail.toUInt32
  return (r,s)

/-- `rx_cq_next`: the base part of the completion, if there is a new one. -/
def rxCqNext (r : RxRing) (s : Session) : Option Bytes × RxRing :=
  let c :=
    qtestMemread s (r.cqBase + (r.cqHead &&& (r.cqDepth - 1)).toUInt64*r.entrySize.toUInt64) 16
  if (le32At c 0 &&& bit 24 != 0) ≠ r.cqPhase then (none,r)
  else (some c,{ r with
    cqHead := r.cqHead + 1
    cqPhase := if (r.cqHead + 1) &&& (r.cqDepth - 1) = 0 then !r.cqPhase else r.cqPhase })

/-- `rx_wait_cdesc`, with the number of polls left. -/
def rxWaitCdesc (q : Qtest) : ℕ → RxRing → Session → Except Abort (Bytes × RxRing × Session)
  | 0, _, _ => .error (.assertion .rx)
  | n+1, r, s => do
    if let (some c,r) := rxCqNext r s then return (c,r,s)
    let s ← qtestClockStep q s 1000
    rxWaitCdesc q n r s

/-- `rx_unmask` -/
def rxUnmask (q : Qtest) (r : RxRing) (s : Session) (rxDelayUs : UInt32) : Except Abort Session :=
  enaRegWrite q s (regCqUnmaskBase + r.cqIdx.toNat*4) (bit 30 ||| rxDelayUs)

end EnaDevice.Driver
