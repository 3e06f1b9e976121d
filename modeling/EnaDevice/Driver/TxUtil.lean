import EnaDevice.Driver.Qos

/-! The TX queues of the qtests: creation of a queue pair, descriptors, doorbells and completion
polls. -/
namespace EnaDevice.Driver
open Bytes

/-- `struct EnaTxQueue` -/
structure EnaTxQueue where
  depth : UInt16
  cqEntrySize : UInt8
  llq : Bool
  sqIdx : UInt16
  cqIdx : UInt16
  dbOff : UInt32
  unmaskOff : UInt32
  llqOff : UInt32
  lineSize : UInt16
  sqRing : UInt64
  cqRing : UInt64
  tail : UInt16
  cqHead : UInt16
  cqPhase : Bool
  deriving DecidableEq, Repr

/-- `ena_txq_create`, with the memory that `guest_alloc` found for the two rings. -/
def enaTxqCreate (q : Qtest) (s : Session) (depth : UInt16) (cqWords : UInt8) (vector : UInt32)
    (llq : Bool) (cqRing sqRing : UInt64) : Except Abort (EnaTxQueue × Session) := do
  let cqEntrySize := cqWords*4
  let s := qtestMemwrite s cqRing (zeros (depth.toNat*cqEntrySize.toNat))
  let sqRing := if llq then 0 else sqRing
  let (status,cq,s) ← enaCreateCq q s depth cqWords vector cqRing
  gAssert (status = 0) .tx
  let cqIdx := le16At cq 8
  let (status,sq,s) ← enaCreateSq q s true (if llq then placementPolicyDev else placementPolicyHost)
    cqIdx depth sqRing
  gAssert (status = 0) .tx
  return ({ depth := depth, cqEntrySize := cqEntrySize, llq := llq
            sqIdx := le16At sq 8, cqIdx := cqIdx, dbOff := le32At sq 12
            unmaskOff := le32At cq 20, llqOff := le32At sq 16, lineSize := 128
            sqRing := sqRing, cqRing := cqRing, tail := 0, cqHead := 0, cqPhase := true },s)

/-- `ena_tx_desc_fill` -/
def enaTxDescFill (addr : UInt64) (len reqId : UInt16) (ctrlFlags metaCtrl : UInt32)
    (hdrLen : UInt8) : Bytes :=
  ofLe32 (len.toUInt32 ||| ctrlFlags ||| ((((reqId >>> 10).toUInt32) <<< 16) &&& genmask 21 16)) ++
  ofLe32 (metaCtrl ||| (((reqId &&& 0x3ff).toUInt32 <<< 22) &&& genmask 31 22)) ++
  ofLe32 addr.toUInt32 ++
  ofLe32 (((addr >>> 32).toUInt32 &&& genmask 15 0) ||| (hdrLen.toUInt32 <<< 24))

/-- `ena_tx_meta_fill` -/
def enaTxMetaFill (mss : UInt16) (l3HdrLen l3HdrOff l4HdrWords : UInt8) : Bytes :=
  ofLe32 (bit 23 ||| bit 14 ||| bit 20 ||| bit 21 ||| bit 26 |||
    ((((mss >>> 10).toUInt32) <<< 16) &&& genmask 19 16)) ++
  ofLe32 0 ++
  ofLe32 (l3HdrLen.toUInt32 ||| (l3HdrOff.toUInt32 <<< 8) ||| (l4HdrWords.toUInt32 <<< 16) |||
    (((mss &&& 0x3ff).toUInt32 <<< 22) &&& genmask 31 22)) ++
  ofLe32 0

/-- `ena_txq_push` -/
def enaTxqPush (s : Session) (t : EnaTxQueue) (desc : Bytes) :
    Except Abort (EnaTxQueue × Session) := do
  gAssert (!t.llq) .tx
  let s := qtestMemwrite s (t.sqRing + (t.tail &&& (t.depth - 1)).toUInt64*16) desc
  return ({ t with tail := t.tail + 1 },s)

/-- `ena_txq_push_line`: the line goes through BAR 2 into the LLQ memory. -/
def enaTxqPushLine (s : Session) (t : EnaTxQueue) (line : Bytes) :
    Except Abort (EnaTxQueue × Session) := do
  gAssert t.llq .tx
  let off := t.llqOff.toNat + (t.tail &&& (t.depth - 1)).toNat*t.lineSize.toNat
  let llq := fun j =>
    if off ≤ j ∧ j < off + t.lineSize.toNat then u8At line (j - off) else s.w.llq j
  return ({ t with tail := t.tail + 1 },{ s with w := { s.w with llq := llq } })

/-- `ena_txq_doorbell` -/
def enaTxqDoorbell (q : Qtest) (s : Session) (t : EnaTxQueue) : Except Abort Session :=
  enaRegWrite q s t.dbOff.toNat t.tail.toUInt32

/-- `ena_txq_poll_cdesc`: the completion, if there is a new one. -/
def enaTxqPollCdesc (s : Session) (t : EnaTxQueue) : Option Bytes × EnaTxQueue :=
  let entry := qtestMemread s (t.cqRing +
    (t.cqHead &&& (t.depth - 1)).toUInt64*t.cqEntrySize.toUInt64)
    t.cqEntrySize.toNat
  let c := entry.take 8
  if (u8At c 3 &&& 1 != 0) ≠ t.cqPhase then (none,t)
  else (some c,{ t with
    cqHead := t.cqHead + 1
    cqPhase := if (t.cqHead + 1) &&& (t.depth - 1) = 0 then !t.cqPhase else t.cqPhase })

/-- `ena_txq_unmask` -/
def enaTxqUnmask (q : Qtest) (s : Session) (t : EnaTxQueue) (txDelay : UInt32)
    (moderationUpdate : Bool) :
    Except Abort Session :=
  let val := bit 30 ||| ((txDelay <<< 15) &&& genmask 29 15)
  enaRegWrite q s t.unmaskOff.toNat (if !moderationUpdate then val ||| bit 31 else val)

/-- The descriptors of a burst, then the doorbell, as the tests send them. -/
def enaTxqPushAll (s : Session) (t : EnaTxQueue) : List Bytes → Except Abort (EnaTxQueue × Session)
  | [] => .ok (t,s)
  | desc::descs => do
    let (t,s) ← enaTxqPush s t desc
    enaTxqPushAll s t descs

end EnaDevice.Driver
