import EnaDevice.Model.Irq
import EnaDevice.Model.Net

/-! TX datapath: descriptor slots of a host or LLQ ring, packet parsing, frame assembly, offloads
and completions. -/
namespace EnaDevice
open Bytes

/-- `struct ena_eth_io_tx_desc`; a meta descriptor overlays the same four words. -/
structure EnaTxDesc where
  lenCtrl : UInt32
  metaCtrl : UInt32
  buffAddrLo : UInt32
  buffAddrHiHdrSz : UInt32
  deriving DecidableEq, Repr

namespace EnaTxDesc

def ofBytes (b : Bytes) : EnaTxDesc := ⟨le32At b 0,le32At b 4,le32At b 8,le32At b 12⟩

abbrev size : ℕ := 16

/-- `ena_tx_desc_len` -/
def len (d : EnaTxDesc) : ℕ := (d.lenCtrl &&& genmask 15 0).toNat

/-- `ena_tx_desc_addr` -/
def addr (d : EnaTxDesc) : UInt64 :=
  d.buffAddrLo.toUInt64 ||| ((d.buffAddrHiHdrSz &&& genmask 15 0).toUInt64 <<< 32)

/-- `header_length` -/
def hdrLen (d : EnaTxDesc) : ℕ := ((d.buffAddrHiHdrSz &&& genmask 31 24) >>> 24).toNat

def isMeta (d : EnaTxDesc) : Bool := d.lenCtrl &&& bit 23 != 0
def isFirst (d : EnaTxDesc) : Bool := d.lenCtrl &&& bit 26 != 0
def isLast (d : EnaTxDesc) : Bool := d.lenCtrl &&& bit 27 != 0
def compReq (d : EnaTxDesc) : Bool := d.lenCtrl &&& bit 28 != 0
/-- `ext_valid` of a meta descriptor -/
def extValid (d : EnaTxDesc) : Bool := d.lenCtrl &&& bit 14 != 0

/-- `req_id_lo` joined with `req_id_hi`. -/
def reqId (d : EnaTxDesc) : UInt16 :=
  (((d.metaCtrl &&& genmask 31 22) >>> 22) |||
    (((d.lenCtrl &&& genmask 21 16) >>> 16) <<< 10)).toUInt16

/-- The meta fields of a meta descriptor, where `word2` overlays the address word. -/
def readMeta (d : EnaTxDesc) : EnaTxMeta where
  mss := (((d.buffAddrLo &&& genmask 31 22) >>> 22) |||
    (((d.lenCtrl &&& genmask 19 16) >>> 16) <<< 10)).toUInt16
  l3HdrLen := (d.buffAddrLo &&& genmask 7 0).toUInt8
  l3HdrOff := ((d.buffAddrLo &&& genmask 15 8) >>> 8).toUInt8
  l4HdrLenWords := ((d.buffAddrLo &&& genmask 21 16) >>> 16).toUInt8

end EnaTxDesc

abbrev enaLlqHeaderOff : ℕ := enaLlqDescsBeforeHeader*EnaTxDesc.size
abbrev enaLlqMaxHeader : ℕ := enaLlqLargeEntrySize.toNat - enaLlqHeaderOff
abbrev enaTxMaxPkt : ℕ := 65536 + enaLlqMaxHeader

/-- `EnaTxPkt`: the data descriptors of one packet, the slots it took and its meta descriptor. -/
structure EnaTxPkt where
  desc : List EnaTxDesc
  slots : ℕ
  haveMeta : Bool
  txMeta : EnaTxMeta
  deriving DecidableEq, Repr

def EnaTxPkt.zero : EnaTxPkt := ⟨[],0,false,EnaTxMeta.zero⟩

/-- `ena_llq_descs_per_entry`, always a divisor. -/
def enaLlqDescsPerEntry (sq : EnaSq) : Except Fault ℕ :=
  if sq.entrySize.toNat/EnaTxDesc.size = 0 then .error .divisionByZero
  else .ok (sq.entrySize.toNat/EnaTxDesc.size)

/-- `ena_llq_slot_line`: LLQ entry of a slot, relative to the first entry of the packet. -/
def enaLlqSlotLine (sq : EnaSq) (slot : ℕ) : Except Fault ℕ :=
  if slot < enaLlqDescsBeforeHeader then return 0
  else do
    let per ← enaLlqDescsPerEntry sq
    return 1 + (slot - enaLlqDescsBeforeHeader)/per

/-- `ena_llq_slot_off` -/
def enaLlqSlotOff (sq : EnaSq) (slot : ℕ) : Except Fault ℕ :=
  if slot < enaLlqDescsBeforeHeader then return slot*EnaTxDesc.size
  else do
    let per ← enaLlqDescsPerEntry sq
    return (slot - enaLlqDescsBeforeHeader)%per*EnaTxDesc.size

/-- `ena_tx_pkt_entries` -/
def enaTxPktEntries (sq : EnaSq) (slots : ℕ) : Except Fault ℕ := do
  check (0 < slots) (.assertion .txPktEntries)
  if sq.llq then
    let line ← enaLlqSlotLine sq (slots - 1)
    return line + 1
  else return slots

/-- `len` bytes at an offset of the slice that `ena_llq_mem` gives to an SQ. -/
def enaLlqRead (w : World) (i : SqIdx) (sq : EnaSq) (off len : ℕ) : Except Fault Bytes := do
  check sq.llq (.assertion .llqMem)
  let start := i.val*enaLlqQueueBytes + off
  check (start + len ≤ enaMemBarSize) (.outOfBounds .llqMem)
  return List.ofFn fun j : Fin len => w.llq (start + j)

/-- `ena_tx_read_slot`; the result of the DMA read is not looked at. -/
def enaTxReadSlot (w : World) (i : SqIdx) (sq : EnaSq) (slot : ℕ) : Except Fault EnaTxDesc :=
  let mask := sq.depth - 1
  if sq.llq then do
    let line ← enaLlqSlotLine sq slot
    let off ← enaLlqSlotOff sq slot
    let line := (sq.head.toNat + line) &&& mask.toNat
    let b ← enaLlqRead w i sq (line*sq.entrySize.toNat + off) EnaTxDesc.size
    return EnaTxDesc.ofBytes b
  else
    let idx := (sq.head.toNat + slot) &&& mask.toNat
    let r := enaDmaRead w (sq.base + UInt64.ofNat (idx*EnaTxDesc.size)) EnaTxDesc.size
    return EnaTxDesc.ofBytes r.2

/-- Header pushed with the packet at the head (`ena_tx_llq_header`). -/
def enaTxLlqHeader (w : World) (i : SqIdx) (sq : EnaSq) (len : ℕ) : Except Fault Bytes :=
  let line := sq.head &&& (sq.depth - 1)
  enaLlqRead w i sq (line.toNat*sq.entrySize.toNat + enaLlqHeaderOff) len

/-- `ena_tx_slot_posted` -/
def enaTxSlotPosted (sq : EnaSq) (slot : ℕ) (avail : UInt16) : Except Fault Bool := do
  let pos ← if sq.llq then enaLlqSlotLine sq slot else pure slot
  return decide (pos < avail.toNat)

/-- The loop of `ena_tx_parse` from one slot on, with the iterations that remain. -/
def enaTxParseFrom (w : World) (i : SqIdx) (sq : EnaSq) :
    ℕ → ℕ → EnaTxPkt → Except Fault (Option EnaTxPkt)
  | 0, _, _ => return none
  | n+1, slot, p => do
    let posted ← enaTxSlotPosted sq slot (sq.tail - sq.head)
    if !posted then return none
    let d ← enaTxReadSlot w i sq slot
    if d.isMeta then
      if slot ≠ 0 ∨ !d.extValid then return none
      else enaTxParseFrom w i sq n (slot+1) { p with haveMeta := true, txMeta := d.readMeta }
    else if p.desc.length = 0 ∧ !p.haveMeta ∧ !d.isFirst then return none
    else if p.desc.length = enaMaxPktDescs then return none
    else
      check (p.desc.length < enaMaxPktDescs) (.outOfBounds .txPktDesc)
      let p := { p with desc := p.desc ++ [d] }
      if d.isLast then return some { p with slots := slot+1 }
      else enaTxParseFrom w i sq n (slot+1) p

/-- `ena_tx_parse`: up to `ENA_MAX_PKT_DESCS` buffers plus one meta descriptor. -/
def enaTxParse (w : World) (i : SqIdx) : Except Fault (Option EnaTxPkt) :=
  enaTxParseFrom w i (w.dev.sq i) (enaMaxPktDescs + 1) 0 EnaTxPkt.zero

abbrev txTsoEn : UInt32 := bit 7
abbrev txL3CsumEn : UInt32 := bit 13
abbrev txL4CsumEn : UInt32 := bit 14

/-- A byte of the assembled frame. -/
def txBufAt (buf : Bytes) (off : ℕ) : Except Fault UInt8 :=
  match buf[off]? with
  | some b => .ok b
  | none => .error (.outOfBounds .txBuf)

abbrev ethPIp : UInt16 := 0x0800
abbrev ethPIpv6 : UInt16 := 0x86dd
abbrev ipProtoTcp : UInt8 := 6
abbrev ipProtoUdp : UInt8 := 17

/-- `IP_HDR_GET_LEN`: the IHL field of the version byte, in bytes. -/
def ipHdrLen (b : UInt8) : ℕ := (b &&& 0xf).toNat*4

/-- `eth_get_l2_hdr_length` looks at the Ethernet header and one VLAN tag. -/
def txL2HdrLength (net : Net) (buf : Bytes) : Except Fault ℕ := do
  check (ethHlen + 4 ≤ buf.length) (.outOfBounds .txBuf)
  return net.ethGetL2HdrLength buf

/-- `ena_tx_frame_protos`: whether the frame is IPv4, and its L4 protocol. -/
def enaTxFrameProtos (net : Net) (buf : Bytes) : Except Fault (Bool × UInt8) :=
  if buf.length < ethHlen + 4 then return (false,0)
  else do
    let l2 ← txL2HdrLength net buf
    if net.ethGetL3Proto buf l2 = ethPIp ∧ buf.length ≥ l2 + 20 then
      let vhl ← txBufAt buf l2
      if vhl >>> 4 = 4 ∧ ipHdrLen vhl ≥ 20 ∧ buf.length ≥ l2 + ipHdrLen vhl then
        let p ← txBufAt buf (l2 + 9)
        return (true,p)
      else return (false,0)
    else if net.ethGetL3Proto buf l2 = ethPIpv6 ∧ buf.length ≥ l2 + 40 then
      let p ← txBufAt buf (l2 + 6)
      return (false,p)
    else return (false,0)

/-- Two bytes of the frame replaced, as the checksum field of an IPv4 header is. -/
def putBe16 (buf : Bytes) (off : ℕ) (x : UInt16) : Except Fault Bytes := do
  check (off + 2 ≤ buf.length) (.outOfBounds .txBuf)
  return buf.take off ++ [(x >>> 8).toUInt8,x.toUInt8] ++ buf.drop (off+2)

/-- `ena_tx_ip4_csum`: header checksum in place; the length stays as the driver wrote it. -/
def enaTxIp4Csum (net : Net) (buf : Bytes) : Except Fault Bytes := do
  let ip ← txL2HdrLength net buf
  let buf ← putBe16 buf (ip + 10) 0
  let vhl ← txBufAt buf ip
  check (ip + ipHdrLen vhl ≤ buf.length) (.outOfBounds .txBuf)
  putBe16 buf (ip + 10) (net.netRawChecksum ((buf.drop ip).take (ipHdrLen vhl)))

/-- `ena_tx_offloads`: the virtio header that the backend segments or checksums by. -/
def enaTxOffloads (net : Net) (frame : Bytes) (offloads : UInt32) (mss : UInt16) : Bool :=
  if offloads &&& txTsoEn ≠ 0 then net.netTxPktBuildVheader frame true true mss
  else net.netTxPktBuildVheader frame false true 0

/-- The buffers of a packet read one after another into `total` allocated bytes; `none` when a
read fails. -/
def enaTxGather (w : World) (total : ℕ) : List EnaTxDesc → Bytes → Except Fault (Option Bytes)
  | [], buf => return some buf
  | d::ds, buf => do
    check (buf.length + d.len ≤ total) (.outOfBounds .txBuf)
    match enaDmaRead w d.addr d.len with
    | (true,data) => enaTxGather w total ds (buf ++ data)
    | (false,_) => return none

def World.txDrop (w : World) : World := w.setDev { w.dev with txDrops := w.dev.txDrops + 1 }

def World.txCount (w : World) (bytes : ℕ) : World :=
  w.setDev { w.dev with
    txPkts := w.dev.txPkts + 1
    txBytes := w.dev.txBytes + UInt64.ofNat bytes }

/-- The offload bits that apply to the protocols of a frame. -/
def txApplicable (offloads : UInt32) (ip4 : Bool) (l4 : UInt8) : UInt32 :=
  let offloads := if offloads &&& txL3CsumEn ≠ 0 ∧ !ip4 then offloads &&& ~~~txL3CsumEn
    else offloads
  if offloads &&& txL4CsumEn ≠ 0 ∧ l4 ≠ ipProtoTcp ∧ l4 ≠ ipProtoUdp then
    offloads &&& ~~~txL4CsumEn
  else offloads

/-- The IPv4 header checksum is done here unless the backend segments; its bit is then dropped. -/
def enaTxL3Csum (net : Net) (buf : Bytes) (offloads : UInt32) : Except Fault (Bytes × UInt32) :=
  if offloads &&& txL3CsumEn ≠ 0 ∧ offloads &&& txTsoEn = 0 then do
    let buf ← enaTxIp4Csum net buf
    return (buf,offloads &&& ~~~txL3CsumEn)
  else return (buf,offloads)

/-- The end of `ena_tx_xmit`: frames without L4 work go out verbatim, the others through the
packet library. -/
def enaTxSend (net : Net) (w : World) (mss : UInt16) (buf : Bytes) (offloads : UInt32) : World :=
  if offloads = 0 then (w.emit (.sendPacket buf)).txCount buf.length
  else
    let w := w.emit (.addRawFragment buf)
    if !net.netTxPktParse buf ∨ !enaTxOffloads net buf offloads mss then w.txDrop
    else
      let w := w.emit (.txPktSend buf offloads mss)
      if net.netTxPktSend buf offloads mss then w.txCount (net.netTxPktGetTotalLen buf) else w

/-- The checks of `ena_tx_xmit` against the MTU and the packet's offload bits, and the hand-over to
the backend. -/
def enaTxHandOver (net : Net) (w : World) (sq : EnaSq) (metaCtrl : UInt32) (buf : Bytes) :
    Except Fault World :=
  let offloads := metaCtrl &&& (txTsoEn ||| txL3CsumEn ||| txL4CsumEn)
  if offloads &&& txTsoEn = 0 ∧ buf.length > (w.dev.mtu + 14 + 4).toNat then return w.txDrop
  else do
    let protos ← enaTxFrameProtos net buf
    if offloads &&& txTsoEn ≠ 0 ∧ (sq.txMeta.mss = 0 ∨ protos.2 ≠ ipProtoTcp) then return w.txDrop
    else
      let r ← enaTxL3Csum net buf (txApplicable offloads protos.1 protos.2)
      return enaTxSend net w sq.txMeta.mss r.1 r.2

/-- The part of `ena_tx_xmit` after the copy: the fabric drops frames with a foreign source MAC. -/
def enaTxFilter (net : Net) (w : World) (sq : EnaSq) (metaCtrl : UInt32) (buf : Bytes) :
    Except Fault World :=
  if buf.length < ethHlen then return w
  else do
    check (2*ethAlen ≤ buf.length) (.outOfBounds .txBuf)
    if (buf.drop ethAlen).take ethAlen ≠ List.ofFn w.dev.macaddr then return w
    else enaTxHandOver net w sq metaCtrl buf

/-- The pushed header, if there is one. -/
def enaTxHeader (w : World) (i : SqIdx) (sq : EnaSq) (hdrLen : ℕ) : Except Fault Bytes :=
  if hdrLen ≠ 0 then enaTxLlqHeader w i sq hdrLen else return []

/-- `ena_tx_xmit`: copies the pushed header and the buffers, then hands the frame over. -/
def enaTxXmit (net : Net) (w : World) (i : SqIdx) (p : EnaTxPkt) : Except Fault World :=
  let sq := w.dev.sq i
  match p.desc with
  | [] => throw (.outOfBounds .txPktDesc)
  | d::_ =>
    let total := d.hdrLen + (p.desc.map EnaTxDesc.len).sum
    if !sq.llq ∧ d.hdrLen ≠ 0 then return w
    -- the subtraction is unsigned, so a host queue with entry size 0 passes
    else if UInt64.ofNat d.hdrLen > sq.entrySize.toUInt64 - UInt64.ofNat enaLlqHeaderOff then
      return w
    else if total = 0 ∨ total > enaTxMaxPkt then return w
    else do
      let hdr ← enaTxHeader w i sq d.hdrLen
      let buf ← enaTxGather w total p.desc hdr
      match buf with
      | none => return w.txDrop
      | some buf => enaTxFilter net w sq d.metaCtrl buf

/-- `struct ena_eth_io_tx_cdesc` in an entry of the largest size. -/
def txCdesc (phase : Bool) (reqId subQid sqHeadIdx : UInt16) : Bytes :=
  pad 32 (ofLe16 reqId ++ [0,if phase then 1 else 0] ++ ofLe16 subQid ++ ofLe16 sqHeadIdx)

/-- `ena_tx_complete` -/
def enaTxComplete (w : World) (i : SqIdx) (reqId : UInt16) : Except Fault World := do
  let sq := w.dev.sq i
  let c ← cqAt sq.cqIdx
  let cq := w.dev.cq c
  check (cq.entrySize.toNat ≤ 32) (.assertion .txComplete)
  let w ← enaCqPush w c (txCdesc cq.phase reqId (UInt16.ofNat i) sq.head)
  return enaCqIntr w c true

def World.setSq (w : World) (i : SqIdx) (q : EnaSq) : World := w.setDev (w.dev.setSq i q)

/-- One iteration of `ena_tx_doorbell`: the packet at the head, or the end of a bad burst. -/
def enaTxDoorbellStep (net : Net) (w : World) (i : SqIdx) : Except Fault World := do
  let p ← enaTxParse w i
  match p with
  | none =>
    -- a malformed packet discards the posted burst
    let w := w.txDrop
    return w.setSq i { w.dev.sq i with head := (w.dev.sq i).tail }
  | some p =>
    match p.desc with
    | [] =>
      let w := w.txDrop
      return w.setSq i { w.dev.sq i with head := (w.dev.sq i).tail }
    | d::_ =>
      let w := if p.haveMeta then w.setSq i { w.dev.sq i with txMeta := p.txMeta } else w
      let w ← enaTxXmit net w i p
      let n ← enaTxPktEntries (w.dev.sq i) p.slots
      let w := w.setSq i { w.dev.sq i with head := (w.dev.sq i).head + UInt16.ofNat n }
      if d.compReq then enaTxComplete w i d.reqId else return w

/-- The loop of `ena_tx_doorbell`; every iteration takes at least one posted entry. -/
def enaTxDoorbellLoop (net : Net) (i : SqIdx) : ℕ → World → Except Fault World
  | 0, w => if (w.dev.sq i).head = (w.dev.sq i).tail then return w else throw .diverges
  | n+1, w =>
    if (w.dev.sq i).head = (w.dev.sq i).tail then return w
    else do
      let w ← enaTxDoorbellStep net w i
      enaTxDoorbellLoop net i n w

/-- `ena_tx_doorbell` -/
def enaTxDoorbell (net : Net) (w : World) (i : SqIdx) : Except Fault World := do
  let sq := w.dev.sq i
  check sq.isTx (.assertion .txDoorbell)
  let c ← cqAt sq.cqIdx
  if !(w.dev.cq c).used then return w
  enaTxDoorbellLoop net i (sq.tail - sq.head).toNat w

end EnaDevice
