import EnaDevice.Model.Irq
import EnaDevice.Model.Net
import EnaDevice.Model.Reset

/-! RX datapath: RSS hash and queue selection, collection of posted descriptors, and delivery of
a frame into guest buffers with its completions. -/
namespace EnaDevice
open Bytes

abbrev enaRxMaxFrame : ℕ := enaMaxMtu.toNat + ethHlen + 4
/-- `ENA_RSS_L4_PORTS` -/
abbrev enaRssL4Ports : UInt16 := 0x30

/-- `ena_rss_key`: key words in reverse order, each big-endian. -/
def enaRssKey (s : EnaState) : Bytes :=
  (List.ofFn fun i : Fin 10 => (ofLe32 (s.rss.key (Fin.rev i))).reverse).flatten

/-- `ena_rss_proto` -/
def enaRssProto (hasip4 frag : Bool) (l4 : EthL4HdrProto) : Fin 16 :=
  if hasip4 then
    if frag then rssIp4Frag
    else match l4 with
      | .tcp => rssTcp4
      | .udp => rssUdp4
      | _ => rssIp4
  else match l4 with
    | .tcp => rssTcp6
    | .udp => rssUdp6
    | _ => rssIp6

/-- `ena_rss_hash`: non-IP frames and protocols without selected fields hash to 0. -/
def enaRssHash (net : Net) (s : EnaState) (frame : Bytes) : UInt32 :=
  let p := net.netRxPktGetProtocols frame
  if !p.hasip4 ∧ !p.hasip6 then 0
  else
    let frag := p.hasip4 && net.netRxPktIp4Fragment frame
    let fields := s.rss.fields (enaRssProto p.hasip4 frag p.l4)
    if fields = 0 then 0
    else
      let l4 := if fields &&& enaRssL4Ports = 0 then .invalid else p.l4
      let type : NetRxPktRssType :=
        if p.hasip4 then match l4 with
          | .tcp => .ipV4Tcp
          | .udp => .ipV4Udp
          | _ => .ipV4
        else match l4 with
          | .tcp => .ipV6Tcp
          | .udp => .ipV6Udp
          | _ => .ipV6
      s.rss.initVal ^^^ net.netRxPktCalcRssHash frame type (enaRssKey s)

/-- A used SQ of the RX direction. -/
def EnaSq.usedRx (sq : EnaSq) : Bool := sq.used && !sq.isTx

/-- `hash & (ENA_RSS_IND_TBL_SIZE - 1)` -/
def rssSlot (hash : UInt32) : Fin 128 :=
  ⟨(hash &&& 127).toNat,by
    rw [UInt32.toNat_and]
    exact Nat.and_lt_two_pow (n := 7) hash.toNat (by decide)⟩

/-- `ena_rx_sq`: the indirection table entry, or else the first used RX SQ. -/
def enaRxSq (s : EnaState) (hash : UInt32) : Option SqIdx :=
  let idx := s.rss.indTbl (rssSlot hash)
  if h : ∃ h : idx.toNat < 16, (s.sq ⟨idx.toNat,h⟩).usedRx then some ⟨idx.toNat,h.fst⟩
  else (List.finRange 16).find? fun i => (s.sq i).usedRx

/-- `ena_rx_status`: parsing results of the frame as completion status bits. -/
def enaRxStatus (net : Net) (frame : Bytes) : UInt32 :=
  let p := net.netRxPktGetProtocols frame
  let l3 : UInt32 :=
    if p.hasip4 then
      8 ||| (if net.netRxPktIp4Fragment frame then bit 15 else 0) |||
        (if net.netRxPktValidateL3Csum frame = some false then bit 13 else 0)
    else if p.hasip6 then 11
    else 0
  let l4 (idx : UInt32) : UInt32 :=
    (idx <<< 8) ||| match net.netRxPktValidateL4Csum frame with
      | none => 0
      | some valid => bit 16 ||| (if valid then 0 else bit 14)
  bit 30 ||| l3 ||| match p.l4 with
    | .tcp => l4 12
    | .udp => l4 13
    | _ => 0

/-- `struct ena_eth_io_rx_desc` -/
structure EnaRxDesc where
  length : UInt16
  ctrl : UInt8
  reqId : UInt16
  buffAddrLo : UInt32
  buffAddrHi : UInt16
  deriving DecidableEq, Repr

namespace EnaRxDesc

def ofBytes (b : Bytes) : EnaRxDesc := ⟨le16At b 0,u8At b 3,le16At b 4,le32At b 8,le16At b 12⟩

/-- `sizeof(struct ena_eth_io_rx_desc)` -/
abbrev bytes : ℕ := 16

/-- `ena_rx_desc_size`: a length of 0 means 64 KiB. -/
def size (d : EnaRxDesc) : ℕ := if d.length = 0 then 65536 else d.length.toNat

/-- `ena_rx_desc_addr` -/
def addr (d : EnaRxDesc) : UInt64 := d.buffAddrLo.toUInt64 ||| (d.buffAddrHi.toUInt64 <<< 32)

/-- `ena_rx_desc_valid`: first, last and comp_req are set and the id is one of the ring's. -/
def valid (sq : EnaSq) (d : EnaRxDesc) : Bool :=
  d.ctrl &&& 0x1c == 0x1c && d.reqId < sq.depth

end EnaRxDesc

/-- The `n`-th posted descriptor of an SQ, or `none` when its read fails. -/
def enaRxRead (m : Memory) (sq : EnaSq) (n : ℕ) : Option EnaRxDesc :=
  match m.read (sq.base + UInt64.ofNat ((sq.head.toNat + n) &&& (sq.depth - 1).toNat)*16)
      EnaRxDesc.bytes with
  | (true,b) => some (EnaRxDesc.ofBytes b)
  | (false,_) => none

/-- Outcome of the loop of `ena_rx_collect`. -/
inductive RxCollect
  /-- the descriptors cover the frame -/
  | done (desc : List EnaRxDesc)
  /-- too few descriptors are posted, or the frame needs too many -/
  | short
  /-- the descriptor after `n` good ones is unreadable or invalid -/
  | bad (n : ℕ)
  deriving DecidableEq, Repr

/-- The loop of `ena_rx_collect`, with the descriptors read so far and their capacity. -/
def enaRxCollectFrom (m : Memory) (sq : EnaSq) (len : ℕ) :
    ℕ → List EnaRxDesc → ℕ → Except Fault RxCollect
  | fuel, desc, cap =>
    if cap ≥ len then return .done desc
    else if desc.length = (sq.tail - sq.head).toNat ∨ desc.length = enaMaxPktDescs then
      return .short
    else match fuel with
      | 0 => throw .diverges
      | fuel+1 => do
        check (desc.length < enaMaxPktDescs) (.outOfBounds .rxDesc)
        match enaRxRead m sq desc.length with
        | none => return .bad desc.length
        | some d =>
          if d.valid sq then enaRxCollectFrom m sq len fuel (desc ++ [d]) (cap + d.size)
          else return .bad desc.length

/-- `ena_rx_collect`: the descriptors covering `len` bytes, if they can be had. A bad descriptor
is consumed, with the good ones before it, so that the queue recovers. -/
def enaRxCollect (w : World) (i : SqIdx) (len : ℕ) :
    Except Fault (World × Option (List EnaRxDesc)) := do
  let sq := w.dev.sq i
  let r ← enaRxCollectFrom w.mem sq len enaMaxPktDescs [] 0
  match r with
  | .done desc => return (w,some desc)
  | .short => return (w,none)
  | .bad n =>
    return (w.setDev (w.dev.setSq i { sq with head := sq.head + UInt16.ofNat (n+1) }),none)

/-- `struct ena_eth_io_rx_cdesc_ext` -/
def rxCdesc (phase : Bool) (status : UInt32) (length reqId : UInt16) (hash : UInt32)
    (subQid : UInt16) (addr : UInt64) : Bytes :=
  pad 32 (ofLe32 (if phase then status ||| bit 24 else status) ++ ofLe16 length ++ ofLe16 reqId ++
    ofLe32 hash ++ ofLe16 subQid ++ zeros 2 ++ ofLe32 addr.toUInt32 ++
    ofLe16 (addr >>> 32).toUInt16)

/-- `ena_rx_push_cdesc` -/
def enaRxPushCdesc (w : World) (c : CqIdx) (status : UInt32) (length reqId : UInt16)
    (hash : UInt32) (subQid : UInt16) (addr : UInt64) : Except Fault World := do
  let cq := w.dev.cq c
  check (cq.entrySize.toNat ≤ 32) (.assertion .rxPushCdesc)
  enaCqPush w c (rxCdesc cq.phase status length reqId hash subQid addr)

/-- `ena_rx_doorbell` -/
def enaRxDoorbell (w : World) (i : SqIdx) : Except Fault World := do
  check (!(w.dev.sq i).isTx) (.assertion .rxDoorbell)
  return w.emit .flushQueuedPackets

/-- `ena_rx_can_receive` -/
def enaRxCanReceive (s : EnaState) : Bool :=
  (List.finRange 16).any (fun i => (s.sq i).usedRx && (s.sq i).head != (s.sq i).tail) ||
    !(List.finRange 16).any fun i => (s.sq i).usedRx

abbrev rxCdescFirst : UInt32 := bit 26
abbrev rxCdescLast : UInt32 := bit 27

/-- The writing loop of `ena_rx_receive_iov` over the collected descriptors: each gets the next
chunk of the frame and a completion. Returns the number of bytes written. -/
def enaRxScatter (i : SqIdx) (c : CqIdx) (frame : Bytes) (status hash : UInt32) :
    List EnaRxDesc → Bool → ℕ → World → Except Fault (World × ℕ)
  | [], _, off, w => return (w,off)
  | d::ds, first, off, w => do
    let chunk := min d.size (frame.length - off)
    let w := enaDmaWrite w (.rxBuf i) d.addr ((frame.drop off).take chunk)
    let bits := status ||| (if first then rxCdescFirst else 0) |||
      (if ds.isEmpty then rxCdescLast else 0)
    let w ← enaRxPushCdesc w c bits (UInt16.ofNat chunk) d.reqId hash (UInt16.ofNat i) d.addr
    enaRxScatter i c frame status hash ds false (off + chunk) w

def World.rxDrop (w : World) : World := w.setDev { w.dev with rxDrops := w.dev.rxDrops + 1 }

/-- `frame[0] & 1`: the group bit of the destination address. -/
def groupBit (frame : Bytes) : Bool := u8At frame 0 &&& 1 != 0

/-- Delivery of a frame to an RX SQ with its completions, once the descriptors are collected. -/
def enaRxDeliver (net : Net) (w : World) (i : SqIdx) (c : CqIdx) (frame : Bytes) (hash : UInt32)
    (desc : List EnaRxDesc) : Except Fault World := do
  let r ← enaRxScatter i c frame (enaRxStatus net frame) hash desc true 0 w
  let w := r.1
  check (r.2 = frame.length) (.assertion .rxReceiveIov)
  let sq := w.dev.sq i
  let w := w.setDev (w.dev.setSq i { sq with head := sq.head + UInt16.ofNat desc.length })
  let w := w.setDev { w.dev with
    rxPkts := w.dev.rxPkts + 1
    rxBytes := w.dev.rxBytes + UInt64.ofNat frame.length }
  return enaCqIntr w c false

/-- `ena_rx_receive_iov` -/
def enaRxReceiveIov (net : Net) (w : World) (frame : Bytes) : Except Fault World := do
  if frame.length > (w.dev.mtu + 14 + 4).toNat then return w.rxDrop
  check (frame.length ≤ enaRxMaxFrame) (.outOfBounds .rxFrame)
  -- the fabric only delivers frames for our MAC, broadcast and multicast
  if frame.length < ethHlen ∨
      (!groupBit frame ∧ frame.take ethAlen ≠ List.ofFn w.dev.macaddr) then return w
  let hash := enaRssHash net w.dev frame
  match enaRxSq w.dev hash with
  | none => return w.rxDrop
  | some i =>
    let c ← cqAt (w.dev.sq i).cqIdx
    if !(w.dev.cq c).used then return w.rxDrop
    let r ← enaRxCollect w i frame.length
    match r with
    | (w,none) => return w.rxDrop
    | (w,some desc) => enaRxDeliver net w i c frame hash desc

end EnaDevice
