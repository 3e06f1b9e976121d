import EnaDevice.Tx.Drain
import EnaDevice.Tx.Packet

/-! What `ena_tx_xmit` makes of a packet, over all of its exits, and how each of them is counted. -/
namespace EnaDevice
open Bytes Result

/-- The buffers of a packet, one after another; `none` if one of them cannot be read. -/
def World.txBuffers (w : World) : List EnaTxDesc → Option Bytes
  | [] => some []
  | d::ds =>
    match enaDmaRead w d.addr d.len with
    | (true,data) => (w.txBuffers ds).map (data ++ ·)
    | (false,_) => none

namespace EnaTxPkt

/-- Length of the pushed header, from the first data descriptor. -/
def hdrLen (p : EnaTxPkt) : ℕ :=
  match p.desc with
  | [] => 0
  | d::_ => d.hdrLen

/-- The word of the first data descriptor that holds the offload bits. -/
def metaCtrl (p : EnaTxPkt) : UInt32 :=
  match p.desc with
  | [] => 0
  | d::_ => d.metaCtrl

def total (p : EnaTxPkt) : ℕ := p.hdrLen + (p.desc.map EnaTxDesc.len).sum

end EnaTxPkt

/-- The header pushed with the packet at the head; a host queue has none. -/
def World.txPushed (w : World) (i : SqIdx) (p : EnaTxPkt) : Bytes :=
  if (w.dev.sq i).llq then llqBytes w.llq i (w.dev.sq i)
    (w.dev.sq i).head.toNat enaLlqHeaderOff p.hdrLen
  else []

/-- The assembled frame: the pushed header, then the buffers. -/
def World.txAssembled (w : World) (i : SqIdx) (p : EnaTxPkt) : Option Bytes :=
  (w.txBuffers p.desc).map (w.txPushed i p ++ ·)

/-- The pushed header fits its placement, and the packet is not too long. -/
structure TxAdmitted (sq : EnaSq) (p : EnaTxPkt) : Prop where
  host : sq.llq = false → p.hdrLen = 0
  llq : sq.llq = true → p.hdrLen + enaLlqHeaderOff ≤ sq.entrySize.toNat
  max : p.total ≤ enaTxMaxPkt

/-- A frame that the fabric drops: shorter than an Ethernet header, or with a foreign source MAC. -/
def Foreign (s : EnaState) (frame : Bytes) : Prop :=
  frame.length < ethHlen ∨ (frame.drop ethAlen).take ethAlen ≠ List.ofFn s.macaddr

instance (s : EnaState) (frame : Bytes) : Decidable (Foreign s frame) :=
  inferInstanceAs (Decidable (_ ∨ _))

section Frame
variable (net : Net) (buf : Bytes)

/-- The first byte of the L3 header. -/
def ipVhl : UInt8 := u8At buf (net.ethGetL2HdrLength buf)

/-- IPv4, as `ena_tx_frame_protos` sees it. -/
def IsIp4 : Prop :=
  ethHlen + 4 ≤ buf.length ∧ net.ethGetL3Proto buf (net.ethGetL2HdrLength buf) = ethPIp ∧
    net.ethGetL2HdrLength buf + 20 ≤ buf.length ∧ ipVhl net buf >>> 4 = 4 ∧
    20 ≤ ipHdrLen (ipVhl net buf) ∧
    net.ethGetL2HdrLength buf + ipHdrLen (ipVhl net buf) ≤ buf.length

instance : Decidable (IsIp4 net buf) := inferInstanceAs (Decidable (_ ∧ _))

/-- The L4 protocol of the frame, or 0. -/
def l4Proto : UInt8 :=
  if IsIp4 net buf then u8At buf (net.ethGetL2HdrLength buf + 9)
  else if ethHlen + 4 ≤ buf.length ∧ net.ethGetL3Proto buf (net.ethGetL2HdrLength buf) = ethPIpv6 ∧
      net.ethGetL2HdrLength buf + 40 ≤ buf.length then
    u8At buf (net.ethGetL2HdrLength buf + 6)
  else 0

lemma enaTxFrameProtos_eq : enaTxFrameProtos net buf =
    .ok (decide (IsIp4 net buf),l4Proto net buf) := by
  unfold enaTxFrameProtos
  by_cases hlen : buf.length < ethHlen + 4
  · have hno : ¬ IsIp4 net buf := fun h => Nat.not_le.mpr hlen h.1
    rw [if_pos hlen,l4Proto,if_neg hno,if_neg fun h => Nat.not_le.mpr hlen h.1,decide_eq_false hno]
    rfl
  have hmin : ethHlen + 4 ≤ buf.length := Nat.le_of_not_lt hlen
  rw [if_neg hlen,txL2HdrLength_eq net buf hmin,ok_bind]
  by_cases h4 : net.ethGetL3Proto buf (net.ethGetL2HdrLength buf) = ethPIp ∧
      buf.length ≥ net.ethGetL2HdrLength buf + 20
  · have hno6 : ¬ (ethHlen + 4 ≤ buf.length ∧
      net.ethGetL3Proto buf (net.ethGetL2HdrLength buf) = ethPIpv6 ∧
        net.ethGetL2HdrLength buf + 40 ≤ buf.length) := by
      rintro ⟨-,h6,-⟩
      exact absurd (h4.1.symm.trans h6) (by decide)
    rw [if_pos h4,txBufAt_eq buf (by omega),ok_bind]
    by_cases hv : u8At buf (net.ethGetL2HdrLength buf) >>> 4 = 4 ∧
        ipHdrLen (u8At buf (net.ethGetL2HdrLength buf)) ≥ 20 ∧
        buf.length ≥ net.ethGetL2HdrLength buf + ipHdrLen (u8At buf (net.ethGetL2HdrLength buf))
    · have hyes : IsIp4 net buf := ⟨hmin,h4.1,h4.2,hv⟩
      rw [if_pos hv,txBufAt_eq buf (by omega),ok_bind,l4Proto,if_pos hyes,decide_eq_true hyes]
      rfl
    · have hno : ¬ IsIp4 net buf := fun h => hv h.2.2.2
      rw [if_neg hv,l4Proto,if_neg hno,if_neg hno6,decide_eq_false hno]
      rfl
  · have hno : ¬ IsIp4 net buf := fun h => h4 ⟨h.2.1,h.2.2.1⟩
    rw [if_neg h4,l4Proto,if_neg hno,decide_eq_false hno]
    by_cases h6 : net.ethGetL3Proto buf (net.ethGetL2HdrLength buf) = ethPIpv6 ∧
        buf.length ≥ net.ethGetL2HdrLength buf + 40
    · rw [if_pos h6,txBufAt_eq buf (by omega),ok_bind,if_pos ⟨hmin,h6⟩]
      rfl
    · rw [if_neg h6,if_neg fun h => h6 h.2]
      rfl

/-- A frame with two of its bytes replaced. -/
def withBe16 (buf : Bytes) (off : ℕ) (x : UInt16) : Bytes :=
  buf.take off ++ [(x >>> 8).toUInt8,x.toUInt8] ++ buf.drop (off+2)

/-- The frame with the checksum field of its IPv4 header cleared. -/
def ip4Cleared : Bytes := withBe16 buf (net.ethGetL2HdrLength buf + 10) 0

/-- The frame with the checksum of its IPv4 header in place. -/
def ip4Summed : Bytes :=
  withBe16 (ip4Cleared net buf) (net.ethGetL2HdrLength buf + 10) (net.netRawChecksum
    (((ip4Cleared net buf).drop (net.ethGetL2HdrLength buf)).take (ipHdrLen (ipVhl net buf))))

variable {buf}

lemma withBe16_length {off : ℕ} (h : off + 2 ≤ buf.length) (x : UInt16) :
    (withBe16 buf off x).length = buf.length := by
  simp only [withBe16, List.length_append, List.length_take, List.length_drop, List.length_cons,
    List.length_nil]
  omega

/-- The other bytes stay as they are. -/
lemma getElem?_withBe16 {off k : ℕ} (h : off + 2 ≤ buf.length) (x : UInt16)
    (hk : k < off ∨ off + 2 ≤ k) :
    (withBe16 buf off x)[k]? = buf[k]? := by
  unfold withBe16
  rcases hk with hk | hk
  · rw [List.append_assoc,List.getElem?_append_left (by rw [List.length_take]; omega),
      List.getElem?_take_of_lt hk]
  · have hlen : (buf.take off ++ [(x >>> 8).toUInt8,x.toUInt8]).length = off + 2 := by
      rw [List.length_append,List.length_take]
      simp only [List.length_cons, List.length_nil]
      omega
    rw [List.getElem?_append_right (by omega),hlen,List.getElem?_drop]
    congr 1
    omega

lemma u8At_withBe16 {off k : ℕ} (h : off + 2 ≤ buf.length) (x : UInt16)
    (hk : k < off ∨ off + 2 ≤ k) :
    u8At (withBe16 buf off x) k = u8At buf k := by
  rw [u8At,u8At,List.getD_eq_getElem?_getD,List.getD_eq_getElem?_getD,getElem?_withBe16 h x hk]

variable {net}

lemma IsIp4.fits (h : IsIp4 net buf) : net.ethGetL2HdrLength buf + 10 + 2 ≤ buf.length := by
  have hmin := h.2.2.1
  omega

lemma enaTxIp4Csum_eq (h : IsIp4 net buf) : enaTxIp4Csum net buf = .ok (ip4Summed net buf) := by
  have hfits := h.fits
  have hlen := withBe16_length hfits 0
  have hvhl : u8At (withBe16 buf (net.ethGetL2HdrLength buf + 10) 0) (net.ethGetL2HdrLength buf) =
      ipVhl net buf := u8At_withBe16 hfits 0 (.inl (by omega))
  have hbound := h.2.2.2.2.2
  have hput : putBe16 buf (net.ethGetL2HdrLength buf + 10) 0 =
      .ok (withBe16 buf (net.ethGetL2HdrLength buf + 10) 0) := putBe16_eq buf 0 hfits
  unfold enaTxIp4Csum
  rw [txL2HdrLength_eq net buf h.1,ok_bind,hput,ok_bind,txBufAt_eq _ (by omega),ok_bind,hvhl]
  simp only [hlen, hbound, decide_true, check_true, ok_bind]
  exact putBe16_eq _ _ (by rw [hlen]; exact hfits)

end Frame

/-- The offload bits of a packet. -/
def EnaTxPkt.offloads (p : EnaTxPkt) : UInt32 :=
  p.metaCtrl &&& (txTsoEn ||| txL3CsumEn ||| txL4CsumEn)

/-- The offload bits that apply to the frame. -/
def txApplied (net : Net) (offloads : UInt32) (buf : Bytes) : UInt32 :=
  txApplicable offloads (decide (IsIp4 net buf)) (l4Proto net buf)

/-- The frame and the offload bits that are left for the backend. -/
def txPrepared (net : Net) (offloads : UInt32) (buf : Bytes) : Bytes × UInt32 :=
  if offloads &&& txL3CsumEn ≠ 0 ∧ offloads &&& txTsoEn = 0 then
    (ip4Summed net buf,offloads &&& ~~~txL3CsumEn)
  else (buf,offloads)

/-- A frame of the device's own that is not over the MTU, or is a TCP frame to be segmented. -/
structure TxPasses (net : Net) (s : EnaState) (mss : UInt16) (offloads : UInt32) (frame : Bytes) :
    Prop where
  own : ¬ Foreign s frame
  mtu : offloads &&& txTsoEn = 0 → frame.length ≤ (s.mtu + 14 + 4).toNat
  tso : offloads &&& txTsoEn ≠ 0 → mss ≠ 0 ∧ l4Proto net frame = ipProtoTcp

/-- The packet library can work on the frame. -/
def TxParsed (net : Net) (mss : UInt16) (r : Bytes × UInt32) : Prop :=
  net.netTxPktParse r.1 = true ∧ enaTxOffloads net r.1 r.2 mss = true

/-- Every exit of `ena_tx_xmit`. -/
inductive TxResult (net : Net) (w : World) (i : SqIdx) (p : EnaTxPkt) : World → Prop
  /-- the header or the length is out of range -/
  | refused (h : ¬ TxAdmitted (w.dev.sq i) p ∨ p.total = 0) : TxResult net w i p w
  /-- a buffer cannot be read -/
  | unread (ha : TxAdmitted (w.dev.sq i) p) (hb : w.txAssembled i p = none) :
    TxResult net w i p w.txDrop
  | filtered {frame : Bytes} (ha : TxAdmitted (w.dev.sq i) p) (hb : w.txAssembled i p = some frame)
    (hf : Foreign w.dev frame) : TxResult net w i p w
  /-- the frame is over the MTU, or cannot be segmented -/
  | dropped {frame : Bytes} (ha : TxAdmitted (w.dev.sq i) p) (hb : w.txAssembled i p = some frame)
    (hf : ¬ Foreign w.dev frame)
    (hno : ¬ TxPasses net w.dev (w.dev.sq i).txMeta.mss p.offloads frame) :
    TxResult net w i p w.txDrop
  /-- frames without L4 work go out verbatim -/
  | sent {frame : Bytes} {r : Bytes × UInt32} (ha : TxAdmitted (w.dev.sq i) p)
    (hb : w.txAssembled i p = some frame)
    (hp : TxPasses net w.dev (w.dev.sq i).txMeta.mss p.offloads frame)
    (hr : r = txPrepared net (txApplied net p.offloads frame) frame) (hzero : r.2 = 0) :
    TxResult net w i p ((w.emit (.sendPacket r.1)).txCount r.1.length)
  | unparsable {frame : Bytes} {r : Bytes × UInt32} (ha : TxAdmitted (w.dev.sq i) p)
    (hb : w.txAssembled i p = some frame)
    (hp : TxPasses net w.dev (w.dev.sq i).txMeta.mss p.offloads frame)
    (hr : r = txPrepared net (txApplied net p.offloads frame) frame) (hne : r.2 ≠ 0)
    (hbad : ¬ TxParsed net (w.dev.sq i).txMeta.mss r) :
    TxResult net w i p (w.emit (.addRawFragment r.1)).txDrop
  /-- the backend segments or checksums the frame -/
  | offloaded {frame : Bytes} {r : Bytes × UInt32} (ha : TxAdmitted (w.dev.sq i) p)
    (hb : w.txAssembled i p = some frame)
    (hp : TxPasses net w.dev (w.dev.sq i).txMeta.mss p.offloads frame)
    (hr : r = txPrepared net (txApplied net p.offloads frame) frame) (hne : r.2 ≠ 0)
    (hgood : TxParsed net (w.dev.sq i).txMeta.mss r)
    (hsend : net.netTxPktSend r.1 r.2 (w.dev.sq i).txMeta.mss = true) :
    TxResult net w i p (((w.emit (.addRawFragment r.1)).emit
      (.txPktSend r.1 r.2 (w.dev.sq i).txMeta.mss)).txCount (net.netTxPktGetTotalLen r.1))
  | notTaken {frame : Bytes} {r : Bytes × UInt32} (ha : TxAdmitted (w.dev.sq i) p)
    (hb : w.txAssembled i p = some frame)
    (hp : TxPasses net w.dev (w.dev.sq i).txMeta.mss p.offloads frame)
    (hr : r = txPrepared net (txApplied net p.offloads frame) frame) (hne : r.2 ≠ 0)
    (hgood : TxParsed net (w.dev.sq i).txMeta.mss r)
    (hsend : net.netTxPktSend r.1 r.2 (w.dev.sq i).txMeta.mss = false) :
    TxResult net w i p ((w.emit (.addRawFragment r.1)).emit
      (.txPktSend r.1 r.2 (w.dev.sq i).txMeta.mss))

section Xmit
variable {net : Net} {w : World} {i : SqIdx} {p : EnaTxPkt} {E : Fault → Prop}

lemma txBuffers_length {ds : List EnaTxDesc} {data : Bytes} (h : w.txBuffers ds = some data) :
    data.length = (ds.map EnaTxDesc.len).sum := by
  induction ds generalizing data with
  | nil =>
    cases h
    rfl
  | cons d ds ih =>
    have hlen : (enaDmaRead w d.addr d.len).2.length = d.len := Memory.read_length _ _ _
    rw [World.txBuffers] at h
    generalize enaDmaRead w d.addr d.len = r at h hlen
    obtain ⟨_ | _,bytes⟩ := r
    · cases h
    · obtain ⟨rest,hrest,rfl⟩ := Option.map_eq_some_iff.mp h
      rw [List.length_append,hlen,ih hrest,List.map_cons,List.sum_cons]

/-- The copy of the buffers, behind what is there already. -/
lemma enaTxGather_buffers {total : ℕ} (ds : List EnaTxDesc) (buf : Bytes)
    (h : buf.length + (ds.map EnaTxDesc.len).sum = total) :
    enaTxGather w total ds buf = .ok ((w.txBuffers ds).map (buf ++ ·)) := by
  induction ds generalizing buf with
  | nil =>
    rw [enaTxGather,World.txBuffers,Option.map_some,List.append_nil]
    rfl
  | cons d ds ih =>
    rw [List.map_cons,List.sum_cons] at h
    have hfit : buf.length + d.len ≤ total := by omega
    have hlen : (enaDmaRead w d.addr d.len).2.length = d.len := Memory.read_length _ _ _
    rw [enaTxGather,World.txBuffers,decide_eq_true hfit,check_true,ok_bind]
    generalize enaDmaRead w d.addr d.len = r at hlen
    obtain ⟨_ | _,data⟩ := r
    · rfl
    · have hrest : (buf ++ data).length + (ds.map EnaTxDesc.len).sum = total := by
        rw [List.length_append,hlen]
        omega
      refine (ih (buf ++ data) hrest).trans ?_
      rw [Option.map_map]
      congr 2
      funext rest
      exact List.append_assoc buf data rest

/-- The pushed header is read from its place in the entry of the packet. -/
lemma enaTxHeader_eq (hok : (w.dev.sq i).Ok w.dev) (ha : TxAdmitted (w.dev.sq i) p) :
    enaTxHeader w i (w.dev.sq i) p.hdrLen = .ok (w.txPushed i p) := by
  unfold enaTxHeader World.txPushed
  cases hl : (w.dev.sq i).llq with
  | false =>
    rw [if_neg (not_ne_iff.mpr (ha.host hl))]
    rfl
  | true =>
    have hfit : enaLlqHeaderOff + p.hdrLen ≤ (w.dev.sq i).entrySize.toNat := by
      rw [Nat.add_comm]
      exact ha.llq hl
    rw [if_pos rfl]
    split_ifs with hz
    · unfold enaTxLlqHeader
      dsimp only
      rw [Counter.mask hok.depth.pow,
        hok.llqRead hl w i (Nat.mod_lt _ (Counter.depth_pos hok.depth.pow)) hfit]
      rfl
    · rw [not_ne_iff] at hz
      rw [hz]
      rfl

lemma txPushed_length (ha : TxAdmitted (w.dev.sq i) p) : (w.txPushed i p).length = p.hdrLen := by
  unfold World.txPushed
  split_ifs with hl
  · exact List.length_ofFn
  · rw [ha.host (by simpa using hl)]
    rfl

lemma txAssembled_length (ha : TxAdmitted (w.dev.sq i) p) {frame : Bytes}
    (h : w.txAssembled i p = some frame) : frame.length = p.total := by
  obtain ⟨data,hdata,rfl⟩ := Option.map_eq_some_iff.mp h
  rw [List.length_append,txPushed_length ha,txBuffers_length hdata]
  rfl

/-- The checks of the header length, as the code makes them. -/
lemma txAdmitted_iff (hok : (w.dev.sq i).Ok w.dev) (hsmall : p.hdrLen < 256) :
    TxAdmitted (w.dev.sq i) p ↔ ¬ ((!(w.dev.sq i).llq) = true ∧ p.hdrLen ≠ 0) ∧
      ¬ UInt64.ofNat p.hdrLen > (w.dev.sq i).entrySize.toUInt64 - UInt64.ofNat enaLlqHeaderOff ∧
      ¬ p.total > enaTxMaxPkt := by
  have hle : ¬ UInt64.ofNat p.hdrLen >
    (w.dev.sq i).entrySize.toUInt64 - UInt64.ofNat enaLlqHeaderOff ↔
      p.hdrLen ≤ (2^64 - 32 + (w.dev.sq i).entrySize.toNat) % 2^64 := by
    rw [gt_iff_lt,UInt64.not_lt,UInt64.le_iff_toNat_le,UInt64.toNat_sub,UInt16.toNat_toUInt64,
      UInt64.toNat_ofNat',UInt64.toNat_ofNat',Nat.mod_eq_of_lt (by omega : p.hdrLen < 2^64)]
    rfl
  rw [hle]
  cases hl : (w.dev.sq i).llq with
  | false =>
    have he : (w.dev.sq i).entrySize.toNat = 0 := by
      rw [(hok.host hl).2]
      rfl
    rw [he]
    constructor
    · intro h
      exact ⟨fun hno => hno.2 (h.host hl),by omega,Nat.not_lt.mpr h.max⟩
    · rintro ⟨hhost,-,hmax⟩
      refine ⟨fun _ => ?_,fun hl' => absurd (hl.symm.trans hl') Bool.false_ne_true,
        Nat.not_lt.mp hmax⟩
      by_contra hne
      exact hhost ⟨rfl,hne⟩
  | true =>
    have he := hok.entrySize_cases hl
    constructor
    · intro h
      have hfit : p.hdrLen + 32 ≤ (w.dev.sq i).entrySize.toNat := h.llq hl
      exact ⟨fun hno => absurd hno.1 (by decide),by omega,Nat.not_lt.mpr h.max⟩
    · rintro ⟨-,hfit,hmax⟩
      refine ⟨fun hl' => absurd (hl.symm.trans hl').symm Bool.false_ne_true,fun _ => ?_,
        Nat.not_lt.mp hmax⟩
      change p.hdrLen + 32 ≤ (w.dev.sq i).entrySize.toNat
      omega

lemma enaTxL3Csum_eq {offloads : UInt32} {buf : Bytes}
    (h : offloads &&& txL3CsumEn ≠ 0 → IsIp4 net buf) :
    enaTxL3Csum net buf offloads = .ok (txPrepared net offloads buf) := by
  unfold enaTxL3Csum txPrepared
  split_ifs with hl3
  · rw [enaTxIp4Csum_eq (h hl3.1)]
    rfl
  · rfl

lemma enaTxFilter_foreign {buf : Bytes} (h : Foreign w.dev buf) (sq : EnaSq) (metaCtrl : UInt32) :
    enaTxFilter net w sq metaCtrl buf = .ok w := by
  unfold enaTxFilter
  by_cases hlen : buf.length < ethHlen
  · rw [if_pos hlen]
    rfl
  · have hmac : 2*ethAlen ≤ buf.length := le_trans (by decide) (Nat.le_of_not_lt hlen)
    rw [if_neg hlen,decide_eq_true hmac,check_true,ok_bind,if_pos (h.resolve_left hlen)]
    rfl

lemma enaTxFilter_own {buf : Bytes} (h : ¬ Foreign w.dev buf) (sq : EnaSq) (metaCtrl : UInt32) :
    enaTxFilter net w sq metaCtrl buf = enaTxHandOver net w sq metaCtrl buf := by
  obtain ⟨hlen,hown⟩ := not_or.mp h
  have hmac : 2*ethAlen ≤ buf.length := le_trans (by decide) (Nat.le_of_not_lt hlen)
  unfold enaTxFilter
  rw [if_neg hlen,decide_eq_true hmac,check_true,ok_bind,if_neg hown]

/-- The packet gets to its frame, unless a check or a read fails. -/
lemma enaTxXmit_eq (net : Net) (hok : (w.dev.sq i).Ok w.dev) (hp : p.desc ≠ []) :
    (¬ TxAdmitted (w.dev.sq i) p ∨ p.total = 0) ∧ enaTxXmit net w i p = .ok w ∨
      TxAdmitted (w.dev.sq i) p ∧ enaTxXmit net w i p =
        match w.txAssembled i p with
        | none => .ok w.txDrop
        | some frame => enaTxFilter net w (w.dev.sq i) p.metaCtrl frame := by
  obtain ⟨d,ds,hdesc⟩ := List.exists_cons_of_ne_nil hp
  have hhdr : p.hdrLen = d.hdrLen := by rw [EnaTxPkt.hdrLen,hdesc]
  have hctrl : p.metaCtrl = d.metaCtrl := by rw [EnaTxPkt.metaCtrl,hdesc]
  have htotal : d.hdrLen + (p.desc.map EnaTxDesc.len).sum = p.total := by rw [EnaTxPkt.total,hhdr]
  have hadm := txAdmitted_iff hok (hhdr ▸ d.hdrLen_lt)
  rw [hhdr] at hadm
  unfold enaTxXmit
  dsimp only
  rw [hdesc]
  dsimp only
  rw [← hdesc,htotal]
  by_cases h₁ : (!(w.dev.sq i).llq) = true ∧ d.hdrLen ≠ 0
  · rw [if_pos h₁]
    exact .inl ⟨.inl fun ha => (hadm.mp ha).1 h₁,rfl⟩
  by_cases h₂ : UInt64.ofNat d.hdrLen >
    (w.dev.sq i).entrySize.toUInt64 - UInt64.ofNat enaLlqHeaderOff
  · rw [if_neg h₁,if_pos h₂]
    exact .inl ⟨.inl fun ha => (hadm.mp ha).2.1 h₂,rfl⟩
  rw [if_neg h₁,if_neg h₂]
  split_ifs with h₃
  · refine .inl ⟨?_,rfl⟩
    rcases h₃ with hz | hmax
    · exact .inr hz
    · exact .inl fun ha => (hadm.mp ha).2.2 hmax
  · have ha := hadm.mpr ⟨h₁,h₂,(not_or.mp h₃).2⟩
    have hheader := enaTxHeader_eq hok ha
    rw [hhdr] at hheader
    have hlen : (w.txPushed i p).length + (p.desc.map EnaTxDesc.len).sum = p.total := by
      rw [txPushed_length ha]
      rfl
    refine .inr ⟨ha,?_⟩
    rw [hheader,ok_bind,enaTxGather_buffers _ _ hlen,ok_bind,hctrl]
    change (match w.txAssembled i p with
      | none => pure w.txDrop
      | some buf => enaTxFilter net w (w.dev.sq i) d.metaCtrl buf) = _
    rfl

/-- Every run of `ena_tx_xmit` ends at one of its exits. -/
theorem enaTxXmit_result (hok : (w.dev.sq i).Ok w.dev) (hp : p.desc ≠ []) :
    Holds E (TxResult net w i p) (enaTxXmit net w i p) := by
  rcases enaTxXmit_eq net hok hp with ⟨hrefused,heq⟩ | ⟨ha,heq⟩
  · rw [heq]
    exact holds_pure (.refused hrefused)
  rw [heq]
  cases hb : w.txAssembled i p with
  | none => exact holds_pure (.unread ha hb)
  | some frame =>
    dsimp only
    by_cases hf : Foreign w.dev frame
    · rw [enaTxFilter_foreign hf]
      exact holds_pure (.filtered ha hb hf)
    rw [enaTxFilter_own hf]
    unfold enaTxHandOver
    refine holds_ite (fun hover => holds_pure (.dropped ha hb hf fun hpass => ?_)) fun hfits => ?_
    · exact Nat.not_lt.mpr (hpass.mtu hover.1) hover.2
    rw [enaTxFrameProtos_eq,ok_bind]
    dsimp only
    refine holds_ite (fun htso => holds_pure (.dropped ha hb hf fun hpass => ?_)) fun htso => ?_
    · have hgood := hpass.tso htso.1
      rcases htso.2 with hz | hl4
      · exact hgood.1 hz
      · exact hl4 hgood.2
    have hpass : TxPasses net w.dev (w.dev.sq i).txMeta.mss p.offloads frame := by
      refine ⟨hf,fun hno => Nat.not_lt.mp fun hlt => hfits ⟨hno,hlt⟩,fun hyes => ?_⟩
      have hgood := not_or.mp fun h => htso ⟨hyes,h⟩
      exact ⟨hgood.1,not_ne_iff.mp hgood.2⟩
    change Holds E _ (enaTxL3Csum net frame (txApplied net p.offloads frame) >>= _)
    have hl3 : txApplied net p.offloads frame &&& txL3CsumEn ≠ 0 → IsIp4 net frame := fun h =>
      of_decide_eq_true (txApplicable_l3 h)
    rw [enaTxL3Csum_eq hl3,ok_bind]
    refine holds_pure ?_
    generalize hr : txPrepared net (txApplied net p.offloads frame) frame = r
    unfold enaTxSend
    split_ifs with hzero hbad hsend
    · exact .sent ha hb hpass hr.symm hzero
    · refine .unparsable ha hb hpass hr.symm hzero fun hgood => ?_
      rcases hbad with hno | hno
      · rw [hgood.1] at hno
        cases hno
      · rw [hgood.2] at hno
        cases hno
    · have hgood := not_or.mp hbad
      exact .offloaded ha hb hpass hr.symm hzero ⟨by simpa using hgood.1,by simpa using hgood.2⟩
        hsend
    · have hgood := not_or.mp hbad
      exact .notTaken ha hb hpass hr.symm hzero ⟨by simpa using hgood.1,by simpa using hgood.2⟩
        (by simpa using hsend)

/-- A frame that passes the checks is handed to the backend. -/
lemma TxResult.passed {w' : World} {frame : Bytes} (h : TxResult net w i p w')
    (ha : TxAdmitted (w.dev.sq i) p) (hb : w.txAssembled i p = some frame)
    (hp : TxPasses net w.dev (w.dev.sq i).txMeta.mss p.offloads frame) :
    w' = enaTxSend net w (w.dev.sq i).txMeta.mss
      (txPrepared net (txApplied net p.offloads frame) frame).1
      (txPrepared net (txApplied net p.offloads frame) frame).2 := by
  have hmin := Nat.not_lt.mp (not_or.mp hp.own).1
  cases h with
  | refused hrefused =>
    rcases hrefused with hno | hz
    · exact absurd ha hno
    · rw [txAssembled_length ha hb,hz] at hmin
      exact absurd hmin (by decide)
  | unread _ hnone => cases hb.symm.trans hnone
  | filtered _ hb' hf =>
    cases hb.symm.trans hb'
    exact absurd hf hp.own
  | dropped _ hb' _ hno =>
    cases hb.symm.trans hb'
    exact absurd hp hno
  | sent _ hb' _ hr hzero =>
    cases hb.symm.trans hb'
    rw [← hr,enaTxSend,if_pos hzero]
  | unparsable _ hb' _ hr hne hbad =>
    cases hb.symm.trans hb'
    rw [← hr,enaTxSend,if_neg hne]
    refine (if_pos ?_).symm
    by_contra hgood
    simp only [not_or, Bool.not_eq_true, Bool.not_eq_false'] at hgood
    exact hbad hgood
  | offloaded _ hb' _ hr hne hgood hsend =>
    cases hb.symm.trans hb'
    rw [← hr,enaTxSend,if_neg hne]
    dsimp only
    rw [if_neg (by simp [hgood.1,hgood.2]),if_pos hsend]
  | notTaken _ hb' _ hr hne hgood hsend =>
    cases hb.symm.trans hb'
    rw [← hr,enaTxSend,if_neg hne]
    dsimp only
    rw [if_neg (by simp [hgood.1,hgood.2]),if_neg (by simp [hsend])]

end Xmit

/-- A packet that was parsed is transmitted with its meta descriptor cached; then the head moves,
and the completion is written if there is one. -/
inductive TxProcessed (net : Net) (i : SqIdx) (p : EnaTxPkt) (w : World) : World → Prop
  | taken {w₁ : World} (n : ℕ) (h : TxResult net (w.withMeta i p) i p w₁) :
    TxProcessed net i p w (w₁.txTaken i n)
  | completed {w₁ : World} (n : ℕ) (h : TxResult net (w.withMeta i p) i p w₁) (c : CqIdx)
    (reqId : UInt16) : TxProcessed net i p w ((w₁.txTaken i n).txCompleted i c reqId)

/-- One iteration of the loop for a packet that parses, at any point of a doorbell in a reachable
state. -/
structure TxPacketStep (net : Net) (i : SqIdx) (p : EnaTxPkt) (w w' : World) : Prop where
  start : ∃ w₀ val n, Reachable net w₀ ∧ (w₀.dev.sq i).used = true ∧ (w₀.dev.sq i).isTx = true ∧
    val.toUInt32.toUInt16 - (w₀.dev.sq i).head ≤ (w₀.dev.sq i).depth ∧
    TxIterates net i n (w₀.rung i val) w
  parse : enaTxParse w i = .ok (some p)
  step : enaTxDoorbellStep net w i = .ok w'

/-- The packet is one that the fabric filter removes. -/
def TxFiltered (w : World) (i : SqIdx) (p : EnaTxPkt) : Prop :=
  ∃ frame, w.txAssembled i p = some frame ∧ Foreign w.dev frame

/-- The packet gets to `net_tx_pkt_send`, and the backend does not take it. -/
def TxNotTaken (net : Net) (w : World) (i : SqIdx) (p : EnaTxPkt) : Prop :=
  ∃ frame r, w.txAssembled i p = some frame ∧
    TxPasses net w.dev (w.dev.sq i).txMeta.mss p.offloads frame ∧
    r = txPrepared net (txApplied net p.offloads frame) frame ∧ r.2 ≠ 0 ∧
    TxParsed net (w.dev.sq i).txMeta.mss r ∧
    net.netTxPktSend r.1 r.2 (w.dev.sq i).txMeta.mss = false

/-- Exactly one of the counters of packets and drops goes up by one, and bytes only with packets; a
filtered packet changes nothing. -/
structure TxAccounted (removed : Prop) (s s' : EnaState) : Prop where
  filtered : removed → s'.txPkts = s.txPkts ∧ s'.txDrops = s.txDrops
  counted : ¬ removed → (s'.txPkts = s.txPkts + 1 ∧ s'.txDrops = s.txDrops) ∨
    (s'.txPkts = s.txPkts ∧ s'.txDrops = s.txDrops + 1)
  bytes : s'.txPkts = s.txPkts → s'.txBytes = s.txBytes

section Doorbell
variable {net : Net} {w w' : World} {i : SqIdx} {p : EnaTxPkt}

lemma withMeta_ok (hok : (w.dev.sq i).Ok w.dev) (p : EnaTxPkt) :
    ((w.withMeta i p).dev.sq i).Ok (w.withMeta i p).dev := by
  obtain ⟨m,hm⟩ := withMeta_eq w i p
  rw [hm,World.setSq_sq]
  exact EnaSq.Ok.of_eq_cq (s := w.dev) ⟨hok.depth,hok.cq,hok.count,hok.llq,hok.host⟩ rfl

lemma txBuffers_congr (hmem : w'.mem = w.mem) (ds : List EnaTxDesc) :
    w'.txBuffers ds = w.txBuffers ds := by
  induction ds with
  | nil => rfl
  | cons d ds ih => rw [World.txBuffers,World.txBuffers,ih,enaDmaRead,enaDmaRead,hmem]

/-- Caching the meta descriptor changes nothing that the frame is made from. -/
lemma withMeta_frame (w : World) (i : SqIdx) (p : EnaTxPkt) :
    (w.withMeta i p).txAssembled i p = w.txAssembled i p ∧
      (TxAdmitted ((w.withMeta i p).dev.sq i) p ↔ TxAdmitted (w.dev.sq i) p) := by
  obtain ⟨m,hm⟩ := withMeta_eq w i p
  have hsq := World.setSq_sq w i { w.dev.sq i with txMeta := m }
  have hpushed : (w.setSq i { w.dev.sq i with txMeta := m }).txPushed i p = w.txPushed i p := by
    unfold World.txPushed
    rw [hsq]
    rfl
  have hmem : (w.setSq i { w.dev.sq i with txMeta := m }).mem = w.mem := rfl
  have hbufs : (w.setSq i { w.dev.sq i with txMeta := m }).txBuffers p.desc = w.txBuffers p.desc :=
    txBuffers_congr hmem p.desc
  rw [hm]
  refine ⟨?_,?_⟩
  · rw [World.txAssembled,World.txAssembled,hpushed,hbufs]
  · rw [hsq]
    exact ⟨fun h => ⟨h.host,h.llq,h.max⟩,fun h => ⟨h.host,h.llq,h.max⟩⟩

/-- An iteration over a packet that parses. -/
lemma enaTxDoorbellStep_processed (hw : TableInv w.dev) (hu : (w.dev.sq i).used = true)
    (hp : enaTxParse w i = .ok (some p)) (h : enaTxDoorbellStep net w i = .ok w') :
    TxProcessed net i p w w' := by
  have hok := hw.sq i hu
  have hpkt := hok.txPkt hp
  obtain ⟨d,ds,hdesc⟩ := List.exists_cons_of_ne_nil hpkt.desc
  unfold enaTxDoorbellStep at h
  rw [hp,ok_bind] at h
  dsimp only at h
  rw [hdesc] at h
  dsimp only at h
  change enaTxXmit net (w.withMeta i p) i p >>= _ = .ok w' at h
  obtain ⟨w₁,hxmit,hrest⟩ := bind_eq_ok.mp h
  have hresult := (enaTxXmit_result (E := fun _ => True) (withMeta_ok hok p) hpkt.desc).of_ok hxmit
  obtain ⟨n,-,hend⟩ := bind_eq_ok.mp hrest
  change (if d.compReq then enaTxComplete (w₁.txTaken i n) i d.reqId else pure (w₁.txTaken i n)) =
    _ at hend
  split_ifs at hend with hreq
  · unfold enaTxComplete at hend
    obtain ⟨c,-,hcheck⟩ := bind_eq_ok.mp hend
    obtain ⟨-,-,hpush⟩ := bind_eq_ok.mp hcheck
    obtain ⟨w₂,hpushed,hintr⟩ := bind_eq_ok.mp hpush
    cases hintr
    rw [cqPushed_of_ok hpushed]
    exact .completed n hresult c d.reqId
  · cases hend
    exact .taken n hresult

/-- The state in the middle of a doorbell is well formed. -/
lemma TxIterates.tables {n : ℕ} (h : TxIterates net i n w w') (hw : TableInv w.dev)
    (hu : (w.dev.sq i).used = true) (htx : (w.dev.sq i).isTx = true) :
    TableInv w'.dev ∧ (w'.dev.sq i).used = true ∧ (w'.dev.sq i).isTx = true := by
  induction h with
  | done w => exact ⟨hw,hu,htx⟩
  | @next n w w₁ w' hiter _ ih =>
    have hcases := (enaTxDoorbellStep_cases (E := fun _ => True) net hw hu).of_ok hiter.step
    have hpath : Path w (.regWrite (regSqDbBase + 4*i.val) 0) w w₁ :=
      hcases.path w hw htx (doorbell_regWrite i 0)
    obtain ⟨_,_,hsq⟩ := hcases.sq
    exact ih (hpath.tableInv hw) (by rw [hsq]; exact hu) (by rw [hsq]; exact htx)

lemma TxPacketStep.tables (h : TxPacketStep net i p w w') :
    TableInv w.dev ∧ (w.dev.sq i).used = true ∧ (w.dev.sq i).isTx = true := by
  obtain ⟨w₀,val,n,hreach,hu,htx,hval,hiter⟩ := h.start
  have hsq := rung_sq w₀ i val
  exact hiter.tables (rung_tables hreach.tables.1 hval) (by rw [hsq]; exact hu)
    (by rw [hsq]; exact htx)

lemma TxPacketStep.processed (h : TxPacketStep net i p w w') : TxProcessed net i p w w' :=
  enaTxDoorbellStep_processed h.tables.1 h.tables.2.1 h.parse h.step

/-- Moving the head and completing do not count. -/
lemma TxProcessed.result (h : TxProcessed net i p w w') :
    ∃ w₁, TxResult net (w.withMeta i p) i p w₁ ∧ w'.dev.txPkts = w₁.dev.txPkts ∧
      w'.dev.txDrops = w₁.dev.txDrops ∧ w'.dev.txBytes = w₁.dev.txBytes := by
  cases h with
  | @taken w₁ n hr => exact ⟨w₁,hr,rfl,rfl,rfl⟩
  | @completed w₁ n hr c reqId =>
    have hintr := (irqOnly_cqIntr ((w₁.txTaken i n).cqPushed c
      (txCdesc ((w₁.txTaken i n).dev.cq c).phase reqId
      (UInt16.ofNat i) ((w₁.txTaken i n).dev.sq i).head)) c true).dev
    refine ⟨w₁,hr,?_,?_,?_⟩ <;> rw [World.txCompleted,hintr] <;> rfl

lemma withMeta_counters (w : World) (i : SqIdx) (p : EnaTxPkt) :
    (w.withMeta i p).dev.txPkts = w.dev.txPkts ∧ (w.withMeta i p).dev.txDrops = w.dev.txDrops ∧
      (w.withMeta i p).dev.txBytes = w.dev.txBytes := by
  unfold World.withMeta
  split_ifs <;> exact ⟨rfl,rfl,rfl⟩

/-- An empty packet has an empty frame, which is filtered. -/
lemma txFiltered_of_empty (h : p.total = 0) : TxFiltered w i p := by
  obtain ⟨hhdr,hlens⟩ := Nat.add_eq_zero_iff.mp h
  have hbufs : ∀ ds : List EnaTxDesc, (ds.map EnaTxDesc.len).sum = 0 →
      w.txBuffers ds = some [] := by
    intro ds
    induction ds with
    | nil => exact fun _ => rfl
    | cons d ds ih =>
      intro hz
      rw [List.map_cons,List.sum_cons,Nat.add_eq_zero_iff] at hz
      rw [World.txBuffers,hz.1,ih hz.2]
      rfl
  have hpushed : w.txPushed i p = [] := by
    rw [World.txPushed,hhdr]
    split_ifs <;> rfl
  refine ⟨[],?_,.inl (by decide)⟩
  rw [World.txAssembled,hbufs _ hlens,hpushed]
  rfl

lemma not_txFiltered {frame : Bytes} (hb : w.txAssembled i p = some frame)
    (hf : ¬ Foreign w.dev frame) :
    ¬ TxFiltered w i p := by
  rintro ⟨frame',hb',hf'⟩
  cases hb.symm.trans hb'
  exact hf hf'

lemma succ_ne_self (x : UInt64) : x ≠ x + 1 := by grind

/-- Whether the backend took the packet depends on the frame that was assembled. -/
lemma txNotTaken_iff {frame : Bytes} (hb : w.txAssembled i p = some frame) :
    TxNotTaken net w i p ↔ TxPasses net w.dev (w.dev.sq i).txMeta.mss p.offloads frame ∧
      (txPrepared net (txApplied net p.offloads frame) frame).2 ≠ 0 ∧
      TxParsed net (w.dev.sq i).txMeta.mss (txPrepared net (txApplied net p.offloads frame) frame) ∧
      net.netTxPktSend (txPrepared net (txApplied net p.offloads frame) frame).1
        (txPrepared net (txApplied net p.offloads frame) frame).2 (w.dev.sq i).txMeta.mss =
          false := by
  constructor
  · rintro ⟨frame',r,hb',hp,rfl,hrest⟩
    cases hb.symm.trans hb'
    exact ⟨hp,hrest⟩
  · rintro ⟨hp,hrest⟩
    exact ⟨frame,_,hb,hp,rfl,hrest⟩

lemma txAccounted_same {s s' : EnaState} {removed : Prop} (hpkts : s'.txPkts = s.txPkts)
    (hdrops : s'.txDrops = s.txDrops) (hbytes : s'.txBytes = s.txBytes) :
    TxAccounted removed s s' ↔ removed := by
  constructor
  · intro ha
    by_contra hno
    rcases ha.counted hno with hc | hc
    · exact succ_ne_self _ (hpkts.symm.trans hc.1)
    · exact succ_ne_self _ (hdrops.symm.trans hc.2)
  · intro hf
    exact ⟨fun _ => ⟨hpkts,hdrops⟩,fun hno => absurd hf hno,fun _ => hbytes⟩

lemma txAccounted_drop {s s' : EnaState} {removed : Prop} (hno : ¬ removed)
    (hpkts : s'.txPkts = s.txPkts) (hdrops : s'.txDrops = s.txDrops + 1)
    (hbytes : s'.txBytes = s.txBytes) : TxAccounted removed s s' :=
  ⟨fun hf => absurd hf hno,fun _ => .inr ⟨hpkts,hdrops⟩,fun _ => hbytes⟩

lemma txAccounted_sent {s s' : EnaState} {removed : Prop} (hno : ¬ removed)
    (hpkts : s'.txPkts = s.txPkts + 1) (hdrops : s'.txDrops = s.txDrops) :
    TxAccounted removed s s' :=
  ⟨fun hf => absurd hf hno,fun _ => .inl ⟨hpkts,hdrops⟩,
    fun he => absurd (he.symm.trans hpkts) (succ_ne_self _)⟩

/-- A packet is accounted for unless the device refuses it without counting or the backend does. -/
lemma TxResult.accounted (h : TxResult net w i p w') :
    TxAccounted (TxFiltered w i p) w.dev w'.dev ↔
      TxFiltered w i p ∨ TxAdmitted (w.dev.sq i) p ∧ ¬ TxNotTaken net w i p := by
  cases h with
  | refused hrefused =>
    rw [txAccounted_same rfl rfl rfl]
    refine ⟨.inl,fun hor => hor.elim id fun hadm => ?_⟩
    exact txFiltered_of_empty (hrefused.resolve_left (not_not.mpr hadm.1))
  | unread ha hb =>
    have hno : ¬ TxFiltered w i p := by
      rintro ⟨frame,hb',-⟩
      cases hb.symm.trans hb'
    refine iff_of_true (txAccounted_drop hno rfl rfl rfl) (.inr ⟨ha,?_⟩)
    rintro ⟨frame,r,hb',-⟩
    cases hb.symm.trans hb'
  | @filtered frame ha hb hf =>
    have hyes : TxFiltered w i p := ⟨frame,hb,hf⟩
    rw [txAccounted_same rfl rfl rfl]
    exact iff_of_true hyes (.inl hyes)
  | dropped ha hb hf hno =>
    refine iff_of_true (txAccounted_drop (not_txFiltered hb hf) rfl rfl rfl) (.inr ⟨ha,?_⟩)
    rw [txNotTaken_iff hb]
    exact fun hn => hno hn.1
  | sent ha hb hp hr hzero =>
    subst hr
    refine iff_of_true (txAccounted_sent (not_txFiltered hb hp.own) rfl rfl) (.inr ⟨ha,?_⟩)
    rw [txNotTaken_iff hb]
    exact fun hn => hn.2.1 hzero
  | unparsable ha hb hp hr hne hbad =>
    subst hr
    refine iff_of_true (txAccounted_drop (not_txFiltered hb hp.own) rfl rfl rfl) (.inr ⟨ha,?_⟩)
    rw [txNotTaken_iff hb]
    exact fun hn => hbad hn.2.2.1
  | offloaded ha hb hp hr hne hgood hsend =>
    subst hr
    refine iff_of_true (txAccounted_sent (not_txFiltered hb hp.own) rfl rfl) (.inr ⟨ha,?_⟩)
    rw [txNotTaken_iff hb]
    intro hn
    rw [hsend] at hn
    cases hn.2.2.2
  | notTaken ha hb hp hr hne hgood hsend =>
    subst hr
    have hno := not_txFiltered hb hp.own
    change TxAccounted (TxFiltered w i p) w.dev w.dev ↔ _
    rw [txAccounted_same rfl rfl rfl]
    refine iff_of_false hno fun hor => hor.elim hno fun hadm => hadm.2 ?_
    exact (txNotTaken_iff hb).mpr ⟨hp,hne,hgood,hsend⟩

/-- Every packet that parses, in every reachable state, is counted once or filtered exactly if the
device neither refuses it for its header or length nor fails to hand it to the backend. -/
theorem tx_accounting_iff (h : TxPacketStep net i p w w') :
    TxAccounted (TxFiltered (w.withMeta i p) i p) w.dev w'.dev ↔
      TxFiltered (w.withMeta i p) i p ∨
        TxAdmitted ((w.withMeta i p).dev.sq i) p ∧ ¬ TxNotTaken net (w.withMeta i p) i p := by
  obtain ⟨w₁,hresult,hpkts,hdrops,hbytes⟩ := h.processed.result
  obtain ⟨hpkts₀,hdrops₀,hbytes₀⟩ := withMeta_counters w i p
  rw [← hresult.accounted]
  have hsame : ∀ {removed : Prop}, TxAccounted removed w.dev w'.dev ↔
      TxAccounted removed (w.withMeta i p).dev w₁.dev := by
    intro removed
    constructor
    · rintro ⟨hf,hc,hb⟩
      rw [hpkts,hdrops,← hpkts₀,← hdrops₀] at hf hc
      rw [hpkts,hbytes,← hpkts₀,← hbytes₀] at hb
      exact ⟨hf,hc,hb⟩
    · rintro ⟨hf,hc,hb⟩
      rw [← hpkts,← hdrops,hpkts₀,hdrops₀] at hf hc
      rw [← hpkts,← hbytes,hpkts₀,hbytes₀] at hb
      exact ⟨hf,hc,hb⟩
  exact hsame

/-- A frame from the device's own MAC. -/
def ownFrame : Bytes := List.replicate 6 0xff ++ List.replicate 6 2 ++ [0x88,0xb5]

/-- Its descriptor, with the given header length. -/
def ownDesc (hdrLen : UInt32) : EnaTxDesc := ⟨0x1c01000e,0x01400000,0x5000,hdrLen <<< 24⟩

def EnaTxDesc.bytes (d : EnaTxDesc) : Bytes :=
  ofLe32 d.lenCtrl ++ ofLe32 d.metaCtrl ++ ofLe32 d.buffAddrLo ++ ofLe32 d.buffAddrHiHdrSz

/-- The driver of one host TX queue with one descriptor, whose buffer is at 0x5000. -/
def oneDescSetup (d : EnaTxDesc) (frame : Bytes) : List Input :=
  driverSetup [createCqCmd,createSqCmd sqIdentityTx] [(0x4000,d.bytes),(0x5000,frame)]

/-- The packet of a descriptor. -/
def oneDescPkt (d : EnaTxDesc) : EnaTxPkt := ⟨[d],1,false,EnaTxMeta.zero⟩

/-- What is there when the doorbell for the descriptor is rung, with a test of the world behind
it. -/
def oneDescRung (net : Net) (d : EnaTxDesc) (frame : Bytes) (after : World → Bool) (w : World) :
    Bool :=
  (w.dev.sq 0).used && (w.dev.sq 0).isTx && !(w.dev.sq 0).llq &&
    decide ((1 : UInt64).toUInt32.toUInt16 - (w.dev.sq 0).head ≤ (w.dev.sq 0).depth) &&
    okAnd (· == some (oneDescPkt d)) (enaTxParse (w.rung 0 1) 0) &&
    (w.rung 0 1).txAssembled 0 (oneDescPkt d) == some frame && decide (¬ Foreign w.dev frame) &&
    w.dev.txPkts == 0 && w.dev.txDrops == 0 && okAnd after (enaTxDoorbellStep net (w.rung 0 1) 0)

/-- One packet of a host queue, with its frame. -/
structure OneDesc (net : Net) (d : EnaTxDesc) (frame : Bytes) (w w' : World) : Prop where
  packet : TxPacketStep net 0 (oneDescPkt d) w w'
  host : (w.dev.sq 0).llq = false
  assembled : w.txAssembled 0 (oneDescPkt d) = some frame
  own : ¬ Foreign w.dev frame
  txPkts : w.dev.txPkts = 0
  txDrops : w.dev.txDrops = 0

lemma oneDescRung_step {net : Net} {d : EnaTxDesc} {frame : Bytes} {after : World → Bool}
    {w : World} (hrun : run net freshWorld (oneDescSetup d frame) = .ok w)
    (h : oneDescRung net d frame after w = true) :
    ∃ w', OneDesc net d frame (w.rung 0 1) w' ∧ after w' = true := by
  simp only [oneDescRung, Bool.and_eq_true, decide_eq_true_eq, Bool.not_eq_true', beq_iff_eq] at h
  obtain ⟨⟨⟨⟨⟨⟨⟨⟨⟨hu,htx⟩,hhost⟩,hval⟩,hparse⟩,hframe⟩,hown⟩,hpkts⟩,hdrops⟩,hstep⟩ := h
  obtain ⟨o,hparse,ho⟩ := exists_of_okAnd hparse
  obtain ⟨w',hstep,hafter⟩ := exists_of_okAnd hstep
  rw [beq_iff_eq] at ho
  subst ho
  refine ⟨w',⟨⟨⟨w,1,0,reachable_of_run hrun,hu,htx,hval,.done _⟩,hparse,hstep⟩,?_,hframe,hown,hpkts,
    hdrops⟩,hafter⟩
  rw [rung_sq]
  exact hhost

lemma OneDesc.admitted {net : Net} {d : EnaTxDesc} {frame : Bytes} {w w' : World}
    (h : OneDesc net d frame w w') (hhdr : d.hdrLen = 0) : TxAdmitted (w.dev.sq 0)
    (oneDescPkt d) := by
  refine ⟨fun _ => hhdr,fun hl => absurd (h.host.symm.trans hl) Bool.false_ne_true,?_⟩
  have hlen : d.len ≤ 65535 := by
    unfold EnaTxDesc.len
    rw [UInt32.toNat_and]
    exact Nat.and_le_right
  change d.hdrLen + (d.len + 0) ≤ 65760
  omega

/-- A frame without a pushed header is counted as sent. -/
theorem tx_accounting_sent :
    ∃ w w', TxPacketStep Net.nonIp 0 (oneDescPkt (ownDesc 0)) w w' ∧
      TxAccounted (TxFiltered (w.withMeta 0 (oneDescPkt (ownDesc 0))) 0 (oneDescPkt (ownDesc 0)))
        w.dev w'.dev ∧ w'.dev.txPkts = 1 := by
  obtain ⟨w,hrun,hw⟩ := exists_of_okAnd
    (p := oneDescRung Net.nonIp (ownDesc 0) ownFrame fun w' => w'.dev.txPkts == 1)
    (x := run Net.nonIp freshWorld (oneDescSetup (ownDesc 0) ownFrame)) (by decide +kernel)
  obtain ⟨w',h,hpkts⟩ := oneDescRung_step hrun hw
  refine ⟨_,w',h.packet,(tx_accounting_iff h.packet).mpr (.inr ⟨h.admitted (by decide),?_⟩),
    beq_iff_eq.mp hpkts⟩
  rintro ⟨frame,r,-,-,rfl,hne,-⟩
  have hzero : (oneDescPkt (ownDesc 0)).offloads = 0 := by decide
  rw [hzero] at hne
  simp [txApplied,txApplicable,txPrepared] at hne

/-- A header length on a host queue makes the device refuse the packet; no counter shows it, though
the frame is not one that the filter removes. -/
theorem tx_refusal_not_accounted :
    ∃ w w', TxPacketStep Net.nonIp 0 (oneDescPkt (ownDesc 1)) w w' ∧
      ¬ TxFiltered (w.withMeta 0 (oneDescPkt (ownDesc 1))) 0 (oneDescPkt (ownDesc 1)) ∧
      ¬ TxAccounted (TxFiltered (w.withMeta 0 (oneDescPkt (ownDesc 1))) 0 (oneDescPkt (ownDesc 1)))
        w.dev w'.dev := by
  obtain ⟨w,hrun,hw⟩ := exists_of_okAnd
    (p := oneDescRung Net.nonIp (ownDesc 1) ownFrame fun w' =>
      w'.dev.txPkts == 0 && w'.dev.txDrops == 0)
    (x := run Net.nonIp freshWorld (oneDescSetup (ownDesc 1) ownFrame)) (by decide +kernel)
  obtain ⟨w',h,hcount⟩ := oneDescRung_step hrun hw
  simp only [Bool.and_eq_true, beq_iff_eq] at hcount
  have hno : ¬ TxFiltered (w.rung 0 1) 0 (oneDescPkt (ownDesc 1)) :=
    not_txFiltered h.assembled h.own
  refine ⟨_,w',h.packet,hno,fun ha => ?_⟩
  have hcounted := ha.counted hno
  rw [h.txPkts,h.txDrops,hcount.1,hcount.2] at hcounted
  rcases hcounted with hc | hc
  · exact absurd hc.1 (by decide)
  · exact absurd hc.2 (by decide)

end Doorbell
end EnaDevice
