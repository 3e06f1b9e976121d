import EnaDevice.Cq.Push

/-! A TX doorbell stays within its buffers and its queue: every access that `ena_tx_doorbell`
makes is in range, and what it does is a sequence of elementary effects. -/
namespace EnaDevice
open Bytes Result Relation

/-- LLQ entry of a slot and offset in the entry, relative to the first entry of the packet. -/
def EnaSq.llqLine (sq : EnaSq) (slot : ℕ) : ℕ :=
  if slot < enaLlqDescsBeforeHeader then 0
  else 1 + (slot - enaLlqDescsBeforeHeader)/(sq.entrySize.toNat/EnaTxDesc.size)

def EnaSq.llqOff (sq : EnaSq) (slot : ℕ) : ℕ :=
  if slot < enaLlqDescsBeforeHeader then slot*EnaTxDesc.size
  else (slot - enaLlqDescsBeforeHeader)%(sq.entrySize.toNat/EnaTxDesc.size)*EnaTxDesc.size

/-- Ring entry of a slot of the packet at the head. -/
def EnaSq.slotPos (sq : EnaSq) (slot : ℕ) : ℕ := if sq.llq then sq.llqLine slot else slot

section Slots
variable {s : EnaState} {sq : EnaSq} {E : Fault → Prop}

lemma EnaSq.Ok.entrySize_cases (h : sq.Ok s) (hl : sq.llq = true) :
    sq.entrySize.toNat = 128 ∨ sq.entrySize.toNat = 256 := by
  rcases (h.llq hl).2.1 with he | he
  · exact .inl (by rw [he]; rfl)
  · exact .inr (by rw [he]; rfl)

lemma EnaSq.Ok.llqDescsPerEntry (h : sq.Ok s) (hl : sq.llq = true) :
    enaLlqDescsPerEntry sq = .ok (sq.entrySize.toNat/EnaTxDesc.size) := by
  unfold enaLlqDescsPerEntry
  rcases h.entrySize_cases hl with he | he <;> rw [he] <;> rfl

lemma EnaSq.Ok.llqSlotLine (h : sq.Ok s) (hl : sq.llq = true) (slot : ℕ) :
    enaLlqSlotLine sq slot = .ok (sq.llqLine slot) := by
  unfold enaLlqSlotLine EnaSq.llqLine
  split_ifs
  · rfl
  · rw [h.llqDescsPerEntry hl]
    rfl

lemma EnaSq.Ok.llqSlotOff (h : sq.Ok s) (hl : sq.llq = true) (slot : ℕ) :
    enaLlqSlotOff sq slot = .ok (sq.llqOff slot) := by
  unfold enaLlqSlotOff EnaSq.llqOff
  split_ifs
  · rfl
  · rw [h.llqDescsPerEntry hl]
    rfl

/-- A descriptor does not straddle two LLQ entries. -/
lemma EnaSq.Ok.llqOff_le (h : sq.Ok s) (hl : sq.llq = true) (slot : ℕ) :
    sq.llqOff slot + EnaTxDesc.size ≤ sq.entrySize.toNat := by
  unfold EnaSq.llqOff
  rcases h.entrySize_cases hl with he | he <;> rw [he] <;> split_ifs <;>
    simp only [EnaTxDesc.size, enaLlqDescsBeforeHeader] at * <;> omega

lemma EnaSq.Ok.txSlotPosted (h : sq.Ok s) (slot : ℕ) (avail : UInt16) :
    enaTxSlotPosted sq slot avail = .ok (decide (sq.slotPos slot < avail.toNat)) := by
  unfold enaTxSlotPosted EnaSq.slotPos
  by_cases hl : sq.llq = true
  · simp only [hl, if_true, h.llqSlotLine hl, ok_bind]
    rfl
  · simp only [hl, Bool.false_eq_true, if_false]
    rfl

lemma EnaSq.Ok.txPktEntries (h : sq.Ok s) {slots : ℕ} (hpos : 0 < slots) :
    enaTxPktEntries sq slots = .ok (sq.slotPos (slots-1) + 1) := by
  unfold enaTxPktEntries EnaSq.slotPos
  simp only [hpos, decide_true, check_true, ok_bind]
  by_cases hl : sq.llq = true
  · simp only [hl, if_true, h.llqSlotLine hl, ok_bind]
    rfl
  · simp only [hl, Bool.false_eq_true, if_false]
    rw [Nat.sub_add_cancel hpos]
    rfl

/-- The bytes of an entry of an LLQ ring lie in the memory of the BAR. -/
lemma EnaSq.Ok.llqRead (h : sq.Ok s) (hl : sq.llq = true) (w : World) (i : SqIdx) {line off len : ℕ}
    (hline : line < sq.depth.toNat) (hoff : off + len ≤ sq.entrySize.toNat) :
    enaLlqRead w i sq (line*sq.entrySize.toNat + off) len =
      .ok (List.ofFn fun j : Fin len =>
        w.llq (i.val*enaLlqQueueBytes + (line*sq.entrySize.toNat + off) + j)) := by
  have hfit : line*sq.entrySize.toNat + sq.entrySize.toNat ≤ enaLlqQueueBytes := by
    rw [← Nat.succ_mul]
    exact (Nat.mul_le_mul_right _ hline).trans (h.llq hl).2.2
  have hslice : i.val*enaLlqQueueBytes + enaLlqQueueBytes ≤ enaMemBarSize := by
    have hi := i.isLt
    simp only [enaMemBarSize, enaLlqQueueBytes]
    omega
  have hbound : i.val*enaLlqQueueBytes + (line*sq.entrySize.toNat + off) + len ≤ enaMemBarSize :=
    calc i.val*enaLlqQueueBytes + (line*sq.entrySize.toNat + off) + len
        = i.val*enaLlqQueueBytes + (line*sq.entrySize.toNat + (off + len)) := by
          rw [Nat.add_assoc,Nat.add_assoc]
      _ ≤ i.val*enaLlqQueueBytes + enaLlqQueueBytes :=
          Nat.add_le_add_left ((Nat.add_le_add_left hoff _).trans hfit) _
      _ ≤ enaMemBarSize := hslice
  unfold enaLlqRead
  simp only [hl, hbound, decide_true, check_true, ok_bind]
  rfl

/-- The descriptor in a slot of the packet at the head. -/
def World.txSlot (w : World) (i : SqIdx) (sq : EnaSq) (slot : ℕ) : EnaTxDesc :=
  if sq.llq then
    EnaTxDesc.ofBytes (List.ofFn fun j : Fin EnaTxDesc.size =>
      w.llq (i.val*enaLlqQueueBytes +
        ((sq.head.toNat + sq.llqLine slot) % sq.depth.toNat*sq.entrySize.toNat + sq.llqOff slot) +
          j))
  else
    EnaTxDesc.ofBytes (w.mem.read (sq.base + UInt64.ofNat ((sq.head.toNat + slot) % sq.depth.toNat*
      EnaTxDesc.size)) EnaTxDesc.size).2

lemma EnaSq.Ok.txReadSlot (h : sq.Ok s) (w : World) (i : SqIdx) (slot : ℕ) :
    enaTxReadSlot w i sq slot = .ok (w.txSlot i sq slot) := by
  unfold enaTxReadSlot World.txSlot
  by_cases hl : sq.llq = true
  · simp only [hl, if_true, h.llqSlotLine hl, h.llqSlotOff hl, ok_bind,
      Counter.nat_mask h.depth.pow]
    rw [h.llqRead hl w i (Nat.mod_lt _ (Counter.depth_pos h.depth.pow)) (h.llqOff_le hl slot)]
    rfl
  · simp only [hl, Bool.false_eq_true, if_false, Counter.nat_mask h.depth.pow]
    rfl

/-- A parsed packet has a descriptor and ends in a posted slot. -/
structure EnaTxPkt.Ok (sq : EnaSq) (p : EnaTxPkt) : Prop where
  desc : p.desc ≠ []
  slots : 0 < p.slots
  posted : sq.slotPos (p.slots - 1) < (sq.tail - sq.head).toNat

lemma EnaSq.Ok.txParseFrom (h : sq.Ok s) (w : World) (i : SqIdx) (n slot : ℕ) (p : EnaTxPkt)
    (hp : p.desc.length ≤ enaMaxPktDescs) :
    Holds E (fun o => ∀ q, o = some q → q.Ok sq) (enaTxParseFrom w i sq n slot p) := by
  induction n generalizing slot p with
  | zero => exact holds_pure fun q hq => by cases hq
  | succ n ih =>
    unfold enaTxParseFrom
    simp only [h.txSlotPosted, h.txReadSlot, ok_bind]
    refine holds_ite (fun _ => holds_pure fun q hq => by cases hq) fun hposted => ?_
    refine holds_ite (fun _ => ?_) fun _ => ?_
    · refine holds_ite (fun _ => holds_pure fun q hq => by cases hq) fun _ => ?_
      exact ih _ _ hp
    refine holds_ite (fun _ => holds_pure fun q hq => by cases hq) fun _ => ?_
    refine holds_ite (fun _ => holds_pure fun q hq => by cases hq) fun hfull => ?_
    have hlt : p.desc.length < enaMaxPktDescs := lt_of_le_of_ne hp hfull
    simp only [hlt, decide_true, check_true, ok_bind]
    refine holds_ite (fun _ => holds_pure ?_) fun _ => ih _ _ ?_
    · rintro q ⟨⟩
      exact ⟨by simp,Nat.succ_pos slot,by simpa using hposted⟩
    · rw [List.length_append]
      exact hlt

lemma EnaSq.Ok.txPkt {w : World} {i : SqIdx} {p : EnaTxPkt} (h : (w.dev.sq i).Ok s)
    (hp : enaTxParse w i = .ok (some p)) : p.Ok (w.dev.sq i) :=
  (h.txParseFrom (E := fun _ => True) w i _ _ _ (Nat.zero_le _)).of_ok hp p rfl

end Slots

/-- A packet on its way to the backend. -/
def Event.Backend : Event → Prop
  | .sendPacket _ => True
  | .addRawFragment _ => True
  | .txPktSend _ _ _ => True
  | _ => False

/-- Packets go to the backend and the TX counters change, nothing else. -/
structure TxQuietly (w w' : World) : Prop where
  dev : ∃ pkts bytes drops,
    w'.dev = { w.dev with txPkts := pkts, txBytes := bytes, txDrops := drops }
  mem : w'.mem = w.mem
  llq : w'.llq = w.llq
  clock : w'.clock = w.clock
  linkUp : w'.linkUp = w.linkUp
  trace : Adds Event.Backend w w'

namespace TxQuietly
variable {w w' w'' : World}

lemma refl (w : World) : TxQuietly w w := ⟨⟨_,_,_,rfl⟩,rfl,rfl,rfl,rfl,.refl w⟩

lemma trans (h : TxQuietly w w') (h' : TxQuietly w' w'') : TxQuietly w w'' := by
  obtain ⟨_,_,_,hdev⟩ := h.dev
  obtain ⟨pkts,bytes,drops,hdev'⟩ := h'.dev
  refine ⟨⟨pkts,bytes,drops,?_⟩,h'.mem.trans h.mem,h'.llq.trans h.llq,h'.clock.trans h.clock,
    h'.linkUp.trans h.linkUp,h.trace.trans h'.trace⟩
  rw [hdev',hdev]

lemma count {s : EnaState}
    (h : ∃ pkts bytes drops,
      s = { w.dev with txPkts := pkts, txBytes := bytes, txDrops := drops }) :
    TxQuietly w (w.setDev s) := ⟨h,rfl,rfl,rfl,rfl,.of_eq rfl⟩

lemma emit {e : Event} (h : e.Backend) : TxQuietly w (w.emit e) :=
  ⟨⟨_,_,_,rfl⟩,rfl,rfl,rfl,rfl,.emit h⟩

lemma quietly (h : TxQuietly w w') : Quietly w w' := by
  obtain ⟨_,_,_,hdev⟩ := h.dev
  refine ⟨?_,by rw [hdev],h.mem,h.llq,h.trace.mono fun e he => ?_⟩
  · rw [hdev]
    exact ⟨rfl,rfl,rfl,rfl,rfl,rfl⟩
  · cases e <;> first | exact he.elim | trivial

end TxQuietly

section Frame
variable (net : Net) (w : World) (buf : Bytes) {E : Fault → Prop}

lemma txBufAt_eq {off : ℕ} (h : off < buf.length) : txBufAt buf off = .ok (u8At buf off) := by
  simp only [txBufAt, List.getElem?_eq_getElem h, u8At, List.getD_eq_getElem?_getD,
    Option.getD_some]

lemma txL2HdrLength_eq (h : ethHlen + 4 ≤ buf.length) :
    txL2HdrLength net buf = .ok (net.ethGetL2HdrLength buf) := by
  simp only [txL2HdrLength, h, decide_true, check_true, ok_bind]
  rfl

/-- The header that an IPv4 frame is known to hold. -/
def Ip4Header : Prop :=
  ethHlen + 4 ≤ buf.length ∧ 20 ≤ ipHdrLen (u8At buf (net.ethGetL2HdrLength buf)) ∧
    net.ethGetL2HdrLength buf + ipHdrLen (u8At buf (net.ethGetL2HdrLength buf)) ≤ buf.length

/-- The protocols are found without an abort of any kind. -/
lemma enaTxFrameProtos_spec :
    Holds E (fun r => r.1 = true → Ip4Header net buf) (enaTxFrameProtos net buf) := by
  unfold enaTxFrameProtos
  refine holds_ite (fun _ => holds_pure fun h => by cases h) fun hlen => ?_
  have hlen : ethHlen + 4 ≤ buf.length := Nat.le_of_not_lt hlen
  rw [txL2HdrLength_eq net buf hlen,ok_bind]
  refine holds_ite (fun h4 => ?_) fun _ => ?_
  · rw [txBufAt_eq buf (by omega),ok_bind]
    refine holds_ite (fun hv => ?_) fun _ => holds_pure fun h => by cases h
    rw [txBufAt_eq buf (by omega),ok_bind]
    exact holds_pure fun _ => ⟨hlen,hv.2.1,hv.2.2⟩
  · refine holds_ite (fun h6 => ?_) fun _ => holds_pure fun h => by cases h
    rw [txBufAt_eq buf (by omega),ok_bind]
    exact holds_pure fun h => by cases h

lemma putBe16_eq {off : ℕ} (x : UInt16) (h : off + 2 ≤ buf.length) :
    putBe16 buf off x =
      .ok (buf.take off ++ [(x >>> 8).toUInt8,x.toUInt8] ++ buf.drop (off+2)) := by
  simp only [putBe16, h, decide_true, check_true, ok_bind]
  rfl

/-- The checksum is written inside the header, whose length field it does not touch. -/
lemma enaTxIp4Csum_spec (h : Ip4Header net buf) :
    Holds E (fun _ => True) (enaTxIp4Csum net buf) := by
  obtain ⟨hlen,hihl,hfit⟩ := h
  unfold enaTxIp4Csum
  rw [txL2HdrLength_eq net buf hlen,ok_bind]
  generalize net.ethGetL2HdrLength buf = ip at hihl hfit
  rw [putBe16_eq buf 0 (by omega),ok_bind]
  generalize hbuf : buf.take (ip+10) ++ [((0 : UInt16) >>> 8).toUInt8,(0 : UInt16).toUInt8] ++
    buf.drop (ip+10+2) = buf'
  have hlen' : buf'.length = buf.length := by
    rw [← hbuf]
    simp only [List.length_append, List.length_take, List.length_drop, List.length_cons,
      List.length_nil]
    omega
  have hvhl : u8At buf' ip = u8At buf ip := by
    rw [← hbuf]
    simp only [u8At, List.getD_eq_getElem?_getD]
    rw [List.append_assoc,List.getElem?_append_left (by rw [List.length_take]; omega),
      List.getElem?_take_of_lt (by omega)]
  rw [txBufAt_eq buf' (by omega),ok_bind,hvhl]
  simp only [hlen', hfit, decide_true, check_true, ok_bind]
  rw [putBe16_eq buf' _ (by omega)]
  exact holds_pure trivial

lemma enaTxL3Csum_spec {offloads : UInt32} (h : offloads &&& txL3CsumEn ≠ 0 → Ip4Header net buf) :
    Holds E (fun _ => True) (enaTxL3Csum net buf offloads) := by
  unfold enaTxL3Csum
  refine holds_ite (fun hl3 => ?_) fun _ => holds_pure trivial
  exact holds_bind (enaTxIp4Csum_spec net buf (h hl3.1)) fun _ _ _ => holds_pure trivial

lemma txQuietly_drop : TxQuietly w w.txDrop := .count ⟨_,_,_,rfl⟩

lemma txQuietly_count (bytes : ℕ) : TxQuietly w (w.txCount bytes) := .count ⟨_,_,_,rfl⟩

lemma txQuietly_send (mss : UInt16) (offloads : UInt32) :
    TxQuietly w (enaTxSend net w mss buf offloads) := by
  unfold enaTxSend
  dsimp only
  have hraw : TxQuietly w (w.emit (.sendPacket buf)) := .emit trivial
  have hadd : TxQuietly w (w.emit (.addRawFragment buf)) := .emit trivial
  have hsend : TxQuietly (w.emit (.addRawFragment buf))
      ((w.emit (.addRawFragment buf)).emit (.txPktSend buf offloads mss)) := .emit trivial
  split_ifs
  · exact hraw.trans (txQuietly_count _ _)
  · exact hadd.trans (txQuietly_drop _)
  · exact (hadd.trans hsend).trans (txQuietly_count _ _)
  · exact hadd.trans hsend

/-- The IPv4 checksum bit survives on IPv4 frames only. -/
lemma txApplicable_l3 {offloads : UInt32} {ip4 : Bool} {l4 : UInt8}
    (h : txApplicable offloads ip4 l4 &&& txL3CsumEn ≠ 0) : ip4 = true := by
  by_contra hip
  rw [Bool.not_eq_true] at hip
  subst hip
  apply h
  have hfirst : (if offloads &&& txL3CsumEn ≠ 0 ∧ !false then offloads &&& ~~~txL3CsumEn
      else offloads) &&& txL3CsumEn = 0 := by
    split_ifs with h3
    · rw [UInt32.and_assoc,UInt32.not_and_self,UInt32.and_zero]
    · simpa using h3
  unfold txApplicable
  dsimp only
  rw [apply_ite (· &&& txL3CsumEn),hfirst,ite_eq_right_iff]
  intro _
  rw [UInt32.and_assoc,UInt32.and_comm (~~~txL4CsumEn),← UInt32.and_assoc,hfirst,UInt32.zero_and]

lemma enaTxHandOver_spec (sq : EnaSq) (metaCtrl : UInt32) :
    Holds E (TxQuietly w) (enaTxHandOver net w sq metaCtrl buf) := by
  unfold enaTxHandOver
  refine holds_ite (fun _ => holds_pure (txQuietly_drop w)) fun _ => ?_
  refine holds_bind (enaTxFrameProtos_spec net buf) fun protos _ hp => ?_
  refine holds_ite (fun _ => holds_pure (txQuietly_drop w)) fun _ => ?_
  refine holds_bind (enaTxL3Csum_spec net buf fun h => hp (txApplicable_l3 h)) fun r _ _ => ?_
  exact holds_pure (txQuietly_send net w r.1 _ _)

lemma enaTxFilter_spec (sq : EnaSq) (metaCtrl : UInt32) :
    Holds E (TxQuietly w) (enaTxFilter net w sq metaCtrl buf) := by
  unfold enaTxFilter
  refine holds_ite (fun _ => holds_pure (.refl w)) fun hlen => ?_
  have hmac : 2*ethAlen ≤ buf.length := le_trans (by decide) (Nat.le_of_not_lt hlen)
  simp only [hmac, decide_true, check_true, ok_bind]
  refine holds_ite (fun _ => holds_pure (.refl w)) fun _ => ?_
  exact enaTxHandOver_spec net w buf sq metaCtrl

/-- The buffers fill the allocation exactly. -/
lemma enaTxGather_spec {total : ℕ} (ds : List EnaTxDesc)
    (h : buf.length + (ds.map EnaTxDesc.len).sum = total) :
    Holds E (fun o => ∀ b, o = some b → b.length = total)
      (enaTxGather w total ds buf) := by
  induction ds generalizing buf with
  | nil =>
    refine holds_pure fun b hb => ?_
    cases hb
    simpa using h
  | cons d ds ih =>
    rw [List.map_cons,List.sum_cons] at h
    have hfit : buf.length + d.len ≤ total := by omega
    unfold enaTxGather
    simp only [hfit, decide_true, check_true, ok_bind]
    have hlen : (enaDmaRead w d.addr d.len).2.length = d.len := Memory.read_length _ _ _
    generalize enaDmaRead w d.addr d.len = r at hlen
    obtain ⟨_ | _,data⟩ := r
    · exact holds_pure fun b hb => by cases hb
    · refine ih _ ?_
      rw [List.length_append,hlen]
      omega

end Frame

section Doorbell
variable {net : Net} {w₀ w w' : World} {inp : Input} {i : SqIdx} {E : Fault → Prop}

lemma enaTxHeader_spec (h : (w.dev.sq i).Ok w.dev) (hdrLen : ℕ)
    (hhost : ¬((w.dev.sq i).llq = false ∧ hdrLen ≠ 0))
    (hfit : (w.dev.sq i).llq = true → enaLlqHeaderOff + hdrLen ≤ (w.dev.sq i).entrySize.toNat) :
    Holds E (fun b => b.length = hdrLen) (enaTxHeader w i (w.dev.sq i) hdrLen) := by
  unfold enaTxHeader
  refine holds_ite (fun hne => ?_) fun hz => ?_
  · have hl : (w.dev.sq i).llq = true := by
      by_contra hl
      exact hhost ⟨by simpa using hl,hne⟩
    unfold enaTxLlqHeader
    dsimp only
    rw [Counter.mask h.depth.pow,h.llqRead hl w i
      (Nat.mod_lt _ (Counter.depth_pos h.depth.pow)) (hfit hl)]
    exact holds_pure (by simp)
  · rw [not_ne_iff] at hz
    exact holds_pure (by simp [hz])

/-- The unsigned comparison bounds the pushed header of an LLQ entry. -/
lemma EnaSq.Ok.hdrLen_le {s : EnaState} {sq : EnaSq} (h : sq.Ok s) {hdrLen : ℕ}
    (hsmall : hdrLen < 256) (hle : ¬ UInt64.ofNat hdrLen >
      sq.entrySize.toUInt64 - UInt64.ofNat enaLlqHeaderOff)
    (hl : sq.llq = true) : enaLlqHeaderOff + hdrLen ≤ sq.entrySize.toNat := by
  rw [gt_iff_lt,UInt64.not_lt,UInt64.le_iff_toNat_le,UInt64.toNat_sub,UInt16.toNat_toUInt64,
    UInt64.toNat_ofNat',UInt64.toNat_ofNat',Nat.mod_eq_of_lt (by omega)] at hle
  rcases h.entrySize_cases hl with he | he <;> rw [he] at hle ⊢ <;>
    simp only [enaLlqHeaderOff, enaLlqDescsBeforeHeader, EnaTxDesc.size] at hle ⊢ <;> omega

lemma EnaTxDesc.hdrLen_lt (d : EnaTxDesc) : d.hdrLen < 256 := by
  unfold EnaTxDesc.hdrLen
  rw [UInt32.toNat_shiftRight,Nat.shiftRight_eq_div_pow]
  have hlt := (d.buffAddrHiHdrSz &&& genmask 31 24).toNat_lt
  have h24 : (24 : UInt32).toNat % 32 = 24 := rfl
  rw [h24]
  omega

theorem enaTxXmit_spec (h : (w.dev.sq i).Ok w.dev) {p : EnaTxPkt} (hp : p.desc ≠ []) :
    Holds E (TxQuietly w) (enaTxXmit net w i p) := by
  unfold enaTxXmit
  dsimp only
  split
  · rename_i hnil
    exact absurd hnil hp
  rename_i d ds hdesc
  refine holds_ite (fun _ => holds_pure (.refl w)) fun hhost => ?_
  refine holds_ite (fun _ => holds_pure (.refl w)) fun hle => ?_
  refine holds_ite (fun _ => holds_pure (.refl w)) fun _ => ?_
  have hheader := enaTxHeader_spec (E := E) h d.hdrLen (by simpa using hhost)
    (h.hdrLen_le d.hdrLen_lt hle)
  refine holds_bind hheader fun hdr _ hlen => ?_
  refine holds_bind (enaTxGather_spec w hdr p.desc (by rw [hlen])) fun o _ _ => ?_
  cases o with
  | none => exact holds_pure (txQuietly_drop w)
  | some buf => exact enaTxFilter_spec net w buf _ _

lemma enaTxComplete_eq {c : CqIdx} (reqId : UInt16) (hc : (w.dev.sq i).cqIdx.toNat = c.val)
    (hu : (w.dev.cq c).used = true) (he : (w.dev.cq c).entrySize.toNat ≤ 32) :
    enaTxComplete w i reqId = .ok (enaCqIntr (w.cqPushed c
      (txCdesc (w.dev.cq c).phase reqId (UInt16.ofNat i) (w.dev.sq i).head)) c true) := by
  unfold enaTxComplete
  dsimp only
  rw [cqAt_eq hc,ok_bind]
  simp only [he, decide_true, check_true, ok_bind]
  rw [enaCqPush_eq _ hu,ok_bind]
  rfl

/-- The queue moves its head over at least one posted entry. -/
def TxAdvance (i : SqIdx) (w w' : World) : Prop :=
  ∃ n m, 1 ≤ n ∧ n ≤ ((w.dev.sq i).tail - (w.dev.sq i).head).toNat ∧
    w'.dev.sq i =
      { w.dev.sq i with head := (w.dev.sq i).head + UInt16.ofNat n, txMeta := m }

lemma World.setSq_sq (w : World) (i : SqIdx) (q : EnaSq) : (w.setSq i q).dev.sq i = q :=
  EnaState.setSq_sq ..

lemma World.setSq_sq_of_ne (w : World) {i j : SqIdx} (h : i ≠ j) (q : EnaSq) :
    (w.setSq j q).dev.sq i = w.dev.sq i :=
  EnaState.setSq_sq_of_ne _ h _

lemma sq_cqIntr (w : World) (c : CqIdx) (isTx : Bool) :
    (enaCqIntr w c isTx).dev.sq = w.dev.sq := (irqOnly_cqIntr w c isTx).sameQueues.sq

/-- Discarding the burst moves the head over everything that is posted. -/
lemma head_discard (sq : EnaSq) :
    { sq with head := sq.tail } =
      { sq with head := sq.head + UInt16.ofNat (sq.tail - sq.head).toNat } := by
  have he : sq.tail = sq.head + (sq.tail - sq.head) := by grind
  rw [UInt16.ofNat_toNat,← he]

/-- The cached meta descriptor of a packet that brings one. -/
def World.withMeta (w : World) (i : SqIdx) (p : EnaTxPkt) : World :=
  if p.haveMeta then w.setSq i { w.dev.sq i with txMeta := p.txMeta } else w

lemma withMeta_sq (w : World) (i : SqIdx) (p : EnaTxPkt) :
    ∃ m, (w.withMeta i p).dev.sq i = { w.dev.sq i with txMeta := m } := by
  unfold World.withMeta
  split_ifs
  · exact ⟨_,World.setSq_sq _ _ _⟩
  · exact ⟨_,rfl⟩

lemma World.setSq_self (w : World) (i : SqIdx) : w.setSq i (w.dev.sq i) = w := by
  unfold World.setSq EnaState.setSq
  rw [Function.update_eq_self]
  rfl

lemma withMeta_eq (w : World) (i : SqIdx) (p : EnaTxPkt) :
    ∃ m, w.withMeta i p = w.setSq i { w.dev.sq i with txMeta := m } := by
  unfold World.withMeta
  split_ifs
  · exact ⟨_,rfl⟩
  · exact ⟨(w.dev.sq i).txMeta,(World.setSq_self w i).symm⟩

lemma withMeta_path (p : EnaTxPkt) : Path w₀ inp w (w.withMeta i p) := by
  obtain ⟨m,hm⟩ := withMeta_eq w i p
  rw [hm]
  exact .single (.sqMeta i m)

/-- The head moved over some entries. -/
def World.txTaken (w : World) (i : SqIdx) (n : ℕ) : World :=
  w.setSq i { w.dev.sq i with head := (w.dev.sq i).head + UInt16.ofNat n }

/-- A completion for the packet before the head, with its interrupt. -/
def World.txCompleted (w : World) (i : SqIdx) (c : CqIdx) (reqId : UInt16) : World :=
  enaCqIntr (w.cqPushed c (txCdesc (w.dev.cq c).phase reqId (UInt16.ofNat i) (w.dev.sq i).head)) c
    true

/-- The packet at the head takes `n` of the posted entries. -/
structure World.TxNext (w : World) (i : SqIdx) (n : ℕ) : Prop where
  packet : ∃ p, enaTxParse w i = .ok (some p) ∧ enaTxPktEntries (w.dev.sq i) p.slots = .ok n
  pos : 1 ≤ n
  posted : n ≤ ((w.dev.sq i).tail - (w.dev.sq i).head).toNat

/-- What one iteration of `ena_tx_doorbell` does: it discards the burst, or takes a packet, which
may have its meta descriptor cached and its completion written. -/
inductive TxStepped (i : SqIdx) (w : World) : World → Prop
  | discarded : TxStepped i w (w.txDrop.txTaken i ((w.dev.sq i).tail - (w.dev.sq i).head).toNat)
  | taken {w₁ : World} (m : EnaTxMeta) (n : ℕ) (hn : w.TxNext i n)
    (h : TxQuietly (w.setSq i { w.dev.sq i with txMeta := m }) w₁) : TxStepped i w (w₁.txTaken i n)
  | completed {w₁ : World} (m : EnaTxMeta) (n : ℕ) (hn : w.TxNext i n)
    (h : TxQuietly (w.setSq i { w.dev.sq i with txMeta := m }) w₁) (c : CqIdx) (reqId : UInt16)
    (hc : (w.dev.sq i).cqIdx.toNat = c.val) (hu : (w.dev.cq c).used = true) :
    TxStepped i w ((w₁.txTaken i n).txCompleted i c reqId)

lemma TxQuietly.sq {w₁ : World} {m : EnaTxMeta}
    (h : TxQuietly (w.setSq i { w.dev.sq i with txMeta := m }) w₁) :
    w₁.dev.sq i = { w.dev.sq i with txMeta := m } := by
  rw [h.quietly.queues.sq]
  exact World.setSq_sq _ _ _

lemma TxQuietly.cq {w₁ : World} {q : EnaSq} (h : TxQuietly (w.setSq i q) w₁) :
    w₁.dev.cq = w.dev.cq :=
  h.quietly.queues.cq

lemma txTaken_sq (w : World) (i : SqIdx) (n : ℕ) : (w.txTaken i n).dev.sq i =
    { w.dev.sq i with head := (w.dev.sq i).head + UInt16.ofNat n } := World.setSq_sq _ _ _

lemma txCompleted_sq (w : World) (i : SqIdx) (c : CqIdx) (reqId : UInt16) :
    (w.txCompleted i c reqId).dev.sq = w.dev.sq := sq_cqIntr _ _ _

variable (net)

theorem enaTxDoorbellStep_cases (hw : TableInv w.dev) (hu : (w.dev.sq i).used = true) :
    Holds E (TxStepped i w) (enaTxDoorbellStep net w i) := by
  have hok := hw.sq i hu
  unfold enaTxDoorbellStep
  refine holds_bind (hok.txParseFrom w i _ _ _ (Nat.zero_le _)) fun o hparse ho => ?_
  cases o with
  | none =>
    refine holds_pure ?_
    rw [head_discard]
    exact .discarded
  | some p =>
    have hp := ho p rfl
    dsimp only
    split
    · rename_i hnil
      exact absurd hnil hp.desc
    rename_i d ds hdesc
    -- the cached meta changes first, then only counters until the head moves
    change Holds _ _ (enaTxXmit net (w.withMeta i p) i p >>= _)
    obtain ⟨m,hm⟩ := withMeta_eq w i p
    rw [hm]
    have hsq₁ : (w.setSq i { w.dev.sq i with txMeta := m }).dev.sq i =
        { w.dev.sq i with txMeta := m } :=
      World.setSq_sq _ _ _
    have hok₁ : ((w.setSq i { w.dev.sq i with txMeta := m }).dev.sq i).Ok w.dev := by
      rw [hsq₁]
      exact ⟨hok.depth,hok.cq,hok.count,hok.llq,hok.host⟩
    refine holds_bind (enaTxXmit_spec (hok₁.of_eq_cq rfl) hp.desc) fun w₂ _ hq => ?_
    have hok₂ : (w₂.dev.sq i).Ok w.dev := by
      rw [hq.sq,← hsq₁]
      exact hok₁
    rw [hok₂.txPktEntries hp.slots,ok_bind]
    have hn : w.TxNext i ((w₂.dev.sq i).slotPos (p.slots-1) + 1) := by
      rw [hq.sq]
      exact ⟨⟨p,hparse,hok.txPktEntries hp.slots⟩,Nat.succ_pos _,hp.posted⟩
    refine holds_ite (fun _ => ?_) fun _ => holds_pure (.taken m _ hn hq)
    obtain ⟨c,hc,huc,-⟩ := hok.cq
    have hc₂ : ((w₂.txTaken i ((w₂.dev.sq i).slotPos (p.slots-1) + 1)).dev.sq i).cqIdx.toNat =
        c.val := by
      rw [txTaken_sq,hq.sq]
      exact hc
    have hcq₂ : (w₂.txTaken i ((w₂.dev.sq i).slotPos (p.slots-1) + 1)).dev.cq = w.dev.cq := hq.cq
    change Holds _ _ (enaTxComplete (w₂.txTaken i _) i _)
    rw [enaTxComplete_eq _ hc₂ (by rw [hcq₂]; exact huc)
      (by rw [hcq₂]; exact (hw.cq c huc).entrySize_le)]
    exact holds_pure (.completed m _ hn hq c _ hc huc)

variable {net} (w₀)

namespace TxStepped

lemma advance (h : TxStepped i w w') (hne : (w.dev.sq i).head ≠ (w.dev.sq i).tail) :
    TxAdvance i w w' := by
  cases h with
  | discarded =>
    refine ⟨_,(w.dev.sq i).txMeta,?_,le_rfl,txTaken_sq _ _ _⟩
    rw [Nat.one_le_iff_ne_zero]
    exact fun hz => hne ((Counter.sub_toNat_eq_zero_iff _ _).mp hz)
  | taken m n hn hq =>
    refine ⟨n,m,hn.pos,hn.posted,?_⟩
    rw [txTaken_sq,hq.sq]
  | completed m n hn hq c reqId =>
    refine ⟨n,m,hn.pos,hn.posted,?_⟩
    rw [txCompleted_sq,txTaken_sq,hq.sq]

lemma path (h : TxStepped i w w') (hw : TableInv w.dev) (htx : (w.dev.sq i).isTx = true)
    (hdb : inp.doorbell = some i) : Path w₀ inp w w' := by
  have htake : ∀ {w₁ : World} {m : EnaTxMeta} {n : ℕ},
      TxQuietly (w.setSq i { w.dev.sq i with txMeta := m }) w₁ →
      n ≤ ((w.dev.sq i).tail - (w.dev.sq i).head).toNat → Path w₀ inp w (w₁.txTaken i n) := by
    intro w₁ m n hq hle
    have hpath : Path w₀ inp w w₁ := .tail (.single (.sqMeta i m)) (.quiet hq.quietly)
    refine hpath.tail (.sqHead i n (fun _ => hdb) (fun hrx => absurd hrx ?_) ?_)
    · rw [hq.sq]
      simp [htx]
    · rw [hq.sq]
      exact hle
  cases h with
  | discarded =>
    exact .tail (.single (.quiet (txQuietly_drop w).quietly)) (.sqHead i _ (fun _ => hdb)
      (fun hrx => absurd (htx.symm.trans hrx) (by decide)) le_rfl)
  | taken m n hn hq => exact htake hq hn.posted
  | @completed w₁ m n hn hq c reqId hc hu =>
    have hpath := htake hq hn.posted
    have hu₁ : ((w₁.txTaken i n).dev.cq c).used = true := by
      change (w₁.dev.cq c).used = true
      rw [hq.cq]
      exact hu
    exact (hpath.trans (cqPushed_path _ (hpath.tableInv hw) hu₁ (.inl (by simp [hdb])))).tail
      (.cqIntr c true (cqPushed_used hu₁ _) (cqPushed_justPushed _ c _))

end TxStepped

variable {w₀}

/-- Any number of iterations of `ena_tx_doorbell`. -/
abbrev TxRan (i : SqIdx) : World → World → Prop := Relation.ReflTransGen (TxStepped i)

lemma TxStepped.sq (h : TxStepped i w w') :
    ∃ head m, w'.dev.sq i = { w.dev.sq i with head := head, txMeta := m } := by
  cases h with
  | discarded => exact ⟨_,(w.dev.sq i).txMeta,txTaken_sq _ _ _⟩
  | taken m n hn hq => exact ⟨_,m,by rw [txTaken_sq,hq.sq]⟩
  | completed m n hn hq c reqId => exact ⟨_,m,by rw [txCompleted_sq,txTaken_sq,hq.sq]⟩

lemma TxRan.sq (h : TxRan i w w') :
    ∃ head m, w'.dev.sq i = { w.dev.sq i with head := head, txMeta := m } := by
  induction h with
  | refl => exact ⟨_,_,rfl⟩
  | tail _ h ih =>
    obtain ⟨_,_,hsq⟩ := ih
    obtain ⟨head,m,hsq'⟩ := h.sq
    exact ⟨head,m,by rw [hsq',hsq]⟩

lemma TxRan.path (h : TxRan i w w') (hw : TableInv w.dev) (htx : (w.dev.sq i).isTx = true)
    (hdb : inp.doorbell = some i) : Path w₀ inp w w' := by
  induction h with
  | refl => exact .refl
  | tail hran h ih =>
    obtain ⟨_,_,hsq⟩ := TxRan.sq hran
    exact ih.trans (h.path w₀ (ih.tableInv hw) (by rw [hsq]; exact htx) hdb)

variable (net)

theorem enaTxDoorbellLoop_ran (n : ℕ) (hw : TableInv w.dev) (hu : (w.dev.sq i).used = true)
    (htx : (w.dev.sq i).isTx = true) (hn : ((w.dev.sq i).tail - (w.dev.sq i).head).toNat ≤ n) :
    Holds E (fun w' => TxRan i w w' ∧ (w'.dev.sq i).head = (w'.dev.sq i).tail)
      (enaTxDoorbellLoop net i n w) := by
  induction n generalizing w with
  | zero =>
    have he := (Counter.sub_toNat_eq_zero_iff _ _).mp (Nat.le_zero.mp hn)
    unfold enaTxDoorbellLoop
    rw [if_pos he]
    exact holds_pure ⟨.refl,he⟩
  | succ n ih =>
    unfold enaTxDoorbellLoop
    refine holds_ite (fun he => holds_pure ⟨.refl,he⟩) fun hne => ?_
    refine holds_bind (enaTxDoorbellStep_cases net hw hu) fun w₁ _ hstep => ?_
    obtain ⟨k,m,hk,hk',hsq⟩ := hstep.advance hne
    have hdist : ((w₁.dev.sq i).tail - (w₁.dev.sq i).head).toNat ≤ n := by
      rw [hsq]
      change ((w.dev.sq i).tail - ((w.dev.sq i).head + UInt16.ofNat k)).toNat ≤ n
      rw [Counter.sub_add_toNat _ _ _ hk']
      omega
    have hpath : Path w (.regWrite (regSqDbBase + 4*i.val) 0) w w₁ :=
      hstep.path w hw htx (doorbell_regWrite i 0)
    have hrest := ih (hpath.tableInv hw) (by rw [hsq]; exact hu) (by rw [hsq]; exact htx) hdist
    exact holds_mono hrest fun w' h => ⟨.head hstep h.1,h.2⟩

/-- A TX doorbell never aborts and drains its queue. -/
theorem enaTxDoorbell_ran (hw : TableInv w.dev) (hu : (w.dev.sq i).used = true)
    (htx : (w.dev.sq i).isTx = true) :
    Holds E (fun w' => TxRan i w w' ∧ (w'.dev.sq i).head = (w'.dev.sq i).tail)
      (enaTxDoorbell net w i) := by
  obtain ⟨c,hc,huc,-⟩ := (hw.sq i hu).cq
  unfold enaTxDoorbell
  simp only [htx, check_true, ok_bind, cqAt_eq hc, huc]
  exact enaTxDoorbellLoop_ran net _ hw hu htx le_rfl

variable (w₀)

theorem enaTxDoorbell_spec (hw : TableInv w.dev) (hu : (w.dev.sq i).used = true)
    (htx : (w.dev.sq i).isTx = true) (hdb : inp.doorbell = some i) :
    Holds E (fun w' => Path w₀ inp w w' ∧ (w'.dev.sq i).head = (w'.dev.sq i).tail)
      (enaTxDoorbell net w i) :=
  holds_mono (enaTxDoorbell_ran net hw hu htx) fun _ h => ⟨h.1.path hw htx hdb,h.2⟩

end Doorbell
end EnaDevice
