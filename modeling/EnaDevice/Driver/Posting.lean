import EnaDevice.Cq.Feed
import EnaDevice.Driver.Create
import EnaDevice.Driver.Descriptors
import EnaDevice.Tx.Transmit

/-! Bursts of packets as the driver posts them: their descriptors, where the pushes leave them in
the ring, and the completions that a doorbell puts into the CQ. -/
namespace EnaDevice.Driver
open Bytes Result PhaseRing

/-- The flags of a data descriptor. -/
def txFlags (first last compReq : Bool) : UInt32 :=
  (if first then bit 26 else 0) ||| (if last then bit 27 else 0) ||| (if compReq then bit 28 else 0)

/-- The descriptors of the buffers after the first one. -/
def bufDescs : List TxBuf → List Bytes
  | [] => []
  | b::bs => enaTxDescFill b.addr (UInt16.ofNat b.data.length) 0
      (txFlags false bs.isEmpty false) 0 0 :: bufDescs bs

/-- The descriptors of a packet, as the tests fill them. -/
def packetDescs (p : TxPacket) : List Bytes :=
  match p.bufs with
  | [] => []
  | b::bs => enaTxDescFill b.addr (UInt16.ofNat b.data.length) p.reqId
      (txFlags true bs.isEmpty p.compReq) 0 0 ::
    bufDescs bs

/-- Packets that are pushed one after another and rung in together. -/
def sendBurst (q : Qtest) (s : Session) (t : EnaTxQueue) (ps : List TxPacket) :
    Except Abort (EnaTxQueue × Session) := do
  let (t,s) ← enaTxqPushAll s t (ps.flatMap packetDescs)
  let s ← enaTxqDoorbell q s t
  return (t,s)

/-- `send_single` -/
def sendSingle (q : Qtest) (s : Session) (t : EnaTxQueue) (buf : UInt64) (len : ℕ)
    (reqId : UInt16) :
    Except Abort (EnaTxQueue × Session) := do
  let dsc := enaTxDescFill buf (UInt16.ofNat len) reqId (bit 26 ||| bit 27 ||| bit 28) 0 0
  let (t,s) ← enaTxqPush s t dsc
  let s ← enaTxqDoorbell q s t
  return (t,s)

/-- The driver's doorbell is the device's. -/
lemma enaTxqDoorbell_eq {q : Qtest} {s : Session} {t : EnaTxQueue} {i : SqIdx} {w' : World}
    (h : RingsSq t.dbOff i)
    (hstep : step q.net s.w (.regWrite (regSqDbBase + 4*i.val) t.tail.toUInt32.toUInt64) =
      .ok w') :
    enaTxqDoorbell q s t = .ok { s with w := w' } := by
  have hreg := (enaRegWrite_doorbell q.net s.w i _).symm.trans hstep
  unfold enaTxqDoorbell enaRegWrite
  change Session.stepped s (EnaDevice.enaRegWrite q.net s.w t.dbOff.toNat _) = _
  rw [h,hreg]
  rfl

section Descs
variable {p : TxPacket} {b : TxBuf}

lemma enaTxDescFill_length (addr : UInt64) (len reqId : UInt16) (ctrlFlags metaCtrl : UInt32)
    (hdrLen : UInt8) :
    (enaTxDescFill addr len reqId ctrlFlags metaCtrl hdrLen).length = 16 := by simp [enaTxDescFill]

lemma bufDescs_length (bs : List TxBuf) : (bufDescs bs).length = bs.length := by
  induction bs with
  | nil => rfl
  | cons b bs ih => rw [bufDescs,List.length_cons,ih,List.length_cons]

lemma packetDescs_length (p : TxPacket) : (packetDescs p).length = p.bufs.length := by
  unfold packetDescs
  cases p.bufs with
  | nil => rfl
  | cons b bs => rw [List.length_cons,bufDescs_length,List.length_cons]

lemma mem_bufDescs_length {bs : List TxBuf} {e : Bytes} (h : e ∈ bufDescs bs) : e.length = 16 := by
  induction bs with
  | nil => cases h
  | cons b bs ih =>
    rcases List.mem_cons.mp h with rfl | hrest
    · exact enaTxDescFill_length _ _ _ _ _ _
    · exact ih hrest

lemma mem_packetDescs_length {e : Bytes} (h : e ∈ packetDescs p) : e.length = 16 := by
  unfold packetDescs at h
  cases hb : p.bufs with
  | nil =>
    rw [hb] at h
    cases h
  | cons b bs =>
    rw [hb] at h
    rcases List.mem_cons.mp h with rfl | hrest
    · exact enaTxDescFill_length _ _ _ _ _ _
    · exact mem_bufDescs_length hrest

lemma txFlags_bits (first last compReq : Bool) : 2^22 ∣ (txFlags first last compReq).toNat ∧
    (txFlags first last compReq).toNat.testBit 23 = false ∧
    (txFlags first last compReq).toNat.testBit 26 = first ∧
    (txFlags first last compReq).toNat.testBit 27 = last ∧
    (txFlags first last compReq).toNat.testBit 28 = compReq := by
  cases first <;> cases last <;> cases compReq <;> decide

/-- A buffer that one descriptor can name. -/
def Nameable (b : TxBuf) : Prop := b.data.length < 2^16 ∧ b.addr.toNat < 2^48

lemma zero_lt_bit22 : (0 : UInt32).toNat < 2^22 := Nat.two_pow_pos 22

lemma fill_encodesBuf (hb : Nameable b) (reqId : UInt16) (first last compReq : Bool) {P : Prop}
    (hlast : last = true ↔ P) : EncodesBuf
      (.ofBytes (enaTxDescFill b.addr (UInt16.ofNat b.data.length) reqId
      (txFlags first last compReq) 0 0)) b P := by
  obtain ⟨hdvd,hmeta,-,hbit,-⟩ := txFlags_bits first last compReq
  refine (enaTxDescFill_words hdvd zero_lt_bit22).encodesBuf hdvd hb.2 ?_ hmeta
    (by rw [hbit]; exact hlast)
  rw [UInt16.toNat_ofNat']
  exact Nat.mod_eq_of_lt hb.1

lemma isEmpty_iff_last (b : TxBuf) (bs : List TxBuf) : bs.isEmpty = true ↔
    0 + 1 = (b::bs).length := by
  rw [List.isEmpty_iff,List.length_cons,← List.length_eq_zero_iff]
  omega

lemma bufDescs_encodes {bs : List TxBuf} (hok : ∀ b ∈ bs, Nameable b) {k : ℕ} {e : Bytes}
    (hb : bs[k]? = some b) (he : (bufDescs bs)[k]? = some e) :
    EncodesBuf (.ofBytes e) b (k+1 = bs.length) := by
  induction bs generalizing k with
  | nil => cases hb
  | cons a bs ih =>
    cases k with
    | zero =>
      cases hb
      cases he
      exact fill_encodesBuf (hok _ List.mem_cons_self) 0 false _ false (isEmpty_iff_last _ bs)
    | succ k =>
      rw [bufDescs,List.getElem?_cons_succ] at he
      have hrest := ih (fun b hb => hok b (List.mem_cons_of_mem _ hb)) hb he
      rw [List.length_cons]
      simpa using hrest

/-- A packet that the driver can send from a host ring. -/
structure Plain (p : TxPacket) : Prop where
  noMeta : p.haveMeta = false
  noHeader : p.header = []
  nonempty : p.bufs ≠ []
  max : p.bufs.length ≤ 17
  nameable : ∀ b ∈ p.bufs, Nameable b

/-- Each descriptor says what the packet has there. -/
lemma Plain.encodes (h : Plain p) {j : ℕ} {e : Bytes} (he : (packetDescs p)[j]? = some e) :
    p.Encodes j (.ofBytes e) := by
  have hslots : p.metaSlots = 0 := by rw [TxPacket.metaSlots,h.noMeta]; rfl
  obtain ⟨a,bs,hbufs⟩ := List.exists_cons_of_ne_nil h.nonempty
  have hok := h.nameable
  rw [hbufs] at hok
  rw [packetDescs,hbufs] at he
  refine ⟨fun hlt => absurd hlt (by rw [hslots]; exact Nat.not_lt_zero j),fun k b hk hb => ?_,
    fun hfirst => ?_⟩
  · rw [hslots,Nat.zero_add] at hk
    subst hk
    rw [hbufs] at hb ⊢
    cases j with
    | zero =>
      cases hb
      cases he
      exact fill_encodesBuf (hok _ List.mem_cons_self) _ true _ _ (isEmpty_iff_last _ bs)
    | succ j =>
      have hrest := bufDescs_encodes (fun b hb => hok b (List.mem_cons_of_mem _ hb)) hb he
      rw [List.length_cons]
      simpa using hrest
  · rw [hslots] at hfirst
    subst hfirst
    cases he
    obtain ⟨hdvd,-,hbit,-,hcomp⟩ := txFlags_bits true bs.isEmpty p.compReq
    exact (enaTxDescFill_words hdvd zero_lt_bit22).encodesPacket hdvd rfl rfl
      (by rw [h.noHeader]; rfl) hbit hcomp

end Descs

/-- A doorbell value as it comes through the register. -/
lemma toUInt16_widen (x : UInt16) : x.toUInt32.toUInt64.toUInt32.toUInt16 = x := by simp

/-- The address of a slot that a 16-bit index gives. -/
lemma slot_mask {d : UInt16} (hd : d.toNat.isPowerOfTwo) (idx : UInt16) :
    (idx &&& (d - 1)).toUInt64*16 = UInt64.ofNat (idx.toNat % d.toNat*16) := by
  have hlt := Nat.mod_lt idx.toNat (Counter.depth_pos hd)
  have hmax := d.toNat_lt
  apply UInt64.toNat_inj.mp
  rw [UInt64.toNat_mul,UInt16.toNat_toUInt64,Counter.mask hd,UInt64.toNat_ofNat']
  rfl

section Push
variable {t : EnaTxQueue} {s : Session}

/-- The driver writes descriptors into the ring one after another. -/
lemma enaTxqPushAll_eq (hllq : t.llq = false) (hd : t.depth.toNat.isPowerOfTwo) (es : List Bytes) :
    enaTxqPushAll s t es = .ok ({ t with tail := t.tail + UInt16.ofNat es.length },
      { s with w := { s.w with
        mem := s.w.mem.writeRing t.sqRing 16 t.depth.toNat t.tail.toNat es } }) := by
  induction es generalizing s t with
  | nil =>
    have hsame : t.tail + UInt16.ofNat (List.length ([] : List Bytes)) = t.tail := UInt16.add_zero _
    rw [enaTxqPushAll,hsame]
    rfl
  | cons e es ih =>
    have hpush : enaTxqPush s t e = .ok ({ t with tail := t.tail + 1 },qtestMemwrite s
        (t.sqRing + UInt64.ofNat (t.tail.toNat % t.depth.toNat*16)) e) := by
      unfold enaTxqPush
      rw [hllq,← slot_mask hd]
      rfl
    have hnext : t.tail + 1 + UInt16.ofNat es.length = t.tail + UInt16.ofNat (e::es).length := by
      rw [List.length_cons,Nat.add_comm,UInt16.ofNat_add,UInt16.add_assoc]
      rfl
    have hplace : ∀ m : Memory, m.writeRing t.sqRing 16 t.depth.toNat (t.tail + 1).toNat es =
        m.writeRing t.sqRing 16 t.depth.toNat (t.tail.toNat + 1) es := by
      intro m
      rw [← Memory.writeRing_mod,Counter.succ_toNat,Counter.wrap_mod hd,Memory.writeRing_mod]
    rw [enaTxqPushAll,hpush,ok_bind]
    dsimp only
    refine (ih (t := { t with tail := t.tail + 1 }) hllq hd).trans ?_
    dsimp only
    rw [hnext,hplace]
    rfl

/-- A single buffer is a burst of one packet. -/
lemma sendSingle_eq (q : Qtest) (s : Session) (t : EnaTxQueue) (b : TxBuf) (reqId : UInt16) :
    sendSingle q s t b.addr b.data.length reqId = sendBurst q s t [⟨false,reqId,true,[],[b]⟩] := by
  have hflags : bit 26 ||| bit 27 ||| bit 28 = txFlags true true true := by decide
  unfold sendSingle sendBurst
  rw [hflags]
  simp only [List.flatMap_cons,List.flatMap_nil,List.append_nil,packetDescs,bufDescs,enaTxqPushAll,
    bind_assoc]
  rfl

end Push

/-- The buffers of a packet hold its data, can be read and are apart from what is written
meanwhile. -/
structure Loaded (m : Memory) (writes : UInt64 → Prop) (p : TxPacket) : Prop where
  data : ∀ b ∈ p.bufs, m.bytesAt b.addr b.data.length = b.data
  readable : ∀ b ∈ p.bufs, m.okAt b.addr b.data.length = true
  apart : ∀ b ∈ p.bufs, ∀ x, InRegion b.addr b.data.length x → ¬ writes x

lemma Loaded.agrees {m m' : Memory} {writes writes' : UInt64 → Prop} {p : TxPacket}
    (h : Loaded m writes p) (hm : m.Agrees writes' m') (hsub : ∀ x, writes' x → writes x) :
    Loaded m' writes p where
  data b hb := (hm.bytesAt fun x hx hw => h.apart b hb x hx (hsub x hw)).trans (h.data b hb)
  readable b hb := (hm.okAt _ _).trans (h.readable b hb)
  apart := h.apart

lemma Loaded.weaken {m : Memory} {writes writes' : UInt64 → Prop} {p : TxPacket}
    (h : Loaded m writes p) (hsub : ∀ x, writes' x → writes x) : Loaded m writes' p :=
  ⟨h.data,h.readable,fun b hb x hx hw => h.apart b hb x hx (hsub x hw)⟩

section Posted
variable {q : EnaSq} {i : SqIdx} {writes : UInt64 → Prop} {m : Memory} {llq : ℕ → UInt8}
  {head : UInt16} {p : TxPacket}

lemma Plain.slots_eq (h : Plain p) : p.slots = (packetDescs p).length := by
  rw [packetDescs_length,TxPacket.slots,TxPacket.metaSlots,h.noMeta]
  exact Nat.zero_add _

lemma Plain.entries_eq (h : Plain p) (hq : q.llq = false) :
    p.entries q = (packetDescs p).length := by
  rw [TxPacket.entries,hq,h.slots_eq]
  rfl

/-- A packet whose descriptors stand in the ring. -/
lemma Plain.posted (h : Plain p) (hl : Loaded m writes p) (hq : q.llq = false)
    (hpos : 0 < q.depth.toNat) (hslots : ∀ j e, (packetDescs p)[j]? = some e →
    m.slot q.base 16 ((head.toNat + j) % q.depth.toNat) = e)
    (hring : m.ringOk q.base 16 q.depth.toNat)
    (hapart : ∀ k < q.depth.toNat, ∀ x, InRegion (q.base + UInt64.ofNat (k*16)) 16 x → ¬ writes x) :
    p.Posted q i writes m llq head := by
  have hreads : ∀ r ∈ p.reads q head, (∃ k < q.depth.toNat, r = (q.base + UInt64.ofNat (k*16),16)) ∨
      ∃ b ∈ p.bufs, r = (b.addr,b.data.length) := by
    intro r hr
    rw [TxPacket.reads,hq,if_neg Bool.false_ne_true] at hr
    rcases List.mem_append.mp hr with hr | hr
    · obtain ⟨j,-,rfl⟩ := List.mem_map.mp hr
      exact .inl ⟨_,Nat.mod_lt _ hpos,rfl⟩
    · obtain ⟨b,hb,rfl⟩ := List.mem_map.mp hr
      exact .inr ⟨b,hb,rfl⟩
  refine ⟨h.nonempty,h.max,fun hl => absurd hl (by rw [hq]; decide),
    fun _ => ⟨fun j hj => ?_,h.noHeader⟩,hl.data,?_,?_⟩
  · rw [h.slots_eq] at hj
    have he := List.getElem?_eq_getElem hj
    rw [hslots j _ he]
    exact h.encodes he
  · intro r hr
    rcases hreads r hr with ⟨k,hk,rfl⟩ | ⟨b,hb,rfl⟩
    · exact hring k hk
    · exact hl.readable b hb
  · intro r hr
    rcases hreads r hr with ⟨k,hk,rfl⟩ | ⟨b,hb,rfl⟩
    · exact hapart k hk
    · exact hl.apart b hb

/-- Packets whose descriptors stand in the ring one after another. -/
lemma postedFrom_of_slots {ps : List TxPacket} (hd : q.depth.toNat.isPowerOfTwo)
    (hq : q.llq = false) (hplain : ∀ p ∈ ps, Plain p ∧ Loaded m writes p)
    (hslots : ∀ j e, (ps.flatMap packetDescs)[j]? = some e →
      m.slot q.base 16 ((head.toNat + j) % q.depth.toNat) = e)
    (hring : m.ringOk q.base 16 q.depth.toNat)
    (hapart : ∀ k < q.depth.toNat, ∀ x, InRegion (q.base + UInt64.ofNat (k*16)) 16 x → ¬ writes x) :
    PostedFrom q i writes m llq head ps := by
  induction ps generalizing head with
  | nil => trivial
  | cons p ps ih =>
    obtain ⟨hp,hl⟩ := hplain p List.mem_cons_self
    rw [List.flatMap_cons] at hslots
    refine ⟨hp.posted hl hq (Counter.depth_pos hd) (fun j e he => hslots j e ?_) hring hapart,
      ih (fun p' hp' => hplain p' (List.mem_cons_of_mem _ hp')) fun j e he => ?_⟩
    · obtain ⟨hlt,-⟩ := List.getElem?_eq_some_iff.mp he
      rw [List.getElem?_append_left hlt]
      exact he
    · have hplace : ((head + UInt16.ofNat (p.entries q)).toNat + j) % q.depth.toNat =
          (head.toNat + ((packetDescs p).length + j)) % q.depth.toNat := by
        rw [hp.entries_eq hq,← Nat.mod_add_mod,UInt16.toNat_add,UInt16.toNat_ofNat',Nat.add_mod_mod]
        change ((head.toNat + (packetDescs p).length) % 65536 % q.depth.toNat + j) % q.depth.toNat =
          _
        rw [Counter.wrap_mod hd,Nat.mod_add_mod,Nat.add_assoc]
      rw [hplace]
      refine hslots _ e ?_
      rw [List.getElem?_append_right (Nat.le_add_right _ _),Nat.add_sub_cancel_left]
      exact he

end Posted

section Entries
variable {c : CqIdx} {es : List Event}

/-- The entries of a CQ, if all completions are on it. -/
lemma entriesOf_eq (h : ∀ r ∈ es.filterMap Event.completion, r.1 = c) :
    CqChannel.entriesOf c es = (es.filterMap Event.completion).map fun r => r.2.2 := by
  induction es with
  | nil => rfl
  | cons e es ih =>
    unfold CqChannel.entriesOf at ih ⊢
    cases he : e.completion with
    | none =>
      have hnone : e.entryOf c = none := by
        cases e <;> first | rfl | skip
        rename_i site _ _ _
        cases site <;> first | rfl | cases he
      rw [List.filterMap_cons_none he] at h ⊢
      rw [List.filterMap_cons_none hnone]
      exact ih h
    | some r =>
      rw [List.filterMap_cons_some he] at h ⊢
      have hr := h r List.mem_cons_self
      have hsome : e.entryOf c = some r.2.2 := by
        cases e <;> first | cases he | skip
        rename_i site _ _ _
        cases site <;> cases he
        exact if_pos hr
      rw [List.filterMap_cons_some hsome,List.map_cons,
        ih fun r' hr' => h r' (List.mem_cons_of_mem _ hr')]

lemma txCompletions_length (q : EnaSq) (head : UInt16) (ps : List TxPacket) :
    (txCompletions q head ps).length = ps.countP TxPacket.compReq := by
  induction ps generalizing head with
  | nil => rfl
  | cons p ps ih =>
    rw [txCompletions,List.length_append,ih,List.countP_cons,Nat.add_comm]
    cases p.compReq <;> rfl

/-- The fields of a TX completion that say which packet it is for. -/
def txFields (e : Bytes) : UInt16 × UInt16 × UInt16 := (le16At e 0,le16At e 4,le16At e 6)

/-- What a traced burst put into its CQ. -/
lemma TxTrace.entries {i : SqIdx} {s₀ : EnaState} {head : UInt16} {ps : List TxPacket}
    (h : TxTrace i c s₀ head ps es) : (CqChannel.entriesOf c es).map txFields =
      (txCompletions (s₀.sq i) head ps).map fun r => (r.1,UInt16.ofNat i,r.2) := by
  have hall : ∀ r ∈ es.filterMap Event.completion, r.1 = c := by
    intro r hr
    have hmem := List.mem_map_of_mem (f := fun e : CqIdx × UInt64 × Bytes =>
      (e.1,le16At e.2.2 0,le16At e.2.2 4,le16At e.2.2 6)) hr
    rw [h.completions] at hmem
    obtain ⟨x,-,hx⟩ := List.mem_map.mp hmem
    exact (congrArg Prod.fst hx).symm
  have hfields := congrArg (List.map Prod.snd) h.completions
  rw [List.map_map,List.map_map] at hfields
  rw [entriesOf_eq hall,List.map_map]
  exact hfields

end Entries

end EnaDevice.Driver
