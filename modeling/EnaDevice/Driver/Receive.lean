import EnaDevice.Control.Beside
import EnaDevice.Driver.Buffers
import EnaDevice.Rx.Accounting
import EnaDevice.Rx.Steering

/-! RX end to end, from frames to the driver: buffers that are posted, frames that are cut into
them, and completions by which the driver reads the pieces back, in any order. -/
namespace EnaDevice.Driver
open Bytes Result PhaseRing CqChannel Slots

/-- What `rx_cq_next` finds, with the bytes that the completion announces, read from its buffer. -/
def rxTake (r : RxRing) (s : Session) : Option (Piece UInt8) × RxRing :=
  match rxCqNext r s with
  | (none,r) => (none,r)
  | (some c,r) => (some ⟨rxEntryFirst c,rxEntryLast c,
      qtestMemread s (rxBufAddr r (le16At c 6)) (rxEntryLength c)⟩,r)

/-- A completion announces a piece in the buffer with a request id. -/
structure Announces (req : UInt16) (entry : Bytes) (p : Piece UInt8) : Prop where
  length : rxEntryLength entry = p.data.length
  reqId : le16At entry 6 = req
  first : rxEntryFirst entry = p.first
  last : rxEntryLast entry = p.last

/-- The memory of an RX ring and its CQ, after some buffers were posted, `items` delivered and
`received` of them read: the descriptors of the posted buffers stand in the ring, the delivered
pieces in their buffers, and the CQ announces them one after another. -/
structure RxHolds (r : RxRing) (c : CqIdx) (posted : ℕ) (received items : List (Piece UInt8))
    (w : World) : Prop where
  cq : (w.dev.cq c).base = r.cqBase ∧ (w.dev.cq c).depth = r.cqDepth ∧
    (w.dev.cq c).entrySize = r.entrySize
  descs : ∀ k, items.length ≤ k → k < posted →
    w.mem.slot r.sqBase 16 (k % r.depth.toNat) = r.desc (k % r.depth.toNat)
  readable : w.mem.ringOk r.sqBase 16 r.depth.toNat
  data : ∀ k p, received.length ≤ k → items[k]? = some p → p.data.length ≤ r.bufSize.toNat ∧
    w.mem.bytesAt (r.buf (k % r.depth.toNat)) p.data.length = p.data
  channel : ∃ pushed entries, Inv c ⟨w,⟨r.cqHead,r.cqPhase⟩,pushed,entries⟩ ∧
    entries.length = received.length ∧
    pushed.length = items.length ∧
    ∀ k e p, pushed[k]? = some e → items[k]? = some p →
      Announces (UInt16.ofNat (k % r.depth.toNat)) e p

/-- The bytes of the rings and buffers. -/
def RxBytes (r : RxRing) (x : UInt64) : Prop :=
  InRegion r.sqBase (r.depth.toNat*16) x ∨ InRegion r.cqBase (r.cqDepth.toNat*r.entrySize.toNat) x ∨
    InRegion r.bufBase (r.depth.toNat*r.bufSize.toNat) x

section Holds
variable {r : RxRing} {i : SqIdx} {c : CqIdx} {posted : ℕ} {received items : List (Piece UInt8)}
  {w w' : World}

lemma RxHolds.moved (h : RxHolds r c posted received items w) (m : ℕ) :
    RxHolds (r.moved m) c posted received items w := by
  obtain ⟨hcq,hdescs,hread,hdata,hchannel⟩ := h
  exact ⟨hcq,hdescs,hread,hdata,hchannel⟩

/-- The CQ and the buffers are kept, and the descriptors of all posted buffers are there. -/
lemma RxHolds.repost {posted' : ℕ} (h : RxHolds r c posted received items w) (hp : RxPair r i)
    (hcq : w'.dev.cq c = w.dev.cq c)
    (hmem : w.mem.Agrees (fun x => ¬ (InRegion r.cqBase (r.cqDepth.toNat*r.entrySize.toNat) x ∨
      InRegion r.bufBase (r.depth.toNat*r.bufSize.toNat) x)) w'.mem)
    (hdescs : ∀ k, items.length ≤ k → k < posted' →
      w'.mem.slot r.sqBase 16 (k % r.depth.toNat) = r.desc (k % r.depth.toNat)) :
    RxHolds r c posted' received items w' := by
  have hpos := Counter.depth_pos hp.depth.pow
  obtain ⟨pushed,entries,hinv,hrest⟩ := h.channel
  obtain ⟨hbase,hdepth,hentry⟩ := h.cq
  refine ⟨by rw [hcq]; exact h.cq,hdescs,fun k hk => ?_,fun k p hk hkp => ?_,pushed,entries,?_,
    hrest⟩
  · rw [hmem.okAt]
    exact h.readable k hk
  · obtain ⟨hle,hbytes⟩ := h.data k p hk hkp
    refine ⟨hle,(hmem.bytesAt fun x hx hno => hno (.inr ?_)).trans hbytes⟩
    exact Memory.slot_within _ (Nat.mod_lt k hpos) x (within_of_le _ hle x hx)
  · have hroom := hinv.room
    refine Step.inv (.other hcq fun k hk => ?_) hinv
      (by dsimp only at hroom ⊢; rw [hcq]; exact hroom)
    rw [ring,ring,hcq]
    refine hmem.bytesAt fun x hx hno => hno (.inl ?_)
    have hin := Memory.slot_within _ hk x hx
    dsimp only at hin
    rw [hbase,hdepth,hentry] at hin
    exact hin

/-- The ring's bytes are kept, and so is the CQ. -/
lemma RxHolds.congr (h : RxHolds r c posted received items w) (hp : RxPair r i)
    (hcq : w'.dev.cq c = w.dev.cq c) (hmem : w.mem.Agrees (fun x => ¬ RxBytes r x) w'.mem) :
    RxHolds r c posted received items w' := by
  refine h.repost hp hcq (hmem.mono fun x hno hin => hno (.inr hin)) fun k hk hk' => ?_
  rw [← h.descs k hk hk']
  refine hmem.bytesAt fun x hx hno => hno (.inl ?_)
  exact Memory.slot_within _ (Nat.mod_lt k (Counter.depth_pos hp.depth.pow)) x hx

/-- More buffers are posted. -/
lemma RxHolds.post (h : RxHolds r c posted received items w) (hp : RxPair r i) {n : ℕ}
    (hread : received.length ≤ items.length) (hbehind : items.length ≤ posted)
    (hn : posted + n ≤ received.length + r.depth.toNat) :
    RxHolds r c (posted+n) received items
      { w with mem := w.mem.writeRing r.sqBase 16 r.depth.toNat posted (r.descs posted n) } := by
  have hpos := Counter.depth_pos hp.depth.pow
  have hlen : ∀ e ∈ r.descs posted n, e.length = 16 := fun e he => mem_descs_length he
  have hlength : (r.descs posted n).length = n := by simp [RxRing.descs]
  have hagrees : w.mem.Agrees (InRegion r.sqBase (r.depth.toNat*16))
      (w.mem.writeRing r.sqBase 16 r.depth.toNat posted (r.descs posted n)) :=
    Memory.writeRing_agrees hpos w.mem posted hlen
  refine h.repost hp rfl (hagrees.mono fun x hin hno => ?_) fun k hk hk' => ?_
  · exact hno.elim (fun hc => hp.sqCq x hin hc) fun hb => hp.sqBuf x hin hb
  rcases Nat.lt_or_ge k posted with hlt | hge
  · rw [← h.descs k hk hlt]
    exact Memory.writeRing_slot_of_lt hp.sq_le hpos w.mem hlen hlt (by omega)
  · obtain ⟨j,rfl⟩ := Nat.exists_eq_add_of_le hge
    refine Memory.writeRing_slot hp.sq_le hpos _ _ hlen (by omega) ?_
    rw [RxRing.descs,List.getElem?_map,List.getElem?_range' (by omega)]
    simp

/-- A completion that the device writes announces its piece. -/
lemma announces_completion (hp : RxPair r i) {k : ℕ} {data : Bytes} {first last : Bool}
    {status hash : UInt32} {d : EnaRxDesc} (hd : d = .ofBytes (r.desc (k % r.depth.toNat)))
    (hmax : data.length < 65536) (hstatus : status &&& (rxCdescFirst ||| rxCdescLast) = 0)
    (phase : Bool) :
    Announces (UInt16.ofNat (k % r.depth.toNat))
      ((rxCompletion status hash i first last data.length d phase).take r.entrySize.toNat)
        ⟨first,last,data⟩ := by
  have hslot := Nat.mod_lt k (Counter.depth_pos hp.depth.pow)
  have hdone := @rxCompletion_completes status hash i
    ⟨d,0,data.length⟩ first last _ phase hstatus hp.entrySize hmax
  refine ⟨hdone.length,?_,?_,?_⟩
  · rw [← (hp.desc_read hslot).1,← hd]
    exact hdone.reqId
  · rw [Bool.eq_iff_iff,rxEntryFirst,bne_iff_ne]
    exact hdone.first
  · rw [Bool.eq_iff_iff,rxEntryLast,bne_iff_ne]
    exact hdone.last

lemma getElem?_last {α : Type} {l : List α} {a b : α} {k : ℕ} (hk : l.length ≤ k)
    (h : (l ++ [a])[k]? = some b) :
    k = l.length ∧ b = a := by
  rw [List.getElem?_append_right hk,List.getElem?_singleton] at h
  split_ifs at h with hz
  exact ⟨by omega,(Option.some.inj h).symm⟩

/-- What was announced before stays announced, and the next entry announces the next piece. -/
lemma announces_concat {pushed : List Bytes} {e : Bytes} {p : Piece UInt8}
    (hlen : pushed.length = items.length) (hold : ∀ k e p, pushed[k]? = some e →
    items[k]? = some p → Announces (UInt16.ofNat (k % r.depth.toNat)) e p)
    (hlast : Announces (UInt16.ofNat (items.length % r.depth.toNat)) e p) {k : ℕ} {e' : Bytes}
    {p' : Piece UInt8} (he : (pushed ++ [e])[k]? = some e') (hp : (items ++ [p])[k]? = some p') :
    Announces (UInt16.ofNat (k % r.depth.toNat)) e' p' := by
  rcases Nat.lt_or_ge k items.length with hlt | hge
  · rw [List.getElem?_append_left hlt] at hp
    rw [List.getElem?_append_left (by omega)] at he
    exact hold k e' p' he hp
  · obtain ⟨rfl,rfl⟩ := getElem?_last hge hp
    obtain ⟨-,rfl⟩ := getElem?_last hlen.le he
    exact hlast

/-- The pieces stand in their buffers, also once the next one is written to its own. -/
lemma RxHolds.writeData (h : RxHolds r c posted received items w) (hp : RxPair r i) {data : Bytes}
    (first last : Bool) (hroom : items.length < received.length + r.depth.toNat)
    (hlen : data.length ≤ r.bufSize.toNat) {k : ℕ} {p : Piece UInt8} (hk : received.length ≤ k)
    (hkp : (items ++ [⟨first,last,data⟩])[k]? = some p) :
    p.data.length ≤ r.bufSize.toNat ∧
      (w.mem.write (r.buf (items.length % r.depth.toNat)) data).bytesAt
        (r.buf (k % r.depth.toNat)) p.data.length =
        p.data := by
  have hpos := Counter.depth_pos hp.depth.pow
  rcases Nat.lt_or_ge k items.length with hlt | hge
  · rw [List.getElem?_append_left hlt] at hkp
    obtain ⟨hle,hbytes⟩ := h.data k p hk hkp
    have hother : Apart (r.buf (k % r.depth.toNat)) p.data.length
        (r.buf (items.length % r.depth.toNat)) data.length := by
      refine (Memory.slots_apart r.bufBase hp.ring_le (Nat.mod_lt k hpos)
        (Nat.mod_lt _ hpos) ?_).mono
        (within_of_le _ hle) (within_of_le _ hlen)
      exact Counter.slot_ne hlt (by omega)
    exact ⟨hle,(Memory.bytesAt_write_of_apart w.mem hother).trans hbytes⟩
  · obtain ⟨rfl,rfl⟩ := getElem?_last hge hkp
    have hsize := r.bufSize.toNat_lt
    dsimp only at hlen ⊢
    exact ⟨hlen,Memory.bytesAt_write_self w.mem _ (by omega)⟩

/-- A write to the buffers leaves the CQ's ring alone. -/
lemma RxHolds.writeChannel (h : RxHolds r c posted received items w) (hp : RxPair r i)
    {d : RingDriver} {pushed entries : List Bytes} (hinv : Inv c ⟨w,d,pushed,entries⟩) {a : UInt64}
    {data : Bytes} (hbuf : Within a data.length r.bufBase (r.depth.toNat*r.bufSize.toNat)) :
    Inv c ⟨enaDmaWrite w (.rxBuf i) a data,d,pushed,entries⟩ := by
  obtain ⟨hbase,hdepth,hentry⟩ := h.cq
  have hok : (w.dev.cq c).Ok := hinv.ok
  have hapart : Apart (w.dev.cq c).base ((w.dev.cq c).depth.toNat*(w.dev.cq c).entrySize.toNat) a
      data.length := by
    rw [hbase,hdepth,hentry]
    exact hp.cqBuf.mono (fun _ hx => hx) hbuf
  have hkept : ∀ k < (w.dev.cq c).depth.toNat,
      ring c (enaDmaWrite w (.rxBuf i) a data) k = ring c w k :=
    fun _ hk => Memory.slot_write_of_apart w.mem hapart hk
  have hstep : Step c ⟨w,d,pushed,entries⟩ ⟨enaDmaWrite w (.rxBuf i) a data,d,pushed,entries⟩ :=
    .other rfl hkept
  exact hstep.inv hinv hinv.room

/-- The completion of a piece is pushed. -/
lemma channel_completed {d : RingDriver} {pushed entries : List Bytes}
    (hinv : Inv c ⟨w,d,pushed,entries⟩) {status hash : UInt32} {first last : Bool} {len : ℕ}
    {desc : EnaRxDesc} {cdesc : Bytes}
    (hcdesc : rxCompletion status hash i first last len desc (w.dev.cq c).phase = cdesc)
    (hphase : status &&& bit 24 = 0)
    (hroom : pushed.length < entries.length + (w.dev.cq c).depth.toNat) :
    Inv c ⟨w.cqPushed c cdesc,d,pushed ++ [entry c w cdesc],entries⟩ := by
  refine hinv.push rfl (cqPushed_cq w c cdesc) ?_ ?_ ?_
  · rw [← hcdesc]
    exact rxCdesc_length _ _ _ _ _ _ _
  · rw [← hcdesc]
    refine rxCdesc_phase _ _ _ _ _ ?_
    rw [Bits.or_and,Bits.or_and,hphase]
    cases first <;> cases last <;> decide
  · dsimp only
    rw [List.length_append,List.length_singleton]
    exact hroom

/-- The next piece is written to its buffer and announced. -/
lemma RxHolds.piece (h : RxHolds r c posted received items w) {data : Bytes} (first last : Bool)
    {status : UInt32} (hash : UInt32) {d : EnaRxDesc} (hp : RxPair r i)
    (hroom : items.length < received.length + r.depth.toNat)
    (hd : d = .ofBytes (r.desc (items.length % r.depth.toNat)))
    (hlen : data.length ≤ r.bufSize.toNat) (hmax : data.length < 65536)
    (hstatus : status &&& ((rxCdescFirst ||| rxCdescLast) ||| bit 24) = 0) :
    RxHolds r c posted received (items ++ [⟨first,last,data⟩])
      ((enaDmaWrite w (.rxBuf i) d.addr data).cqPushed c
      (rxCompletion status hash i first last data.length d
        ((enaDmaWrite w (.rxBuf i) d.addr data).dev.cq c).phase)) := by
  have hpos := Counter.depth_pos hp.depth.pow
  have hslot := Nat.mod_lt items.length hpos
  obtain ⟨hmarks,hphase⟩ := Bits.and_eq_zero_of_or hstatus
  obtain ⟨pushed,entries,hinv,hread,hpushed,hannounced⟩ := h.channel
  obtain ⟨hbase,hdepth,hentry⟩ := h.cq
  have hok : (w.dev.cq c).Ok := hinv.ok
  have haddr : d.addr = r.buf (items.length % r.depth.toNat) := by
    rw [hd]
    exact (hp.desc_read hslot).2.1
  have hbuf : Within d.addr data.length r.bufBase (r.depth.toNat*r.bufSize.toNat) := by
    rw [haddr]
    exact (within_of_le _ hlen).trans (Memory.slot_within _ hslot)
  have hring : Within (w.dev.cq c).slotAddr (w.dev.cq c).entrySize.toNat r.cqBase
      (r.cqDepth.toNat*r.entrySize.toNat) := by
    rw [← hbase,← hdepth,← hentry]
    exact hok.slot_within
  -- first the buffer, then the CQ
  have hinv₁ := h.writeChannel hp hinv hbuf
  generalize hw₁ : enaDmaWrite w (.rxBuf i) d.addr data = w₁ at hinv₁ ⊢
  have hdev₁ : w₁.dev = w.dev := by rw [← hw₁]; rfl
  have hmem₁ : w₁.mem = w.mem.write d.addr data := by rw [← hw₁]; rfl
  generalize hcdesc : rxCompletion status hash i first last data.length d (w₁.dev.cq c).phase =
    cdesc
  have hlast : Announces (UInt16.ofNat (items.length % r.depth.toNat)) (entry c w₁ cdesc)
      ⟨first,last,data⟩ := by
    rw [entry,hdev₁,hentry,← hcdesc]
    exact announces_completion hp hd hmax hmarks _
  have hinv₂ : Inv c ⟨w₁.cqPushed c cdesc,⟨r.cqHead,r.cqPhase⟩,pushed ++ [entry c w₁ cdesc],
      entries⟩ := by
    have hfits := UInt16.le_iff_toNat_le.mp hp.fits
    exact channel_completed hinv₁ hcdesc hphase (by rw [hpushed,hread,hdev₁,hdepth]; omega)
  have hpush : w₁.mem.Agrees (InRegion r.cqBase (r.cqDepth.toNat*r.entrySize.toNat))
      (w₁.cqPushed c cdesc).mem := by
    refine .write fun x hx => hring x ?_
    rw [hdev₁] at hx
    exact Nat.lt_of_lt_of_le hx (List.length_take_le _ _)
  have hmem : w.mem.Agrees (fun x => InRegion d.addr data.length x ∨
      InRegion r.cqBase (r.cqDepth.toNat*r.entrySize.toNat) x) (w₁.cqPushed c cdesc).mem := by
    have hfirst : w.mem.Agrees (InRegion d.addr data.length) w₁.mem := by
      rw [hmem₁]
      exact .write fun x hx => hx
    exact (hfirst.mono fun x hx => .inl hx).trans (hpush.mono fun x hx => .inr hx)
  refine ⟨?_,fun k hk hk' => ?_,fun k hk => ?_,fun k p hk hkp => ?_,_,entries,hinv₂,hread,?_,
    fun k e p hke hkp => announces_concat hpushed hannounced hlast hke hkp⟩
  · rw [cqPushed_cq,hdev₁]
    exact h.cq
  · rw [List.length_append] at hk
    rw [← h.descs k (by omega) hk']
    refine hmem.bytesAt fun x hx hw => ?_
    have hin := Memory.slot_within _ (Nat.mod_lt k hpos) x hx
    exact hw.elim (fun hb => hp.sqBuf x hin (hbuf x hb)) fun hc => hp.sqCq x hin hc
  · rw [hmem.okAt]
    exact h.readable k hk
  · obtain ⟨hle,hbytes⟩ := h.writeData hp first last hroom hlen hk hkp
    rw [← haddr,← hmem₁] at hbytes
    refine ⟨hle,(hpush.bytesAt fun x hx hc => ?_).trans hbytes⟩
    exact hp.cqBuf x hc (Memory.slot_within _ (Nat.mod_lt k hpos) x (within_of_le _ hle x hx))
  · rw [List.length_append,List.length_append,hpushed]
    rfl

lemma bytesAt_take (m : Memory) (a : UInt64) {k n : ℕ} (h : k ≤ n) :
    m.bytesAt a k = (m.bytesAt a n).take k := by
  apply List.ext_getElem
  · simp [h]
  · intro j hj hj'
    simp [Memory.bytesAt]

lemma take_min (n : ℕ) (l : Bytes) : l.take (min n l.length) = l.take n := by
  rw [List.take_eq_take_iff]
  omega

/-- The pieces of a frame are written and announced one after another. -/
lemma RxHolds.scatter {frame : Bytes} {status : UInt32} (h : RxHolds r c posted received items w)
    (hash : UInt32) (hp : RxPair r i) (ds : List EnaRxDesc) (first : Bool) (off : ℕ)
    (hroom : items.length + ds.length ≤ received.length + r.depth.toNat)
    (hds : ∀ j d, ds[j]? = some d →
    d = EnaRxDesc.ofBytes (r.desc ((items.length + j) % r.depth.toNat)))
    (hmax : frame.length < 65536) (hstatus : status &&&
      ((rxCdescFirst ||| rxCdescLast) ||| bit 24) = 0) :
    RxHolds r c posted received
      (items ++ Piece.cutInto first (List.replicate ds.length r.bufSize.toNat) (frame.drop off))
      (rxScattered i c frame status hash ds first off w) := by
  induction ds generalizing items w first off with
  | nil =>
    rw [List.length_nil,List.replicate_zero,Piece.cutInto,List.append_nil]
    exact h
  | cons d ds ih =>
    have hd := hds 0 d rfl
    have hsize : d.size = r.bufSize.toNat := by
      rw [hd]
      exact (hp.desc_read (Nat.mod_lt _ (Counter.depth_pos hp.depth.pow))).2.2.1
    rw [List.length_cons] at hroom
    have hdata : (frame.drop off).take (min d.size (frame.length - off)) =
        (frame.drop off).take r.bufSize.toNat := by
      rw [← List.length_drop,take_min,hsize]
    have hchunk : min d.size (frame.length - off) =
        ((frame.drop off).take r.bufSize.toNat).length := by
      rw [List.length_take,List.length_drop,hsize]
    have hrest : frame.drop (off + ((frame.drop off).take r.bufSize.toNat).length) =
        (frame.drop off).drop r.bufSize.toNat := by
      rw [List.drop_drop,← hchunk,hsize]
      by_cases hle : r.bufSize.toNat ≤ frame.length - off
      · rw [min_eq_left hle]
      · rw [List.drop_eq_nil_of_le (by omega),List.drop_eq_nil_of_le (by omega)]
    have hnext := h.piece first ds.isEmpty hash hp (by omega) hd
      (List.length_take_le r.bufSize.toNat (frame.drop off))
      (by rw [← hchunk]; omega) hstatus
    have hlast : (List.replicate ds.length r.bufSize.toNat).isEmpty = ds.isEmpty := by
      cases ds <;> rfl
    have hall := ih hnext false (off + ((frame.drop off).take r.bufSize.toNat).length)
      (by rw [List.length_append,List.length_singleton]; omega) fun j d' hj => by
        rw [List.length_append,List.length_singleton,Nat.add_assoc,Nat.add_comm 1 j]
        exact hds (j+1) d' hj
    rw [hrest,List.append_assoc] at hall
    rw [rxScattered,List.length_cons,List.replicate_succ,Piece.cutInto,hlast,hdata,hchunk]
    exact hall

end Holds

/-- Buffers that are posted suffice for a frame, and a frame may take that many. -/
def RxFits (r : RxRing) (free : ℕ) (frame : Bytes) : Prop :=
  frame.length ≤ min free enaMaxPktDescs*r.bufSize.toNat

instance (r : RxRing) (free : ℕ) (frame : Bytes) : Decidable (RxFits r free frame) :=
  inferInstanceAs (Decidable (_ ≤ _))

/-- The pieces of some frames. -/
def rxItems (r : RxRing) (frames : List Bytes) : List (Piece UInt8) :=
  frames.flatMap (Piece.cut r.bufSize.toNat)

/-- Driver and device after some postings, deliveries and polls. -/
structure RxState (i : SqIdx) (c : CqIdx) (r : RxRing) (w : World) (posted : ℕ)
    (frames : List Bytes) (received : List (Piece UInt8)) : Prop where
  pair : RxPair r i
  moved : r.moved posted = r
  tables : TableInv w.dev ∧ TxIdle none w.dev
  sq : w.dev.sq i = rxSq r c (rxItems r frames).length posted
  behind : (rxItems r frames).length ≤ posted
  room : posted ≤ received.length + r.depth.toNat
  nonempty : ∀ frame ∈ frames, frame ≠ []
  holds : RxHolds r c posted received (rxItems r frames) w
  read : received = (rxItems r frames).take received.length

section Receive
variable {net : Net} {r : RxRing} {i : SqIdx} {c : CqIdx} {posted : ℕ} {frames : List Bytes}
  {received : List (Piece UInt8)} {w w' : World} {frame : Bytes}

lemma RxState.received_le (h : RxState i c r w posted frames received) :
    received.length ≤ (rxItems r frames).length := by
  rw [h.read,List.length_take]
  exact min_le_right _ _

lemma RxState.avail (h : RxState i c r w posted frames received) :
    (w.dev.sq i).avail = posted - (rxItems r frames).length := by
  have hmax : r.depth.toNat ≤ 1024 := h.pair.depth.max
  have hread := h.received_le
  have hroom := h.room
  rw [EnaSq.avail,h.sq]
  exact Counter.ofNat_sub_toNat h.behind (by omega)

/-- The posted descriptors are as the driver wrote them. -/
lemma RxState.good (h : RxState i c r w posted frames received) {n : ℕ}
    (hn : n < posted - (rxItems r frames).length) :
    GoodDesc w.mem (w.dev.sq i) n (.ofBytes
      (r.desc (((rxItems r frames).length + n) % r.depth.toNat))) := by
  have hpow := h.pair.depth.pow
  have hslot := Nat.mod_lt ((rxItems r frames).length + n) (Counter.depth_pos hpow)
  have hread := Memory.read_slot h.holds.readable hslot
  rw [h.holds.descs _ (Nat.le_add_right _ _) (by omega)] at hread
  refine ⟨?_,(h.pair.desc_read hslot).2.2.2 _ (by rw [h.sq]; rfl)⟩
  have hplace : UInt64.ofNat (((UInt16.ofNat (rxItems r frames).length).toNat + n) &&&
    (r.depth - 1).toNat)*16 =
      UInt64.ofNat (((rxItems r frames).length + n) % r.depth.toNat*16) := by
    have hmod : ((rxItems r frames).length % 65536 + n) % r.depth.toNat =
        ((rxItems r frames).length + n) % r.depth.toNat := by
      rw [Nat.add_mod,Counter.wrap_mod hpow,← Nat.add_mod]
    rw [Counter.nat_mask hpow,UInt16.toNat_ofNat',hmod,UInt64.ofNat_mul]
    rfl
  rw [h.sq]
  unfold enaRxRead
  dsimp only [rxSq]
  rw [hplace,hread]

/-- Any descriptors that the device collects are the ones that were posted next. -/
lemma RxState.collected (h : RxState i c r w posted frames received) {ds : List EnaRxDesc}
    (hp : RxPrefix w.mem (w.dev.sq i) frame.length ds) :
    (∀ j d, ds[j]? = some d → d = EnaRxDesc.ofBytes
      (r.desc (((rxItems r frames).length + j) % r.depth.toNat))) ∧
      ds.length ≤ posted - (rxItems r frames).length ∧
      ∀ n ≤ ds.length, rxCapacity (ds.take n) = n*r.bufSize.toNat := by
  have havail := hp.avail
  rw [h.avail] at havail
  have hds : ∀ j d, ds[j]? = some d →
      d = EnaRxDesc.ofBytes (r.desc (((rxItems r frames).length + j) % r.depth.toNat)) := by
    intro j d hj
    obtain ⟨hlt,-⟩ := List.getElem?_eq_some_iff.mp hj
    have hgood := (hp.good j d hj).1
    rw [(h.good (Nat.lt_of_lt_of_le hlt havail)).1] at hgood
    exact (Option.some.inj hgood).symm
  refine ⟨hds,havail,fun n hn => ?_⟩
  induction n with
  | zero => rw [List.take_zero,rxCapacity_nil,Nat.zero_mul]
  | succ n ih =>
    have hsize := (h.pair.desc_read (Nat.mod_lt ((rxItems r frames).length + n)
      (Counter.depth_pos h.pair.depth.pow))).2.2.1
    have hget := List.getElem?_eq_getElem (show n < ds.length from hn)
    rw [List.take_add_one,hget,Option.toList_some,rxCapacity_append,ih (by omega),rxCapacity_cons,
      rxCapacity_nil,hds n _ hget,hsize,Nat.succ_mul]
    rfl

lemma RxSteered.length_lt (h : RxSteered net w.dev frame i c) (hw : TableInv w.dev) :
    frame.length < 65536 := by
  have hmax := h.accepts.max
  rw [hw.maxFrame] at hmax
  have hmtu := hw.mtu.2
  omega

/-- The device collects just as many descriptors as the frame has pieces. -/
lemma RxState.collected_count (h : RxState i c r w posted frames received) {ds : List EnaRxDesc}
    (hp : RxPrefix w.mem (w.dev.sq i) frame.length ds) (hcap : frame.length ≤ rxCapacity ds)
    (hpos : 0 < frame.length) :
    RxFits r (posted - (rxItems r frames).length) frame ∧
    Piece.count r.bufSize.toNat frame.length = ds.length := by
  obtain ⟨-,hle,hcapacity⟩ := h.collected hp
  have hall := hcapacity ds.length le_rfl
  rw [List.take_length] at hall
  have hmul := Nat.mul_le_mul_right r.bufSize.toNat (le_min hle hp.max)
  constructor
  · rw [RxFits]
    omega
  · refine (Piece.count_eq_iff h.pair.bufSize.1 hpos).mpr ⟨by omega,?_⟩
    have hne : ds.length ≠ 0 := by
      intro hz
      rw [hz,Nat.zero_mul] at hall
      omega
    have hleast := hp.least (ds.length - 1) (by omega)
    rw [hcapacity _ (by omega)] at hleast
    exact hleast

/-- The posted buffers do not suffice for a frame that runs out of descriptors. -/
lemma RxState.not_fits (h : RxState i c r w posted frames received) {ds : List EnaRxDesc}
    (hp : RxPrefix w.mem (w.dev.sq i) frame.length ds) (hcap : rxCapacity ds < frame.length)
    (hend : ds.length = (w.dev.sq i).avail ∨ ds.length = enaMaxPktDescs) :
    ¬ RxFits r (posted - (rxItems r frames).length) frame := by
  obtain ⟨-,hle,hcapacity⟩ := h.collected hp
  have hall := hcapacity ds.length le_rfl
  rw [List.take_length] at hall
  rw [h.avail] at hend
  have hmaxDesc := hp.max
  rw [RxFits,show min (posted - (rxItems r frames).length) enaMaxPktDescs = ds.length by omega]
  omega

/-- The pieces of a delivered frame come after those of the frames before. -/
lemma RxState.delivered (h : RxState i c r w posted frames received)
    (hs : RxSteered net w.dev frame i c) {ds : List EnaRxDesc}
    (hp : RxPrefix w.mem (w.dev.sq i) frame.length ds) (hcap : frame.length ≤ rxCapacity ds)
    (hpos : 0 < frame.length) (hw' : w' = enaCqIntr ((rxScattered i c frame (enaRxStatus net frame)
      (enaRssHash net w.dev frame) ds true 0 w).rxTook i ds.length frame.length) c false)
    (htables : TableInv w'.dev ∧ TxIdle none w'.dev) :
    RxState i c r w' posted (frames ++ [frame]) received ∧ w'.dev.rxPkts = w.dev.rxPkts + 1 := by
  obtain ⟨hds,hle,-⟩ := h.collected hp
  obtain ⟨-,hcount⟩ := h.collected_count hp hcap hpos
  have hread := h.received_le
  have hroom := h.room
  have hbehind := h.behind
  have hitems : rxItems r (frames ++ [frame]) = rxItems r frames ++
      Piece.cutInto true (List.replicate ds.length r.bufSize.toNat) (frame.drop 0) := by
    rw [rxItems,List.flatMap_append,List.flatMap_singleton,Piece.cut,hcount]
    rfl
  have hlength : (rxItems r (frames ++ [frame])).length = (rxItems r frames).length +
      ds.length := by
    rw [hitems,List.length_append,Piece.cutInto_length,List.length_replicate]
  have hholds := h.holds.scatter (enaRssHash net w.dev frame) h.pair ds true 0 (by omega) hds
    (RxSteered.length_lt hs h.tables.1) (enaRxStatus_clear net frame)
  rw [← hitems] at hholds
  have hdone := rxDelivered h.tables.1 hs hp hcap
  rw [← hw'] at hdone
  refine ⟨⟨h.pair,h.moved,htables,?_,by omega,hroom,?_,hholds.congr h.pair ?_ ?_,?_⟩,hdone.rxPkts⟩
  · rw [hdone.sq,Function.update_self,h.sq,hlength]
    unfold rxSq
    rw [UInt16.ofNat_add]
  · intro frame' hmem
    rcases List.mem_append.mp hmem with hold | hnew
    · exact h.nonempty frame' hold
    · rw [List.mem_singleton.mp hnew]
      exact List.length_pos_iff.mp hpos
  · rw [hw',(irqOnly_cqIntr _ c false).dev]
    rfl
  · rw [hw',(irqOnly_cqIntr _ c false).mem]
    exact .refl _
  · rw [hitems,List.take_append_of_le_length hread]
    exact h.read

/-- A frame for the queue goes into the posted buffers if it fits, and is dropped otherwise. -/
lemma RxState.receive (h : RxState i c r w posted frames received)
    (hs : RxSteered net w.dev frame i c) :
    ∃ w', step net w (.receive frame) = .ok w' ∧
      if RxFits r (posted - (rxItems r frames).length) frame then
        RxState i c r w' posted (frames ++ [frame]) received ∧ w'.dev.rxPkts = w.dev.rxPkts + 1
      else RxState i c r w' posted frames received ∧ w' = w.rxDrop := by
  obtain ⟨w',hstep,hout⟩ := (enaRxReceiveIov_outcome net frame h.tables.1).exists_ok
  have hstep' : step net w (.receive frame) = .ok w' := hstep
  have htables := step_tables h.tables hstep'
  refine ⟨w',hstep',?_⟩
  cases hout with
  | ignored hno => exact absurd hs.accepts hno
  | dropped hno => exact absurd hs (hno i c)
  | @short j d ds hs' hp hcap hend =>
    obtain rfl := hs.unique hs'
    rw [if_neg (h.not_fits hp hcap hend)]
    exact ⟨⟨h.pair,h.moved,htables,h.sq,h.behind,h.room,h.nonempty,
      h.holds.congr h.pair rfl (.refl _),h.read⟩,rfl⟩
  | @bad j d ds hs' hp hcap hlt hmax hbad =>
    obtain rfl := hs.unique hs'
    rw [h.avail] at hlt
    exact absurd (h.good hlt) (hbad _)
  | @delivered j d ds hs' hp hcap =>
    obtain rfl := hs.unique hs'
    obtain rfl : c = d := Fin.ext (hs.cqIdx.symm.trans hs'.cqIdx)
    have hpos : 0 < frame.length := Nat.lt_of_lt_of_le (by decide) hs.accepts.min
    rw [if_pos (h.collected_count hp hcap hpos).1]
    exact h.delivered hs hp hcap hpos rfl htables

/-- The doorbell of an RX queue with a tail that the queue has room for. -/
lemma rxDoorbell_eq (net : Net) {consumed : ℕ} (hsq : w.dev.sq i = rxSq r c consumed posted) {m : ℕ}
    (hm : consumed ≤ m) (hroom : m ≤ consumed + r.depth.toNat) (hlt : r.depth.toNat < 65536) :
    step net w (.regWrite (regSqDbBase + 4*i.val) (UInt16.ofNat m).toUInt32.toUInt64) =
      .ok ((w.setSq i (rxSq r c consumed m)).emit .flushQueuedPackets) := by
  have hcount : ¬ UInt16.ofNat m - (w.dev.sq i).head > (w.dev.sq i).depth := by
    have hdist : (UInt16.ofNat m - UInt16.ofNat consumed).toNat = m - consumed :=
      Counter.ofNat_sub_toNat hm (by omega)
    rw [hsq,gt_iff_lt,UInt16.not_lt,UInt16.le_iff_toNat_le]
    dsimp only [rxSq]
    rw [hdist]
    omega
  change EnaDevice.enaRegWrite net w _ _ = _
  rw [enaRegWrite_doorbell,enaSqDoorbell]
  dsimp only
  have hused : ¬ (!(w.dev.sq i).used) = true := by
    rw [hsq]
    exact Bool.false_ne_true
  have hrx : ¬ (w.dev.sq i).isTx = true := by
    rw [hsq]
    exact Bool.false_ne_true
  rw [toUInt16_widen,if_neg hused,if_neg hcount,if_neg hrx,hsq]
  unfold enaRxDoorbell
  rw [World.setSq_sq]
  rfl

/-- Buffers are posted: the descriptors are written and the doorbell tells the device. -/
lemma RxState.post (q : Qtest) {s : Session} (h : RxState i c r s.w posted frames received) {n : ℕ}
    (hn : posted + n ≤ received.length + r.depth.toNat) :
    ∃ s', rxPost q r s n = .ok (r.moved (posted+n),s') ∧
      RxState i c (r.moved (posted+n)) s'.w (posted+n) frames received ∧
      ∀ j ≠ i, s'.w.dev.sq j = s.w.dev.sq j := by
  have hread := h.received_le
  have hbehind := h.behind
  have hloop := rxPostLoop_eq h.pair posted n s
  rw [h.moved] at hloop
  have hholds := h.holds.post h.pair hread hbehind hn
  generalize hw₁ : ({ s.w with
    mem := s.w.mem.writeRing r.sqBase 16 r.depth.toNat posted (r.descs posted n) } : World) =
      w₁ at hloop hholds
  have hdev : w₁.dev = s.w.dev := by rw [← hw₁]
  have hsq : w₁.dev.sq i = rxSq r c (rxItems r frames).length posted := by
    rw [hdev]
    exact h.sq
  have hstep := rxDoorbell_eq q.net hsq (show (rxItems r frames).length ≤ posted + n by omega)
    (by omega)
    r.depth.toNat_lt
  have htables := step_tables (w := w₁) (by rw [hdev]; exact h.tables) hstep
  refine ⟨{ s with
    w := (w₁.setSq i (rxSq r c (rxItems r frames).length (posted+n))).emit .flushQueuedPackets },
    ?_,?_,fun j hj => ?_⟩
  · have hoff : regSqDbBase + r.sqIdx.toNat*4 = regSqDbBase + 4*i.val := by
      rw [h.pair.sqIdx,idx_toNat,Nat.mul_comm]
    unfold rxPost
    rw [hloop]
    change enaRegWrite q ⟨s.d,w₁⟩ (regSqDbBase + r.sqIdx.toNat*4)
      (UInt16.ofNat (posted+n)).toUInt32 >>= _ = _
    unfold enaRegWrite
    rw [hoff,hstep]
    rfl
  · have hback : RxHolds r c (posted+n) received (rxItems r frames)
        ((w₁.setSq i (rxSq r c (rxItems r frames).length (posted+n))).emit .flushQueuedPackets) :=
      hholds.congr h.pair rfl (.refl _)
    exact ⟨h.pair.moved _,rfl,htables,World.setSq_sq _ _ _,Nat.le_add_right_of_le hbehind,hn,
      h.nonempty,hback.moved _,h.read⟩
  · rw [← hdev]
    exact Function.update_of_ne hj _ _

/-- What the driver makes of a poll of the ring. -/
def RxRing.polledBy (r : RxRing) : Option (Bytes × RingDriver) → Option Bytes × RxRing
  | none => (none,r)
  | some (entry,d) => (some (entry.take 16),{ r with cqHead := d.head, cqPhase := d.phase })

/-- The driver finds the phase in the status word, the device in its last byte. -/
lemma status_phase (e : Bytes) : (le32At (e.take 16) 0 &&& bit 24 != 0) = phaseBit e := by
  have hbyte : u8At e 3 = UInt8.ofNat ((le32At e 0).toNat/65536/256) := by
    have h0 := (u8At e 0).toNat_lt
    have h1 := (u8At e 1).toNat_lt
    have h2 := (u8At e 2).toNat_lt
    have h3 := (u8At e 3).toNat_lt
    apply UInt8.toNat_inj.mp
    rw [UInt8.toNat_ofNat',le32At,UInt32.toNat_ofNat',le16At,le16At,UInt16.toNat_ofNat',
      UInt16.toNat_ofNat']
    change (u8At e 3).toNat = (((u8At e 0).toNat + 256*(u8At e 1).toNat) % 2^16 +
      65536*(((u8At e 2).toNat + 256*(u8At e 3).toNat) % 2^16)) % 2^32/65536/256 % 2^8
    omega
  rw [le32At_take (by decide),phaseBit,hbyte,Bits.byte3_bit]
  rfl

/-- The driver's poll is a poll of the device's CQ. -/
lemma RxState.poll_eq {s : Session} (h : RxState i c r s.w posted frames received) :
    rxCqNext r s = r.polledBy (cqPoll s.w.mem (s.w.dev.cq c) ⟨r.cqHead,r.cqPhase⟩) := by
  obtain ⟨hbase,hdepth,hentry⟩ := h.holds.cq
  have hread : ∀ a, s.w.mem.bytesAt a 16 = (s.w.mem.bytesAt a r.entrySize.toNat).take 16 := fun a =>
    bytesAt_take _ _ h.pair.entrySize
  unfold rxCqNext cqPoll
  rw [hbase,hdepth,hentry]
  dsimp only [qtestMemread]
  rw [hread,status_phase]
  split_ifs <;> first | rfl | contradiction

lemma RxState.polled {e : Bytes} {d : RingDriver} {p : Piece UInt8}
    (h : RxState i c r w posted frames received)
    (hitem : (rxItems r frames)[received.length]? = some p)
    (hr : cqPoll w.mem (w.dev.cq c) ⟨r.cqHead,r.cqPhase⟩ = some (e,d)) :
    RxState i c { r with cqHead := d.head, cqPhase := d.phase } w posted frames
      (received ++ [p]) := by
  have hroom := h.room
  have hlength : (received ++ [p]).length = received.length + 1 := List.length_append
  obtain ⟨pushed,entries,hinv,hentries,hpushed,hannounced⟩ := h.holds.channel
  refine ⟨h.pair.polled d,?_,h.tables,h.sq,h.behind,?_,h.nonempty,
    ⟨h.holds.cq,h.holds.descs,h.holds.readable,fun k p' hk hkp => h.holds.data k p' (by omega) hkp,
      pushed,entries ++ [e],hinv.poll hr,?_,hpushed,hannounced⟩,?_⟩
  · rw [← h.moved]
    rfl
  · rw [hlength]
    change posted ≤ received.length + 1 + r.depth.toNat
    omega
  · rw [List.length_append,hentries,hlength]
    rfl
  · change received ++ [p] = (rxItems r frames).take (received ++ [p]).length
    rw [hlength,List.take_add_one,hitem,← h.read]
    rfl

/-- A poll finds the next piece in its buffer. -/
lemma RxState.take {s : Session} (h : RxState i c r s.w posted frames received) :
    (rxTake r s).1 = (rxItems r frames)[received.length]? ∧
      ∀ p r', rxTake r s = (some p,r') → RxState i c r' s.w posted frames (received ++ [p]) := by
  obtain ⟨pushed,entries,hinv,hentries,hpushed,hannounced⟩ := h.holds.channel
  obtain ⟨hnone,hsome⟩ := hinv.poll_iff
  dsimp only at hnone hsome
  rw [hentries] at hnone hsome
  have hslot := Nat.mod_lt received.length (Counter.depth_pos h.pair.depth.pow)
  unfold rxTake
  rw [h.poll_eq]
  cases hr : cqPoll s.w.mem (s.w.dev.cq c) ⟨r.cqHead,r.cqPhase⟩ with
  | none =>
    rw [List.getElem?_eq_none (by rw [← hpushed]; exact (hnone.mp hr).le)]
    exact ⟨rfl,nofun⟩
  | some x =>
    obtain ⟨e,d⟩ := x
    obtain ⟨hnext,-⟩ := hsome e d hr
    have hlt : received.length < (rxItems r frames).length := by
      rw [← hpushed]
      exact (List.getElem?_eq_some_iff.mp hnext).1
    have hitem := List.getElem?_eq_getElem hlt
    generalize (rxItems r frames)[received.length] = p at hitem
    have hsays := hannounced _ e p hnext hitem
    obtain ⟨-,hdata⟩ := h.holds.data _ p le_rfl hitem
    -- the entry's first 16 bytes say where the piece is
    have hpiece : (⟨rxEntryFirst (e.take 16),rxEntryLast (e.take 16),
        qtestMemread s (rxBufAddr r (le16At (e.take 16) 6)) (rxEntryLength (e.take 16))⟩ :
          Piece UInt8) = p := by
      obtain ⟨hlength,hreq,hfirst,hlast⟩ := hsays
      unfold rxEntryLength at hlength
      unfold rxEntryFirst at hfirst
      unfold rxEntryLast at hlast
      unfold rxEntryLength rxEntryFirst rxEntryLast qtestMemread
      rw [le32At_take (by decide),le16At_take (by decide),le16At_take (by decide),hlength,hreq,
        hfirst,hlast,rxBufAddr_eq h.pair hslot,hdata]
    rw [hitem]
    refine ⟨congrArg some hpiece,fun p' r' hp' => ?_⟩
    obtain ⟨hsame,rfl⟩ := Prod.mk.inj hp'
    obtain rfl : p = p' := hpiece.symm.trans (Option.some.inj hsame)
    exact h.polled hitem hr

lemma RxState.create {s s' : Session} (hnew : NewRxRing r s s' i c)
    (htables : TableInv s.w.dev ∧ TxIdle none s.w.dev)
    (hread : s'.w.mem.ringOk r.sqBase 16 r.depth.toNat) : RxState i c r s'.w 0 [] [] := by
  have hmoved : r.moved 0 = r := by
    obtain ⟨htail,hnext⟩ := hnew.tail
    cases r
    subst htail hnext
    rfl
  refine ⟨hnew.pair,hmoved,hnew.tables htables,?_,le_rfl,Nat.zero_le _,nofun,?_,rfl⟩
  · rw [hnew.sqs,Function.update_self]
    rfl
  · exact ⟨hnew.cq,fun k _ hk => absurd hk (Nat.not_lt_zero k),hread,nofun,[],[],hnew.start.inv,rfl,
      rfl,nofun⟩

end Receive

/-- What else may happen: the queues stay as they are, and so do the bytes of the rings and
buffers. -/
structure RxElsewhere (i : SqIdx) (c : CqIdx) (r : RxRing) (w w' : World) : Prop where
  tables : TableInv w.dev ∧ TxIdle none w.dev → TableInv w'.dev ∧ TxIdle none w'.dev
  sq : w'.dev.sq i = w.dev.sq i
  cq : w'.dev.cq c = w.dev.cq c
  mem : w.mem.Agrees (fun x => ¬ RxBytes r x) w'.mem

/-- Steps of the device beside the pair are such. -/
lemma RxState.elsewhere {net : Net} {i : SqIdx} {c : CqIdx} {r : RxRing} {w w' : World}
    {inp : Input} {posted : ℕ} {frames : List Bytes} {received : List (Piece UInt8)}
    (h : RxState i c r w posted frames received) (hb : Beside net i c (RxBytes r) w inp w') :
    RxElsewhere i c r w w' := by
  have hu : (w.dev.sq i).used = true := by
    rw [h.sq]
    rfl
  have hc : (w.dev.sq i).cqIdx.toNat = c.val := by
    rw [h.sq]
    exact idx_toNat c
  have hspared := hb.spared h.tables hu hc
  exact ⟨fun _ => hspared.tables,hspared.sq,hspared.cq,hspared.mem⟩

/-- A driver at its RX queue pair since the creation, with the number of buffers posted, the frames
that found room and the pieces read so far. Buffers are posted again only after they were read. -/
inductive RxRun (q : Qtest) (i : SqIdx) (c : CqIdx) : RxRing → Session → ℕ → List Bytes →
    List (Piece UInt8) → Prop
  | create {s s' : Session} {log : List (Bytes × UInt8)} {depth cqDepth : UInt16} {words : UInt8}
    {vector bufSize : UInt32} {sqBase cqBase bufBase : UInt64} {r : RxRing} (h : Calls q s log)
    (htables : TableInv s.w.dev ∧ TxIdle none s.w.dev)
    (ha : RxArgs depth cqDepth words vector bufSize sqBase cqBase bufBase)
    (hclear : RxClear (rings s.d) depth cqDepth words bufSize sqBase cqBase bufBase)
    (hread : s.w.mem.ringOk sqBase 16 depth.toNat) (hc : Lowest s.w.dev.book.cq c)
    (hi : Lowest s.w.dev.book.sq i)
    (hcreate : rxRingInit q s depth cqDepth words vector bufSize sqBase cqBase bufBase =
      .ok (r,s')) :
    RxRun q i c r s' 0 [] []
  | post {r r' : RxRing} {s s' : Session} {posted n : ℕ} {frames : List Bytes}
    {received : List (Piece UInt8)} (h : RxRun q i c r s posted frames received)
    (hn : posted + n ≤ received.length + r.depth.toNat) (hpost : rxPost q r s n = .ok (r',s')) :
    RxRun q i c r' s' (posted+n) frames received
  | receive {r : RxRing} {s : Session} {w' : World} {posted : ℕ} {frames : List Bytes}
    {received : List (Piece UInt8)} {frame : Bytes} (h : RxRun q i c r s posted frames received)
    (hs : RxSteered q.net s.w.dev frame i c) (hstep : step q.net s.w (.receive frame) = .ok w') :
    RxRun q i c r { s with w := w' } posted
      (if RxFits r (posted - (rxItems r frames).length) frame then frames ++ [frame] else frames)
        received
  | take {r r' : RxRing} {s : Session} {posted : ℕ} {frames : List Bytes}
    {received : List (Piece UInt8)} {p : Piece UInt8} (h : RxRun q i c r s posted frames received)
    (ht : rxTake r s = (some p,r')) :
    RxRun q i c r' s posted frames (received ++ [p])
  | other {r : RxRing} {s s' : Session} {posted : ℕ} {frames : List Bytes}
    {received : List (Piece UInt8)} (h : RxRun q i c r s posted frames received)
    (he : RxElsewhere i c r s.w s'.w) :
    RxRun q i c r s' posted frames received

section Run
variable {q : Qtest} {i : SqIdx} {c : CqIdx} {r : RxRing} {s : Session} {posted : ℕ}
  {frames : List Bytes} {received : List (Piece UInt8)}

/-- Every run of the driver is in step with its device. -/
lemma RxRun.state (h : RxRun q i c r s posted frames received) :
    RxState i c r s.w posted frames received := by
  induction h with
  | create h htables ha hclear hread hc hi hcreate =>
    obtain ⟨r₁,s₁,log₁,hinit,-,hnew,hbase,hdepth,-⟩ := rxRingInit_new q h ha hclear hc hi
    obtain ⟨rfl,rfl⟩ := Prod.mk.inj (Except.ok.inj (hcreate.symm.trans hinit))
    refine .create hnew htables fun k hk => ?_
    rw [hdepth] at hk
    rw [hbase,Memory.okAt,hnew.readable]
    exact hread k hk
  | post _ hn hpost ih =>
    obtain ⟨s₁,hok,hstate,-⟩ := ih.post q hn
    obtain ⟨rfl,rfl⟩ := Prod.mk.inj (Except.ok.inj (hpost.symm.trans hok))
    exact hstate
  | receive _ hs hstep ih =>
    obtain ⟨w₁,hok,hstate⟩ := ih.receive hs
    obtain rfl := Except.ok.inj (hstep.symm.trans hok)
    split_ifs at hstate ⊢
    · exact hstate.1
    · exact hstate.1
  | take _ ht ih => exact ih.take.2 _ _ ht
  | other _ he ih =>
    exact ⟨ih.pair,ih.moved,he.tables ih.tables,he.sq.trans ih.sq,ih.behind,ih.room,ih.nonempty,
      ih.holds.congr ih.pair he.cq he.mem,ih.read⟩

/-- From the creation of an RX queue pair on, whatever frames come in, whenever buffers are posted
and completions are polled, and whatever else happens on the device: the driver reads the pieces of
the frames that found room, in order; a poll finds the next piece, and fails just if there is none;
once all are read, the frames are put together again as they came; posting goes on as long as there
are buffers that were read; and a frame finds room just if the posted buffers suffice for it, and is
dropped otherwise. -/
theorem rx_end_to_end (h : RxRun q i c r s posted frames received) :
    received = (rxItems r frames).take received.length ∧
    (rxTake r s).1 = (rxItems r frames)[received.length]? ∧
    ((rxTake r s).1 = none → Piece.assemble [] received = frames) ∧
    (∀ n, posted + n ≤ received.length + r.depth.toNat → ∃ r' s', rxPost q r s n = .ok (r',s')) ∧
    ∀ frame, RxSteered q.net s.w.dev frame i c → ∃ w', step q.net s.w (.receive frame) = .ok w' ∧
      if RxFits r (posted - (rxItems r frames).length) frame then w'.dev.rxPkts = s.w.dev.rxPkts + 1
      else w' = s.w.rxDrop := by
  have hstate := h.state
  refine ⟨hstate.read,hstate.take.1,fun hnone => ?_,fun n hn => ?_,fun frame hs => ?_⟩
  · rw [hstate.take.1,List.getElem?_eq_none_iff] at hnone
    rw [hstate.read,List.take_of_length_le hnone]
    exact Piece.assemble_cut hstate.pair.bufSize.1 hstate.nonempty
  · obtain ⟨s',hpost,-⟩ := hstate.post q hn
    exact ⟨_,s',hpost⟩
  · obtain ⟨w',hstep,hout⟩ := hstate.receive hs
    refine ⟨w',hstep,?_⟩
    split_ifs at hout ⊢
    · exact hout.2
    · exact hout.2

/-- `rx_wait_cdesc` takes a piece that is there at once; otherwise it lets time pass before it looks
again. -/
theorem RxRun.wait (h : RxRun q i c r s posted frames received) (n : ℕ) :
    match (rxItems r frames)[received.length]? with
    | some p => ∃ cdesc r', rxWaitCdesc q (n+1) r s = .ok (cdesc,r',s) ∧ rxTake r s = (some p,r') ∧
        RxRun q i c r' s posted frames (received ++ [p])
    | none => rxWaitCdesc q (n+1) r s = qtestClockStep q s 1000 >>= rxWaitCdesc q n r := by
  have htake := h.state.take.1
  cases hnext : rxCqNext r s with
  | mk found r' =>
    have hpiece : rxTake r s = (found.map fun c => ⟨rxEntryFirst c,rxEntryLast c,
        qtestMemread s (rxBufAddr r' (le16At c 6)) (rxEntryLength c)⟩,r') := by
      rw [rxTake,hnext]
      cases found <;> rfl
    have hitem := htake.symm.trans (congrArg Prod.fst hpiece)
    rw [hitem]
    cases found with
    | none =>
      dsimp only [Option.map_none]
      rw [rxWaitCdesc,hnext]
    | some cdesc =>
      refine ⟨cdesc,r',?_,hpiece,h.take hpiece⟩
      rw [rxWaitCdesc,hnext]
      rfl

/-- The only RX queue gets a broadcast frame of a size that every MTU admits. -/
lemma RxState.steered (h : RxState i c r s.w posted frames received) (net : Net) (frame : Bytes)
    (hno : ∀ j ≠ i, (s.w.dev.sq j).usedRx = false) (hmin : ethHlen ≤ frame.length)
    (hmax : frame.length ≤ 146) (hgroup : groupBit frame = true) :
    RxSteered net s.w.dev frame i c := by
  have hmtu : 128 ≤ s.w.dev.mtu.toNat := h.tables.1.mtu.1
  have hsq : (s.w.dev.sq i).usedRx = true ∧ (s.w.dev.sq i).cqIdx.toNat = c.val := by
    rw [h.sq]
    exact ⟨rfl,idx_toNat c⟩
  obtain ⟨pushed,entries,hinv,-⟩ := h.holds.channel
  refine ⟨⟨?_,hmin,.inl hgroup⟩,?_,hsq.2,hinv.used⟩
  · rw [h.tables.1.maxFrame]
    omega
  · cases hrss : enaRxSq s.w.dev (enaRssHash net s.w.dev frame) with
    | none => exact absurd ((usedRx_iff _).mp hsq.1) (enaRxSq_eq_none.mp hrss i)
    | some j =>
      have hused := (usedRx_iff _).mpr (enaRxSq_used hrss)
      by_cases hj : j = i
      · rw [hj]
      · rw [hno j hj] at hused
        cases hused

end Run
/-- Queues that a frame is not steered to stay unused. -/
lemma received_others {net : Net} {w w' : World} {frame : Bytes} {i : SqIdx} {c : CqIdx}
    (hw : TableInv w.dev) (hs : RxSteered net w.dev frame i c)
    (hstep : step net w (.receive frame) = .ok w') (hno : ∀ j ≠ i, (w.dev.sq j).usedRx = false) :
    ∀ j ≠ i, (w'.dev.sq j).usedRx = false := by
  intro j hj
  have hout : RxOutcome net w frame w' := (enaRxReceiveIov_outcome net frame hw).of_ok hstep
  rw [hout.sq_of_ne fun k d hk => (hs.unique hk) ▸ hj.symm]
  exact hno j hj

/-- A broadcast frame comes in while no other RX queue is in use. -/
lemma RxRun.arrives {q : Qtest} {i : SqIdx} {c : CqIdx} {r : RxRing} {s : Session} {posted : ℕ}
    {frames : List Bytes} {received : List (Piece UInt8)}
    (h : RxRun q i c r s posted frames received) (frame : Bytes)
    (hno : ∀ j ≠ i, (s.w.dev.sq j).usedRx = false) (hmin : ethHlen ≤ frame.length)
    (hmax : frame.length ≤ 146) (hgroup : groupBit frame = true) :
    ∃ w', RxRun q i c r { s with w := w' } posted
      (if RxFits r (posted - (rxItems r frames).length) frame then frames ++ [frame] else frames)
      received ∧ ∀ j ≠ i, (w'.dev.sq j).usedRx = false := by
  have hsteered := h.state.steered q.net frame hno hmin hmax hgroup
  obtain ⟨w',hstep,-⟩ := h.state.receive hsteered
  exact ⟨w',h.receive hsteered hstep,received_others h.state.tables.1 hsteered hstep hno⟩

/-- The next piece can be taken, which changes the driver's place in the CQ only. -/
lemma RxState.next {i : SqIdx} {c : CqIdx} {r : RxRing} {s : Session} {posted : ℕ}
    {frames : List Bytes} {received : List (Piece UInt8)} {p : Piece UInt8}
    (h : RxState i c r s.w posted frames received)
    (hp : (rxItems r frames)[received.length]? = some p) :
    ∃ r', rxTake r s = (some p,r') ∧ r'.bufSize = r.bufSize ∧ r'.depth = r.depth := by
  refine ⟨_,Prod.ext (h.take.1.trans hp) rfl,?_⟩
  unfold rxTake rxCqNext
  dsimp only
  split_ifs <;> exact ⟨rfl,rfl⟩

/-- Broadcast frames for one buffer of 64 bytes and for two. -/
def shortFrame : Bytes := List.replicate 60 0xff

def longFrame : Bytes := List.replicate 100 0xff

/-- With three buffers posted, a long and a short frame are delivered and another long one is
dropped. Time passes, the driver reads the two pieces of the first and posts two more buffers. -/
theorem rx_end_to_end_reposted : ∃ r s,
    RxRun plainQtest 0 0 r s 5 [longFrame,shortFrame]
      [⟨true,false,longFrame.take 64⟩,⟨false,true,longFrame.drop 64⟩] ∧
    (rxTake r s).1 = some ⟨true,true,shortFrame⟩ := by
  obtain ⟨s,-,hcalls,haq,hacq,hcqs,hsqs,htables,hread⟩ := exists_freshCalls
  have hargs : RxArgs 16 16 4 1 64 0x5000 0x4000 0x6000 := by
    refine ⟨⟨by decide,.inr (.inl rfl),.inr (by decide),by decide,by decide⟩,by decide,by decide,
      by decide,by decide,by decide,by decide,?_,?_,?_⟩
    · exact (apart_of_le (by decide) (by decide)).symm
    · exact apart_of_le (by decide) (by decide)
    · exact apart_of_le (by decide) (by decide)
  have hclear : RxClear (rings s.d) 16 16 4 64 0x5000 0x4000 0x6000 := by
    refine ⟨?_,?_,?_⟩ <;> exact rings_clear haq hacq (by decide) (by decide)
  have hring : s.w.mem.ringOk 0x5000 16 (16 : UInt16).toNat := ringOk_fresh hread _ _ _
  have hc : Lowest s.w.dev.book.cq 0 := lowest_zero hcqs
  have hi : Lowest s.w.dev.book.sq 0 := lowest_zero fun i => (booked_sq _ i).mpr (hsqs i)
  obtain ⟨r,s₁,log,hinit,-,hnew,-,hdepth,hsize⟩ :=
    rxRingInit_new plainQtest hcalls hargs hclear hc hi
  have hrun := RxRun.create (q := plainQtest) hcalls htables hargs hclear hring hc hi hinit
  -- three buffers are posted
  have hn : 0 + 3 ≤ ([] : List (Piece UInt8)).length + r.depth.toNat := by
    rw [hdepth]
    decide
  obtain ⟨s₂,hpost,-,hothers⟩ := hrun.state.post plainQtest hn
  have hposted := hrun.post hn hpost
  have hsize₂ : (r.moved (0+3)).bufSize = 64 := hsize
  have hdepth₂ : (r.moved (0+3)).depth = 16 := hdepth
  generalize r.moved (0+3) = r₂ at hposted hsize₂ hdepth₂
  have hno₂ : ∀ j ≠ (0 : SqIdx), (s₂.w.dev.sq j).usedRx = false := by
    intro j hj
    rw [hothers j hj,hnew.sqs,Function.update_of_ne hj,EnaSq.usedRx,hsqs j]
    rfl
  -- two frames find room, the third does not
  obtain ⟨w₃,hreceived₃,hno₃⟩ := hposted.arrives longFrame hno₂ (by decide) (by decide) (by decide)
  rw [if_pos (by rw [RxFits,rxItems,hsize₂]; decide)] at hreceived₃
  obtain ⟨w₄,hreceived₄,hno₄⟩ :=
    hreceived₃.arrives shortFrame hno₃ (by decide) (by decide) (by decide)
  rw [if_pos (by rw [RxFits,rxItems,hsize₂]; decide)] at hreceived₄
  obtain ⟨w₅,hreceived₅,-⟩ :=
    hreceived₄.arrives longFrame hno₄ (by decide) (by decide) (by decide)
  rw [if_neg (by rw [RxFits,rxItems,hsize₂]; decide)] at hreceived₅
  -- time passes, two pieces are read and their buffers posted again
  have hticked : RxRun plainQtest 0 0 r₂ ⟨s₂.d,{ w₅ with clock := w₅.clock + 1000 }⟩ _ _ _ :=
    hreceived₅.other
    (hreceived₅.state.elsewhere (.ticks plainQtest.net 0 0 w₅ 1000))
  obtain ⟨r₃,htake₃,hsize₃,hdepth₃⟩ := hticked.state.next (p := ⟨true,false,longFrame.take 64⟩)
    (by rw [rxItems,hsize₂]; decide)
  have htaken₃ := hticked.take htake₃
  rw [hsize₂] at hsize₃
  obtain ⟨r₄,htake₄,hsize₄,hdepth₄⟩ := htaken₃.state.next (p := ⟨false,true,longFrame.drop 64⟩)
    (by rw [rxItems,hsize₃]; decide)
  have htaken₄ := htaken₃.take htake₄
  rw [hsize₃] at hsize₄
  rw [hdepth₃,hdepth₂] at hdepth₄
  obtain ⟨s₆,hpost₆,-⟩ := htaken₄.state.post plainQtest (n := 2) (by rw [hdepth₄]; decide)
  have hreposted := htaken₄.post (by rw [hdepth₄]; decide) hpost₆
  have hnext := (rx_end_to_end hreposted).2.1
  refine ⟨_,_,hreposted,hnext.trans ?_⟩
  have hsize₅ : (r₄.moved (0+3+2)).bufSize = 64 := hsize₄
  rw [rxItems,hsize₅]
  decide

end EnaDevice.Driver
