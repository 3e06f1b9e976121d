import EnaDevice.Cq.Push

/-! The two loops of `ena_rx_receive_iov`: which descriptors are collected for a frame, and what
writing the frame into them does. -/
namespace EnaDevice
open Bytes Result

/-- Number of descriptors between head and tail. -/
def EnaSq.avail (sq : EnaSq) : ℕ := (sq.tail - sq.head).toNat

/-- Bytes that a list of descriptors has room for. -/
def rxCapacity (ds : List EnaRxDesc) : ℕ := (ds.map EnaRxDesc.size).sum

@[simp] lemma rxCapacity_nil : rxCapacity [] = 0 := rfl

@[simp] lemma rxCapacity_cons (d : EnaRxDesc) (ds : List EnaRxDesc) :
    rxCapacity (d::ds) = d.size + rxCapacity ds := by simp [rxCapacity]

@[simp] lemma rxCapacity_append (ds es : List EnaRxDesc) :
    rxCapacity (ds ++ es) = rxCapacity ds + rxCapacity es := by simp [rxCapacity]

lemma EnaRxDesc.size_pos (d : EnaRxDesc) : 0 < d.size := by
  unfold EnaRxDesc.size
  split_ifs with h
  · norm_num
  · exact Nat.pos_of_ne_zero fun hz => h (UInt16.toNat_inj.mp hz)

/-- The posted descriptor at a position reads back and is accepted. -/
def GoodDesc (m : Memory) (sq : EnaSq) (n : ℕ) (d : EnaRxDesc) : Prop :=
  enaRxRead m sq n = some d ∧ d.valid sq = true

/-- Good descriptors from the head on, of which no proper part has room for the frame. -/
structure RxPrefix (m : Memory) (sq : EnaSq) (len : ℕ) (ds : List EnaRxDesc) : Prop where
  good : ∀ n d, ds[n]? = some d → GoodDesc m sq n d
  least : ∀ n < ds.length, rxCapacity (ds.take n) < len
  avail : ds.length ≤ sq.avail
  max : ds.length ≤ enaMaxPktDescs

/-- Outcomes of collecting descriptors for a frame of `len` bytes. -/
inductive RxCollected (m : Memory) (sq : EnaSq) (len : ℕ) : RxCollect → Prop
  | done {ds : List EnaRxDesc} (hp : RxPrefix m sq len ds) (hcap : len ≤ rxCapacity ds) :
    RxCollected m sq len (.done ds)
  | short {ds : List EnaRxDesc} (hp : RxPrefix m sq len ds) (hcap : rxCapacity ds < len)
    (hend : ds.length = sq.avail ∨ ds.length = enaMaxPktDescs) : RxCollected m sq len .short
  | bad {ds : List EnaRxDesc} (hp : RxPrefix m sq len ds) (hcap : rxCapacity ds < len)
    (hlt : ds.length < sq.avail) (hmax : ds.length < enaMaxPktDescs)
    (hbad : ∀ d, ¬ GoodDesc m sq ds.length d) :
    RxCollected m sq len (.bad ds.length)

lemma RxPrefix.nil (m : Memory) (sq : EnaSq) (len : ℕ) : RxPrefix m sq len [] where
  good n d h := by simp at h
  least n h := absurd h (Nat.not_lt_zero n)
  avail := Nat.zero_le _
  max := Nat.zero_le _

lemma RxPrefix.append {m : Memory} {sq : EnaSq} {len : ℕ} {ds : List EnaRxDesc} {d : EnaRxDesc}
    (h : RxPrefix m sq len ds) (hcap : rxCapacity ds < len) (hd : GoodDesc m sq ds.length d)
    (ha : ds.length < sq.avail) (hm : ds.length < enaMaxPktDescs) :
    RxPrefix m sq len (ds ++ [d]) where
  good n e he := by
    rcases Nat.lt_or_ge n ds.length with hn | hn
    · rw [List.getElem?_append_left hn] at he
      exact h.good n e he
    · rw [List.getElem?_append_right hn,List.getElem?_singleton] at he
      split_ifs at he with hz
      cases he
      rwa [show n = ds.length by omega]
  least n hn := by
    rw [List.length_append,List.length_singleton] at hn
    rcases Nat.lt_or_ge n ds.length with hlt | hge
    · rw [List.take_append_of_le_length hlt.le]
      exact h.least n hlt
    · rw [show n = ds.length by omega,List.take_left]
      exact hcap
  avail := by
    rw [List.length_append]
    exact ha
  max := by
    rw [List.length_append]
    exact hm

theorem enaRxCollectFrom_spec {E : Fault → Prop} {m : Memory} {sq : EnaSq} {len fuel : ℕ}
    {ds : List EnaRxDesc} (h : RxPrefix m sq len ds) (hfuel : enaMaxPktDescs ≤ fuel + ds.length) :
    Holds E (RxCollected m sq len)
      (enaRxCollectFrom m sq len fuel ds (rxCapacity ds)) := by
  induction fuel generalizing ds with
  | zero =>
    unfold enaRxCollectFrom
    refine holds_ite (fun hc => holds_pure (.done h hc)) fun hc => ?_
    rw [if_pos (.inr (le_antisymm h.max (by omega)))]
    exact holds_pure (.short h (Nat.lt_of_not_le hc) (.inr (le_antisymm h.max (by omega))))
  | succ fuel ih =>
    unfold enaRxCollectFrom
    refine holds_ite (fun hc => holds_pure (.done h hc)) fun hc => ?_
    have hcap : rxCapacity ds < len := Nat.lt_of_not_le hc
    refine holds_ite (fun hend => holds_pure (.short h hcap hend)) fun hend => ?_
    rw [not_or] at hend
    have ha : ds.length < sq.avail := lt_of_le_of_ne h.avail hend.1
    have hm : ds.length < enaMaxPktDescs := lt_of_le_of_ne h.max hend.2
    simp only [hm, decide_true, check_true, ok_bind]
    cases hr : enaRxRead m sq ds.length with
    | none =>
      refine holds_pure (.bad h hcap ha hm ?_)
      intro d hd
      rw [GoodDesc,hr] at hd
      cases hd.1
    | some d =>
      refine holds_ite (fun hv => ?_) fun hv => ?_
      · have hnext := ih (h.append hcap ⟨hr,hv⟩ ha hm) (by
          rw [List.length_append,List.length_singleton]
          omega)
        simpa using hnext
      · refine holds_pure (.bad h hcap ha hm ?_)
        intro e he
        rw [GoodDesc,hr] at he
        cases he.1
        exact hv he.2

/-- The part of a frame that goes into one descriptor's buffer. -/
structure RxPiece where
  desc : EnaRxDesc
  off : ℕ
  len : ℕ

def RxPiece.bytes (frame : Bytes) (p : RxPiece) : Bytes := (frame.drop p.off).take p.len

/-- How a frame of `len` bytes is cut, from an offset on. -/
def rxPieces (len : ℕ) : List EnaRxDesc → ℕ → List RxPiece
  | [], _ => []
  | d::ds, off =>
    ⟨d,off,min d.size (len - off)⟩ :: rxPieces len ds (off + min d.size (len - off))

/-- The completion of one descriptor. -/
def rxCompletion (status hash : UInt32) (i : SqIdx) (first last : Bool) (chunk : ℕ) (d : EnaRxDesc)
    (phase : Bool) : Bytes :=
  rxCdesc phase (status ||| (if first then rxCdescFirst else 0) |||
    (if last then rxCdescLast else 0)) (UInt16.ofNat chunk) d.reqId hash (UInt16.ofNat i) d.addr

/-- The world after the collected descriptors were filled and completed. -/
def rxScattered (i : SqIdx) (c : CqIdx) (frame : Bytes) (status hash : UInt32) :
    List EnaRxDesc → Bool → ℕ → World → World
  | [], _, _, w => w
  | d::ds, first, off, w =>
    let chunk := min d.size (frame.length - off)
    let w := enaDmaWrite w (.rxBuf i) d.addr ((frame.drop off).take chunk)
    rxScattered i c frame status hash ds false (off + chunk)
      (w.cqPushed c (rxCompletion status hash i first ds.isEmpty chunk d (w.dev.cq c).phase))

theorem enaRxScatter_eq {i : SqIdx} {c : CqIdx} {frame : Bytes} {status hash : UInt32}
    (ds : List EnaRxDesc) {first : Bool} {off : ℕ} {w : World} (hu : (w.dev.cq c).used = true)
    (he : (w.dev.cq c).entrySize.toNat ≤ 32) :
    enaRxScatter i c frame status hash ds first off w =
      .ok (rxScattered i c frame status hash ds first off w,
        off + ((rxPieces frame.length ds off).map RxPiece.len).sum) := by
  induction ds generalizing first off w with
  | nil => rfl
  | cons d ds ih =>
    unfold enaRxScatter rxScattered
    dsimp only
    generalize hw : enaDmaWrite w (.rxBuf i) d.addr
      ((frame.drop off).take (min d.size (frame.length - off))) = w₁
    have hdev : w₁.dev = w.dev := by rw [← hw]; rfl
    rw [← hdev] at hu he
    unfold enaRxPushCdesc
    simp only [he, decide_true, check_true, ok_bind]
    rw [enaCqPush_eq _ hu,ok_bind,
      ih (by rw [cqPushed_cq]; exact hu) (by rw [cqPushed_cq]; exact he)]
    simp only [rxPieces, List.map_cons, List.sum_cons, Nat.add_assoc]
    rfl

/-- The descriptors that were collected take the whole frame. -/
lemma rxPieces_sum (len : ℕ) (ds : List EnaRxDesc) (off : ℕ) :
    ((rxPieces len ds off).map RxPiece.len).sum = min (rxCapacity ds) (len - off) := by
  induction ds generalizing off with
  | nil => simp [rxPieces]
  | cons d ds ih =>
    rw [rxPieces,List.map_cons,List.sum_cons,ih,rxCapacity_cons]
    dsimp only
    omega

/-- What collecting does to the queue. -/
def World.rxCollected (w : World) (i : SqIdx) : RxCollect → World × Option (List EnaRxDesc)
  | .done ds => (w,some ds)
  | .short => (w,none)
  | .bad n =>
    (w.setSq i { w.dev.sq i with head := (w.dev.sq i).head + UInt16.ofNat (n+1) },none)

theorem enaRxCollect_spec {E : Fault → Prop} (w : World) (i : SqIdx) (len : ℕ) :
    Holds E (fun r => ∃ o, RxCollected w.mem (w.dev.sq i) len o ∧ r = w.rxCollected i o)
      (enaRxCollect w i len) := by
  unfold enaRxCollect
  refine holds_bind (enaRxCollectFrom_spec (.nil w.mem (w.dev.sq i) len) (by simp)) fun o _ ho => ?_
  cases o with
  | done ds => exact holds_pure ⟨_,ho,rfl⟩
  | short => exact holds_pure ⟨_,ho,rfl⟩
  | bad n => exact holds_pure ⟨_,ho,rfl⟩

/-- Head and counters after a delivery. -/
def World.rxTook (w : World) (i : SqIdx) (n len : ℕ) : World :=
  let w := w.setSq i { w.dev.sq i with head := (w.dev.sq i).head + UInt16.ofNat n }
  w.setDev { w.dev with
    rxPkts := w.dev.rxPkts + 1
    rxBytes := w.dev.rxBytes + UInt64.ofNat len }

theorem enaRxDeliver_eq (net : Net) {w : World} (i : SqIdx) {c : CqIdx} {frame : Bytes}
    (hash : UInt32) {ds : List EnaRxDesc} (hu : (w.dev.cq c).used = true)
    (he : (w.dev.cq c).entrySize.toNat ≤ 32) (hcap : frame.length ≤ rxCapacity ds) :
    enaRxDeliver net w i c frame hash ds =
      .ok (enaCqIntr ((rxScattered i c frame (enaRxStatus net frame) hash ds true 0 w).rxTook i
        ds.length frame.length) c false) := by
  have hoff : 0 + ((rxPieces frame.length ds 0).map RxPiece.len).sum = frame.length := by
    rw [rxPieces_sum]
    omega
  unfold enaRxDeliver
  rw [enaRxScatter_eq ds hu he,ok_bind]
  simp only [hoff, decide_true, check_true, ok_bind]
  rfl

/-- The queue that a frame is steered to is a used RX queue. -/
lemma usedRx_iff (q : EnaSq) : q.usedRx = true ↔ q.used = true ∧ q.isTx = false := by
  rw [EnaSq.usedRx,Bool.and_eq_true,Bool.not_eq_true']

lemma enaRxSq_used {s : EnaState} {hash : UInt32} {i : SqIdx} (h : enaRxSq s hash = some i) :
    (s.sq i).used = true ∧ (s.sq i).isTx = false := by
  have husable : (s.sq i).usedRx = true := by
    unfold enaRxSq at h
    dsimp only at h
    split_ifs at h with hidx
    · cases h
      exact hidx.snd
    · have hfound := List.find?_some h
      exact hfound
  exact (usedRx_iff _).mp husable

/-- Frames for this device: of an accepted length, and for its address or a group. -/
structure RxAccepts (s : EnaState) (frame : Bytes) : Prop where
  max : frame.length ≤ (s.mtu + 14 + 4).toNat
  min : ethHlen ≤ frame.length
  address : groupBit frame = true ∨ frame.take ethAlen = List.ofFn s.macaddr

/-- An accepted frame, the queue it is steered to and the CQ of that queue. -/
structure RxSteered (net : Net) (s : EnaState) (frame : Bytes) (i : SqIdx) (c : CqIdx) : Prop where
  accepts : RxAccepts s frame
  sq : enaRxSq s (enaRssHash net s frame) = some i
  cqIdx : (s.sq i).cqIdx.toNat = c.val
  cq : (s.cq c).used = true

/-- What becomes of a received frame. -/
inductive RxOutcome (net : Net) (w : World) (frame : Bytes) : World → Prop
  | ignored (h : ¬ RxAccepts w.dev frame) : RxOutcome net w frame w
  | dropped (h : ∀ i c, ¬ RxSteered net w.dev frame i c) : RxOutcome net w frame w.rxDrop
  | short {i : SqIdx} {c : CqIdx} {ds : List EnaRxDesc} (hs : RxSteered net w.dev frame i c)
    (hp : RxPrefix w.mem (w.dev.sq i) frame.length ds) (hcap : rxCapacity ds < frame.length)
    (hend : ds.length = (w.dev.sq i).avail ∨ ds.length = enaMaxPktDescs) :
    RxOutcome net w frame w.rxDrop
  | bad {i : SqIdx} {c : CqIdx} {ds : List EnaRxDesc} (hs : RxSteered net w.dev frame i c)
    (hp : RxPrefix w.mem (w.dev.sq i) frame.length ds) (hcap : rxCapacity ds < frame.length)
    (hlt : ds.length < (w.dev.sq i).avail) (hmax : ds.length < enaMaxPktDescs)
    (hbad : ∀ d, ¬ GoodDesc w.mem (w.dev.sq i) ds.length d) :
    RxOutcome net w frame (w.setSq i
      { w.dev.sq i with head := (w.dev.sq i).head + UInt16.ofNat (ds.length+1) }).rxDrop
  | delivered {i : SqIdx} {c : CqIdx} {ds : List EnaRxDesc} (hs : RxSteered net w.dev frame i c)
    (hp : RxPrefix w.mem (w.dev.sq i) frame.length ds) (hcap : frame.length ≤ rxCapacity ds) :
    RxOutcome net w frame (enaCqIntr ((rxScattered i c frame (enaRxStatus net frame)
      (enaRssHash net w.dev frame) ds true 0 w).rxTook i ds.length frame.length) c false)

/-- Receiving a frame never aborts. -/
theorem enaRxReceiveIov_outcome {w : World} (net : Net) (frame : Bytes) (hw : TableInv w.dev) :
    Holds (fun _ => False) (RxOutcome net w frame) (enaRxReceiveIov net w frame) := by
  unfold enaRxReceiveIov
  refine holds_ite (fun hlen => holds_pure (.dropped ?_)) fun hlen => ?_
  · intro i c hs
    exact absurd hs.accepts.max (Nat.not_le.mpr hlen)
  have hfit : frame.length ≤ enaRxMaxFrame := by
    rw [hw.maxFrame] at hlen
    have hmax := hw.mtu.2
    simp only [enaRxMaxFrame, ethHlen, show enaMaxMtu.toNat = 9000 from rfl]
    omega
  simp only [hfit, decide_true, check_true, ok_bind]
  refine holds_ite (fun hskip => holds_pure (.ignored ?_)) fun hskip => ?_
  · rintro ⟨-,hmin,haddr⟩
    rcases hskip with hshort | ⟨hgroup,hmac⟩
    · exact absurd hmin (Nat.not_le.mpr hshort)
    · rcases haddr with hg | hm
      · simp [hg] at hgroup
      · exact hmac hm
  have haccepts : RxAccepts w.dev frame := by
    rw [not_or] at hskip
    refine ⟨Nat.le_of_not_lt hlen,Nat.le_of_not_lt hskip.1,?_⟩
    by_contra hother
    rw [not_or] at hother
    exact hskip.2 ⟨by simpa using hother.1,hother.2⟩
  split
  · rename_i hnone
    refine holds_pure (.dropped fun i c hs => ?_)
    rw [hs.sq] at hnone
    cases hnone
  rename_i i hi
  obtain ⟨hu,-⟩ := enaRxSq_used hi
  obtain ⟨c,hc,huc,-⟩ := (hw.sq i hu).cq
  rw [cqAt_eq hc,ok_bind]
  simp only [huc, Bool.not_true, Bool.false_eq_true, if_false]
  have hs : RxSteered net w.dev frame i c := ⟨haccepts,hi,hc,huc⟩
  refine holds_bind (enaRxCollect_spec w i frame.length) ?_
  rintro _ - ⟨o,ho,rfl⟩
  cases ho with
  | short hp hcap hend => exact holds_pure (.short hs hp hcap hend)
  | bad hp hcap hlt hmax hbad => exact holds_pure (.bad hs hp hcap hlt hmax hbad)
  | @done ds hp hcap =>
    dsimp only [World.rxCollected]
    rw [enaRxDeliver_eq net i _ huc (hw.cq c huc).entrySize_le hcap]
    exact holds_pure (.delivered hs hp hcap)

end EnaDevice
