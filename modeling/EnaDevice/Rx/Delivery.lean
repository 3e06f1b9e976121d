import EnaDevice.Invariant.Safety
import EnaDevice.Lib.Bits

/-! RX delivery is exact and all-or-nothing. A frame is cut into pieces, one for each collected
descriptor; each piece is written to the descriptor's buffer and completed once. -/
namespace EnaDevice
open Bytes Result

section Pieces
variable {len : ℕ}

lemma rxPieces_desc (ds : List EnaRxDesc) (off : ℕ) :
    (rxPieces len ds off).map RxPiece.desc = ds := by
  induction ds generalizing off with
  | nil => rfl
  | cons d ds ih => rw [rxPieces,List.map_cons,ih]

@[simp] lemma rxPieces_length (ds : List EnaRxDesc) (off : ℕ) :
    (rxPieces len ds off).length = ds.length := by
  rw [← List.length_map,rxPieces_desc]

/-- Descriptors that have room for the frame from an offset on, and none of whose proper parts
has. -/
structure Covers (len : ℕ) (ds : List EnaRxDesc) (off : ℕ) : Prop where
  least : ∀ n < ds.length, off + rxCapacity (ds.take n) < len
  enough : len ≤ off + rxCapacity ds

/-- A piece fits its descriptor, is not empty, and fills the descriptor unless it is the last. -/
structure RxPiece.Fits (p : RxPiece) (last : Prop) : Prop where
  pos : 0 < p.len
  le : p.len ≤ p.desc.size
  full : ¬ last → p.len = p.desc.size

lemma Covers.tail {d : EnaRxDesc} {ds : List EnaRxDesc} {off : ℕ} (h : Covers len (d::ds) off) :
    Covers len ds (off + min d.size (len - off)) := by
  have henough := h.enough
  rw [rxCapacity_cons] at henough
  have hoff := h.least 0 (Nat.succ_pos _)
  rw [List.take_zero,rxCapacity_nil] at hoff
  constructor
  · intro n hn
    have hlt := h.least (n+1) (Nat.succ_lt_succ hn)
    rw [List.take_succ_cons,rxCapacity_cons] at hlt
    omega
  · omega

lemma Covers.fits {ds : List EnaRxDesc} {off : ℕ} (h : Covers len ds off) (n : ℕ) (p : RxPiece)
    (hp : (rxPieces len ds off)[n]? = some p) : p.Fits (n+1 = ds.length) := by
  induction ds generalizing off n with
  | nil => simp [rxPieces] at hp
  | cons d ds ih =>
    have hoff := h.least 0 (Nat.succ_pos _)
    rw [List.take_zero,rxCapacity_nil] at hoff
    cases n with
    | zero =>
      cases hp
      have hsize := d.size_pos
      refine ⟨?_,min_le_left _ _,?_⟩
      · change 0 < min d.size (len - off)
        omega
      · intro hlast
        cases ds with
        | nil => exact absurd rfl hlast
        | cons e es =>
          have hlt := h.least 1 (by simp)
          rw [List.take_succ_cons,List.take_zero,rxCapacity_cons,rxCapacity_nil] at hlt
          change min d.size (len - off) = d.size
          omega
    | succ n =>
      rw [rxPieces,List.getElem?_cons_succ] at hp
      have hfit := ih h.tail n hp
      refine ⟨hfit.pos,hfit.le,fun hlast => hfit.full fun hn => hlast ?_⟩
      rw [List.length_cons,hn]

/-- The pieces put together again are the frame. -/
lemma Covers.flatten {frame : Bytes} {ds : List EnaRxDesc} {off : ℕ}
    (h : Covers frame.length ds off) (hoff : off ≤ frame.length) :
    ((rxPieces frame.length ds off).map (RxPiece.bytes frame)).flatten = frame.drop off := by
  induction ds generalizing off with
  | nil =>
    have henough := h.enough
    rw [rxCapacity_nil] at henough
    rw [List.drop_eq_nil_of_le (by omega)]
    rfl
  | cons d ds ih =>
    rw [rxPieces,List.map_cons,List.flatten_cons,ih h.tail (by omega)]
    change (frame.drop off).take (min d.size (frame.length - off)) ++ _ = _
    rw [← List.drop_drop,List.take_append_drop]

end Pieces

/-- The entry of a completion says what a piece is: its length, request id and place in the
frame. -/
structure CompletesRx (entry : Bytes) (p : RxPiece) (hash : UInt32) (i : SqIdx)
    (first last : Prop) :
    Prop where
  length : (le16At entry 4).toNat = p.len
  reqId : le16At entry 6 = p.desc.reqId
  hash : le32At entry 8 = hash
  subQid : (le16At entry 12).toNat = i.val
  first : le32At entry 0 &&& rxCdescFirst ≠ 0 ↔ first
  last : le32At entry 0 &&& rxCdescLast ≠ 0 ↔ last

/-- The parsing results of a frame leave the bits that mark its first and last piece clear, and the
phase bit. -/
lemma enaRxStatus_clear (net : Net) (frame : Bytes) :
    enaRxStatus net frame &&& ((rxCdescFirst ||| rxCdescLast) ||| bit 24) = 0 := by
  unfold enaRxStatus
  generalize net.netRxPktGetProtocols frame = p
  generalize net.netRxPktIp4Fragment frame = frag
  generalize net.netRxPktValidateL3Csum frame = l3
  generalize net.netRxPktValidateL4Csum frame = l4
  obtain ⟨ip4,ip6,proto⟩ := p
  cases ip4 <;> cases ip6 <;> cases proto <;> cases frag <;> rcases l3 with _ | _ | _ <;>
    rcases l4 with _ | _ | _ <;> rfl

lemma enaRxStatus_bits (net : Net) (frame : Bytes) :
    enaRxStatus net frame &&& (rxCdescFirst ||| rxCdescLast) = 0 :=
  (Bits.and_eq_zero_of_or (enaRxStatus_clear net frame)).1

/-- The status word of a completion marks what it is asked to mark. -/
lemma rxStatus_marks {status : UInt32} (h : status &&& (rxCdescFirst ||| rxCdescLast) = 0)
    (phase first last : Bool) :
    let bits := status ||| (if first then rxCdescFirst else 0) ||| (if last then rxCdescLast else 0)
    let word := if phase then bits ||| bit 24 else bits
    (word &&& rxCdescFirst ≠ 0 ↔ first = true) ∧ (word &&& rxCdescLast ≠ 0 ↔ last = true) := by
  obtain ⟨hf,hl⟩ := Bits.and_eq_zero_of_or h
  cases phase <;> cases first <;> cases last <;> 
    simp only [Bool.false_eq_true, if_true, if_false, Bits.or_and, hf, hl] <;> decide

section
variable (phase : Bool) (status : UInt32) (length reqId : UInt16) (hash : UInt32) (subQid : UInt16)
  (addr : UInt64)

lemma rxCdesc_status : le32At (rxCdesc phase status length reqId hash subQid addr) 0 =
    if phase then status ||| bit 24 else status := le32At_ofLe32 _ []

lemma rxCdesc_len : le16At (rxCdesc phase status length reqId hash subQid addr) 4 = length :=
  le16At_ofLe16 length []

lemma rxCdesc_reqId : le16At (rxCdesc phase status length reqId hash subQid addr) 6 = reqId :=
  le16At_ofLe16 reqId []

lemma rxCdesc_hash : le32At (rxCdesc phase status length reqId hash subQid addr) 8 = hash :=
  le32At_ofLe32 hash []

lemma rxCdesc_subQid : le16At (rxCdesc phase status length reqId hash subQid addr) 12 = subQid :=
  le16At_ofLe16 subQid []

end

lemma rxCompletion_completes {status hash : UInt32} {i : SqIdx} {p : RxPiece} {first last : Bool}
    {n : ℕ} (phase : Bool) (hstatus : status &&& (rxCdescFirst ||| rxCdescLast) = 0) (hn : 16 ≤ n)
    (hlen : p.len < 65536) :
    CompletesRx ((rxCompletion status hash i first last p.len p.desc phase).take n) p hash i
      (first = true) (last = true) := by
  have hmarks := rxStatus_marks hstatus phase first last
  refine ⟨?_,?_,?_,?_,?_,?_⟩
  · rw [le16At_take (by omega),rxCompletion,rxCdesc_len,UInt16.toNat_ofNat',Nat.mod_eq_of_lt hlen]
  · rw [le16At_take (by omega),rxCompletion,rxCdesc_reqId]
  · rw [le32At_take (by omega),rxCompletion,rxCdesc_hash]
  · rw [le16At_take (by omega),rxCompletion,rxCdesc_subQid,UInt16.toNat_ofNat',
      Nat.mod_eq_of_lt (by omega)]
  · rw [le32At_take (by omega),rxCompletion,rxCdesc_status]
    exact hmarks.1
  · rw [le32At_take (by omega),rxCompletion,rxCdesc_status]
    exact hmarks.2

/-- Writes into RX buffers: the queue, the address and the bytes. -/
def Event.bufferWrite : Event → Option (SqIdx × UInt64 × Bytes)
  | .dmaWrite (.rxBuf i) _ addr data => some (i,addr,data)
  | _ => none

/-- Completions: the CQ, the address of the entry and its bytes. -/
def Event.completion : Event → Option (CqIdx × UInt64 × Bytes)
  | .dmaWrite (.cq c) _ addr data => some (c,addr,data)
  | _ => none

lemma cqPushed_trace (w : World) (c : CqIdx) (cdesc : Bytes) :
    (w.cqPushed c cdesc).trace = w.trace ++ [.dmaWrite (.cq c) w.dev (w.dev.cq c).slotAddr
      (cdesc.take (w.dev.cq c).entrySize.toNat)] := rfl

/-- Completions of pieces in order, in the slots that follow one another. -/
structure CompletesAll (cs : List (CqIdx × UInt64 × Bytes)) (ps : List RxPiece) (q : EnaCq)
    (c : CqIdx) (hash : UInt32) (i : SqIdx) (first : Prop) : Prop where
  length : cs.length = ps.length
  entry : ∀ j p, ps[j]? = some p → ∃ entry, cs[j]? = some (c,(EnaCq.advance^[j] q).slotAddr,entry) ∧
    CompletesRx entry p hash i (first ∧ j = 0) (j+1 = ps.length)

lemma CompletesAll.cons {cs : List (CqIdx × UInt64 × Bytes)} {ps : List RxPiece} {q : EnaCq}
    {c : CqIdx} {hash : UInt32} {i : SqIdx} {first : Prop} {entry : Bytes} {p : RxPiece}
    (h : CompletesAll cs ps q.advance c hash i False)
    (hp : CompletesRx entry p hash i first (ps = [])) :
    CompletesAll ((c,q.slotAddr,entry)::cs) (p::ps) q c hash i first where
  length := by rw [List.length_cons,List.length_cons,h.length]
  entry j p' hp' := by
    cases j with
    | zero =>
      cases hp'
      refine ⟨entry,rfl,hp.length,hp.reqId,hp.hash,hp.subQid,hp.first.trans (by simp),?_⟩
      rw [hp.last,← List.length_eq_zero_iff,List.length_cons]
      omega
    | succ j =>
      rw [List.getElem?_cons_succ] at hp'
      obtain ⟨e,he,hc⟩ := h.entry j p' hp'
      refine ⟨e,by rw [List.getElem?_cons_succ,he,Function.iterate_succ_apply],hc.length,hc.reqId,
        hc.hash,hc.subQid,hc.first.trans (by simp),hc.last.trans ?_⟩
      rw [List.length_cons]
      omega

section
variable {c : CqIdx} {frame : Bytes} {status : UInt32} {w : World}

/-- The writing loop makes one write and one completion for each piece. -/
lemma rxScattered_trace (i : SqIdx) (hash : UInt32) (ds : List EnaRxDesc) (first : Bool) (off : ℕ)
    (hstatus : status &&& (rxCdescFirst ||| rxCdescLast) = 0)
    (hentry : 16 ≤ (w.dev.cq c).entrySize.toNat) (hlen : frame.length < 65536) :
    ∃ es, (rxScattered i c frame status hash ds first off w).trace = w.trace ++ es ∧
      es.filterMap Event.bufferWrite =
        (rxPieces frame.length ds off).map (fun p => (i,p.desc.addr,p.bytes frame)) ∧
      CompletesAll (es.filterMap Event.completion) (rxPieces frame.length ds off)
        (w.dev.cq c) c hash
        i (first = true) := by
  induction ds generalizing first off w with
  | nil => exact ⟨[],(List.append_nil _).symm,rfl,rfl,fun j p hp => by simp [rxPieces] at hp⟩
  | cons d ds ih =>
    -- the buffer write leaves the CQ as it was
    generalize hw₁ : (enaDmaWrite w (.rxBuf i) d.addr ((frame.drop off).take
      (min d.size (frame.length - off)))).cqPushed c (rxCompletion status hash i first ds.isEmpty
        (min d.size (frame.length - off)) d (w.dev.cq c).phase) = w₁
    have hcq : w₁.dev.cq c = (w.dev.cq c).advance := by
      rw [← hw₁,cqPushed_cq]
      rfl
    obtain ⟨es,he,hbuf,hcomp⟩ := ih (w := w₁) false (off + min d.size (frame.length - off))
      (by rw [hcq]; exact hentry)
    have hpiece : CompletesRx _ ⟨d,off,min d.size (frame.length - off)⟩ hash i (first = true)
        (ds.isEmpty = true) :=
      rxCompletion_completes (w.dev.cq c).phase hstatus hentry
        (show min d.size (frame.length - off) < 65536 by omega)
    rw [rxScattered]
    change ∃ es, (rxScattered i c frame status hash ds false _ ((enaDmaWrite w _ _ _).cqPushed c
      (rxCompletion _ _ _ _ _ _ _ (w.dev.cq c).phase))).trace = _ ∧ _
    rw [hw₁,he,← hw₁,cqPushed_trace,List.append_assoc]
    refine ⟨[_] ++ ([_] ++ es),List.append_assoc _ _ _,?_,?_⟩
    · rw [rxPieces,List.map_cons,← hbuf]
      rfl
    · rw [hcq] at hcomp
      have hfalse : CompletesAll (es.filterMap Event.completion)
          (rxPieces frame.length ds (off + min d.size (frame.length - off))) (w.dev.cq c).advance c
          hash i False := by simpa using hcomp
      refine CompletesAll.cons hfalse ?_
      rw [← List.length_eq_zero_iff,rxPieces_length,List.length_eq_zero_iff,← List.isEmpty_iff]
      exact hpiece

lemma rxScattered_dev (i : SqIdx) (c : CqIdx) (frame : Bytes) (status hash : UInt32)
    (ds : List EnaRxDesc) (first : Bool) (off : ℕ) (w : World) :
    (rxScattered i c frame status hash ds first off w).dev =
      { w.dev with cq := Function.update w.dev.cq c (EnaCq.advance^[ds.length] (w.dev.cq c)) } := by
  induction ds generalizing first off w with
  | nil => simp [rxScattered]
  | cons d ds ih =>
    rw [rxScattered]
    dsimp only
    rw [ih,cqPushed_cq]
    simp [World.cqPushed, enaDmaWrite, World.setDev, EnaState.setCq]

end

/-- The frame went into the buffers of the first descriptors that have room for it. -/
structure RxDelivered (net : Net) (w w' : World) (frame : Bytes) (i : SqIdx) (c : CqIdx)
    (ds : List EnaRxDesc) : Prop where
  steered : RxSteered net w.dev frame i c
  collected : RxPrefix w.mem (w.dev.sq i) frame.length ds
  enough : frame.length ≤ rxCapacity ds
  descs : (rxPieces frame.length ds 0).map RxPiece.desc = ds
  fits : ∀ j (p : RxPiece), (rxPieces frame.length ds 0)[j]? = some p → p.Fits (j+1 = ds.length)
  sum : ((rxPieces frame.length ds 0).map RxPiece.len).sum = frame.length
  whole : ((rxPieces frame.length ds 0).map (RxPiece.bytes frame)).flatten = frame
  writes : ∃ es, w'.trace = w.trace ++ es ∧
    es.filterMap Event.bufferWrite =
      (rxPieces frame.length ds 0).map (fun p => (i,p.desc.addr,p.bytes frame)) ∧
    CompletesAll (es.filterMap Event.completion) (rxPieces frame.length ds 0) (w.dev.cq c) c
      (enaRssHash net w.dev frame) i True
  cq : w'.dev.cq = Function.update w.dev.cq c (EnaCq.advance^[ds.length] (w.dev.cq c))
  sq : w'.dev.sq = Function.update w.dev.sq i
    { w.dev.sq i with head := (w.dev.sq i).head + UInt16.ofNat ds.length }
  rxPkts : w'.dev.rxPkts = w.dev.rxPkts + 1
  rxBytes : w'.dev.rxBytes = w.dev.rxBytes + UInt64.ofNat frame.length

/-- The posted descriptors, all of them good, do not suffice for the frame. -/
def RxShort (net : Net) (w : World) (frame : Bytes) : Prop :=
  ∃ i c ds, RxSteered net w.dev frame i c ∧ RxPrefix w.mem (w.dev.sq i) frame.length ds ∧
    rxCapacity ds < frame.length ∧
    (ds.length = (w.dev.sq i).avail ∨ ds.length = enaMaxPktDescs)

/-- The guest sees nothing of the frame. -/
structure RxUndelivered (net : Net) (w w' : World) (frame : Bytes) : Prop where
  mem : w'.mem = w.mem
  trace : w'.trace = w.trace
  cq : w'.dev.cq = w.dev.cq
  irq : w'.dev.irq = w.dev.irq
  rxPkts : w'.dev.rxPkts = w.dev.rxPkts
  rxBytes : w'.dev.rxBytes = w.dev.rxBytes
  short : RxShort net w frame → w'.dev.sq = w.dev.sq

section
variable {net : Net} {w w' : World} {frame : Bytes} {i : SqIdx} {c : CqIdx} {ds : List EnaRxDesc}

lemma RxSteered.unique {j : SqIdx} {d : CqIdx} (h : RxSteered net w.dev frame i c)
    (h' : RxSteered net w.dev frame j d) : i = j :=
  Option.some_inj.mp (h.sq.symm.trans h'.sq)

/-- A frame that meets a bad descriptor is not short of descriptors. -/
lemma not_rxShort_of_bad (hs : RxSteered net w.dev frame i c)
    (hlt : ds.length < (w.dev.sq i).avail) (hmax : ds.length < enaMaxPktDescs)
    (hbad : ∀ d, ¬ GoodDesc w.mem (w.dev.sq i) ds.length d) : ¬ RxShort net w frame := by
  rintro ⟨j,d,es,hs',hp',-,hend⟩
  cases hs.unique hs'
  have hle : es.length ≤ ds.length := by
    by_contra hgt
    rw [Nat.not_le] at hgt
    exact hbad _ (hp'.good ds.length _ (List.getElem?_eq_getElem hgt))
  omega

lemma cqIntr_writes (w : World) (c : CqIdx) (isTx : Bool) :
    ∃ es, (enaCqIntr w c isTx).trace = w.trace ++ es ∧ es.filterMap Event.bufferWrite = [] ∧
      es.filterMap Event.completion = [] := by
  obtain ⟨es,he,hes⟩ := adds_cqIntr (P := fun e => e.bufferWrite = none ∧ e.completion = none)
    w c isTx ⟨rfl,rfl⟩ fun _ _ => ⟨rfl,rfl⟩
  refine ⟨es,he,?_,?_⟩
  · exact List.filterMap_eq_nil_iff.mpr fun e hm => (hes e hm).1
  · exact List.filterMap_eq_nil_iff.mpr fun e hm => (hes e hm).2

lemma RxSteered.entrySize (h : RxSteered net w.dev frame i c) (hw : TableInv w.dev) :
    16 ≤ (w.dev.cq c).entrySize.toNat := by
  obtain ⟨hu,hrx⟩ := enaRxSq_used h.sq
  obtain ⟨c',hc',-,-,hsize⟩ := (hw.sq i hu).cq
  cases Fin.ext (h.cqIdx.symm.trans hc')
  exact UInt8.le_iff_toNat_le.mp (hsize hrx)

lemma rxDelivered (hw : TableInv w.dev) (hs : RxSteered net w.dev frame i c)
    (hp : RxPrefix w.mem (w.dev.sq i) frame.length ds) (hcap : frame.length ≤ rxCapacity ds) :
    RxDelivered net w (enaCqIntr ((rxScattered i c frame (enaRxStatus net frame)
      (enaRssHash net w.dev frame) ds true 0 w).rxTook i ds.length frame.length) c false) frame i c
      ds := by
  have hcovers : Covers frame.length ds 0 := ⟨by simpa using hp.least,by simpa using hcap⟩
  have hlen : frame.length < 65536 := by
    have hmax := hs.accepts.max
    rw [hw.maxFrame] at hmax
    have hmtu := hw.mtu.2
    omega
  obtain ⟨es,he,hbuf,hcomp⟩ := rxScattered_trace i (enaRssHash net w.dev frame) ds true 0
    (enaRxStatus_bits net frame) (hs.entrySize hw) hlen
  generalize hw₁ : rxScattered i c frame (enaRxStatus net frame)
    (enaRssHash net w.dev frame) ds true
    0 w = w₁ at he
  have hdev := rxScattered_dev i c frame (enaRxStatus net frame)
    (enaRssHash net w.dev frame) ds true
    0 w
  rw [hw₁] at hdev
  obtain ⟨is,hi,hibuf,hicomp⟩ := cqIntr_writes (w₁.rxTook i ds.length frame.length) c false
  have hirq := (irqOnly_cqIntr (w₁.rxTook i ds.length frame.length) c false).dev
  have htook : (w₁.rxTook i ds.length frame.length).dev = { w.dev with
      cq := Function.update w.dev.cq c (EnaCq.advance^[ds.length] (w.dev.cq c))
      sq := Function.update w.dev.sq i
        { w.dev.sq i with head := (w.dev.sq i).head + UInt16.ofNat ds.length }
      rxPkts := w.dev.rxPkts + 1
      rxBytes := w.dev.rxBytes + UInt64.ofNat frame.length } := by
    simp [World.rxTook, World.setSq, World.setDev, EnaState.setSq, hdev]
  rw [htook] at hirq
  refine ⟨hs,hp,hcap,rxPieces_desc ds 0,hcovers.fits,?_,?_,⟨es ++ is,?_,?_,?_⟩,by rw [hirq],
    by rw [hirq],by rw [hirq],by rw [hirq]⟩
  · rw [rxPieces_sum]
    omega
  · exact hcovers.flatten (Nat.zero_le _)
  · rw [hi,← List.append_assoc,← he]
    rfl
  · rw [List.filterMap_append,hbuf,hibuf,List.append_nil]
  · rw [List.filterMap_append,hicomp,List.append_nil]
    simpa using hcomp

lemma RxOutcome.delivered_or_not (h : RxOutcome net w frame w') (hw : TableInv w.dev) :
    (∃ i c ds, RxDelivered net w w' frame i c ds) ∨ RxUndelivered net w w' frame := by
  cases h with
  | ignored => exact .inr ⟨rfl,rfl,rfl,rfl,rfl,rfl,fun _ => rfl⟩
  | dropped => exact .inr ⟨rfl,rfl,rfl,rfl,rfl,rfl,fun _ => rfl⟩
  | short => exact .inr ⟨rfl,rfl,rfl,rfl,rfl,rfl,fun _ => rfl⟩
  | bad hs hp hcap hlt hmax hbad =>
    exact .inr ⟨rfl,rfl,rfl,rfl,rfl,rfl,
      fun hshort => absurd hshort (not_rxShort_of_bad hs hlt hmax hbad)⟩
  | delivered hs hp hcap => exact .inl ⟨_,_,_,rxDelivered hw hs hp hcap⟩

/-- RX delivery is exact, or else leaves no trace for the guest. -/
theorem rxReceive_delivers_or_drops (h : Reachable net w) (frame : Bytes) :
    ∃ w', step net w (.receive frame) = .ok w' ∧
      ((∃ i c ds, RxDelivered net w w' frame i c ds) ∨ RxUndelivered net w w' frame) := by
  have hw := h.tables.1
  obtain ⟨w',hrecv,hout⟩ := (enaRxReceiveIov_outcome net frame hw).exists_ok
  exact ⟨w',hrecv,hout.delivered_or_not hw⟩

/-- A descriptor as the driver encodes it, with the control bits given. -/
def rxDescOf (ctrl : UInt8) (length reqId : UInt16) (addr : UInt32) : Bytes :=
  ofLe16 length ++ [0,ctrl] ++ ofLe16 reqId ++ zeros 2 ++ ofLe32 addr ++ zeros 4

/-- The driver creates a CQ with an RX queue and posts descriptors. -/
def rxSetup (descs : List Bytes) : List Input :=
  driverSetup [createCqCmd,createSqCmd sqIdentityRx] [(0x4000,descs.flatten)] ++
    [.regWrite regSqDbBase (UInt64.ofNat descs.length)]

/-- Two buffers of 8 bytes take a frame of 14. -/
theorem rxReceive_two_buffers :
    ∃ w w', run Net.nonIp freshWorld
        (rxSetup [rxDescOf 0x1c 8 0 0x5000,rxDescOf 0x1c 8 1 0x6000]) = .ok w ∧
      step Net.nonIp w (.receive (List.replicate 14 0xff)) = .ok w' ∧ w'.dev.rxBytes = 14 ∧
      ((∃ i c ds, RxDelivered Net.nonIp w w' (List.replicate 14 0xff) i c ds) ∨
        RxUndelivered Net.nonIp w w' (List.replicate 14 0xff)) := by
  obtain ⟨w,hrun,hnext⟩ := exists_of_okAnd
    (p := fun w : World => okAnd (fun w' : World => w'.dev.rxBytes == 14)
      (step Net.nonIp w (.receive (List.replicate 14 0xff))))
    (x := run Net.nonIp freshWorld (rxSetup [rxDescOf 0x1c 8 0 0x5000,rxDescOf 0x1c 8 1 0x6000]))
    (by decide +kernel)
  obtain ⟨w',hstep,hbytes⟩ := exists_of_okAnd hnext
  obtain ⟨w'',hstep',h⟩ := rxReceive_delivers_or_drops (reachable_of_run hrun)
    (List.replicate 14 0xff)
  cases hstep.symm.trans hstep'
  exact ⟨w,w',hrun,hstep,beq_iff_eq.mp hbytes,h⟩

end
end EnaDevice
