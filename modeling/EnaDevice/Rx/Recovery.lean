import EnaDevice.Rx.Delivery

/-! What becomes of posted RX buffers. A good descriptor that the head moves past is completed,
unless a bad one follows it within the same frame: then it is consumed and never given back. -/
namespace EnaDevice
open Bytes Result Relation

section Collected
variable {m : Memory} {sq : EnaSq} {len : ℕ} {ds es : List EnaRxDesc}

/-- Collecting goes no further than these descriptors. -/
structure RxStopped (m : Memory) (sq : EnaSq) (len : ℕ) (ds : List EnaRxDesc) : Prop where
  pre : RxPrefix m sq len ds
  stop : len ≤ rxCapacity ds ∨ ds.length = sq.avail ∨ ds.length = enaMaxPktDescs ∨
    ∀ d, ¬ GoodDesc m sq ds.length d

lemma RxPrefix.agree (h : RxPrefix m sq len ds) (h' : RxPrefix m sq len es) {n : ℕ}
    (hn : n < ds.length) (hn' : n < es.length) : ds[n]? = es[n]? := by
  have hd := (h.good n _ (List.getElem?_eq_getElem hn)).1
  have he := (h'.good n _ (List.getElem?_eq_getElem hn')).1
  rw [List.getElem?_eq_getElem hn,List.getElem?_eq_getElem hn',← hd,he]

lemma RxPrefix.eq_take (h : RxPrefix m sq len ds) (h' : RxPrefix m sq len es)
    (hle : ds.length ≤ es.length) : ds = es.take ds.length := by
  apply List.ext_getElem?
  intro n
  by_cases hn : n < ds.length
  · rw [List.getElem?_take_of_lt hn,h.agree h' hn (hn.trans_le hle)]
  · rw [List.getElem?_eq_none (by omega),List.getElem?_eq_none]
    rw [List.length_take]
    omega

lemma RxStopped.not_lt (h : RxStopped m sq len ds) (h' : RxPrefix m sq len es) :
    ¬ ds.length < es.length := by
  intro hlt
  have hcap := h'.least _ hlt
  rw [← h.pre.eq_take h' hlt.le] at hcap
  have havail := h'.avail
  have hmax := h'.max
  rcases h.stop with hs | hs | hs | hs
  · omega
  · omega
  · omega
  · exact hs _ (h'.good _ _ (List.getElem?_eq_getElem hlt))

lemma RxStopped.unique (h : RxStopped m sq len ds) (h' : RxStopped m sq len es) : ds = es := by
  have hlen : ds.length = es.length :=
    le_antisymm (Nat.le_of_not_lt (h'.not_lt h.pre)) (Nat.le_of_not_lt (h.not_lt h'.pre))
  rw [h.pre.eq_take h'.pre hlen.le,hlen,List.take_length]

end Collected

/-- The good descriptors among the first `n` from the head. -/
def goodDescs (m : Memory) (sq : EnaSq) (n : ℕ) : List EnaRxDesc :=
  (List.range n).filterMap fun k => (enaRxRead m sq k).filter (EnaRxDesc.valid sq)

/-- The good descriptors that a step moves the head of a queue past. -/
def rxConsumed (i : SqIdx) (w w' : World) : List EnaRxDesc :=
  goodDescs w.mem (w.dev.sq i) ((w'.dev.sq i).head - (w.dev.sq i).head).toNat

/-- The request ids of the RX completions that a step pushes to the CQ of a queue on its behalf. -/
def rxCompleted (i : SqIdx) (w : World) (inp : Input) (w' : World) : List UInt16 :=
  match inp with
  | .receive _ => ((w'.trace.drop w.trace.length).filterMap Event.completion).filterMap
    fun e => if e.1.val = (w.dev.sq i).cqIdx.toNat ∧ (le16At e.2.2 12).toNat = i.val then
      some (le16At e.2.2 6) else none
  | _ => []

section Good
variable {m : Memory} {sq : EnaSq}

lemma goodDescs_succ (n : ℕ) : goodDescs m sq (n+1) =
    goodDescs m sq n ++ ((enaRxRead m sq n).filter (EnaRxDesc.valid sq)).toList := by
  rw [goodDescs,List.range_succ,List.filterMap_append]
  cases h : (enaRxRead m sq n).filter (EnaRxDesc.valid sq) <;> simp [goodDescs,h]

lemma goodDesc_iff (n : ℕ) (d : EnaRxDesc) :
    GoodDesc m sq n d ↔ (enaRxRead m sq n).filter (EnaRxDesc.valid sq) = some d := by
  rw [GoodDesc,Option.filter_eq_some_iff]

lemma goodDescs_of_good (ds : List EnaRxDesc) (h : ∀ n d, ds[n]? = some d → GoodDesc m sq n d) :
    goodDescs m sq ds.length = ds := by
  induction ds using List.reverseRecOn with
  | nil => rfl
  | append_singleton ds d ih =>
    have hd := (goodDesc_iff _ _).mp (h ds.length d (by simp))
    have hpre : goodDescs m sq ds.length = ds := by
      refine ih fun n e he => h n e ?_
      rw [List.getElem?_append_left (List.getElem?_eq_some_iff.mp he).1]
      exact he
    rw [List.length_append,List.length_singleton,goodDescs_succ,hpre,hd]
    rfl

/-- A bad descriptor is passed over. -/
lemma goodDescs_bad (n : ℕ) (h : ∀ d, ¬ GoodDesc m sq n d) :
    goodDescs m sq (n+1) = goodDescs m sq n := by
  have hnone : (enaRxRead m sq n).filter (EnaRxDesc.valid sq) = none := by
    rw [Option.eq_none_iff_forall_ne_some]
    exact fun d hd => h d ((goodDesc_iff n d).mpr hd)
  rw [goodDescs_succ,hnone]
  simp

end Good

lemma head_moved (h : UInt16) {n : ℕ} (hn : n < 65536) : (h + UInt16.ofNat n - h).toNat = n := by
  rw [show h + UInt16.ofNat n - h = UInt16.ofNat n by grind,UInt16.toNat_ofNat',Nat.mod_eq_of_lt hn]

section Consumed
variable {i j : SqIdx} {w w' : World} {n : ℕ}

lemma rxConsumed_of_eq (h : (w'.dev.sq i).head = (w.dev.sq i).head) : rxConsumed i w w' = [] := by
  rw [rxConsumed,h,UInt16.sub_self]
  rfl

lemma rxConsumed_of_moved (h : (w'.dev.sq i).head = (w.dev.sq i).head + UInt16.ofNat n)
    (hn : n < 65536) : rxConsumed i w w' = goodDescs w.mem (w.dev.sq i) n := by
  rw [rxConsumed,h,head_moved _ hn]

lemma rxCompleted_of_trace {inp : Input} (h : w'.trace = w.trace) :
    rxCompleted i w inp w' = [] := by
  cases inp <;> simp [rxCompleted,h]

lemma rxCompleted_of_same {inp : Input} (h : w'.dev.sq i = w.dev.sq i) (ht : w'.trace = w.trace) :
    rxCompleted i w inp w' = (rxConsumed i w w').map EnaRxDesc.reqId := by
  rw [rxConsumed_of_eq (by rw [h]),rxCompleted_of_trace ht,List.map_nil]

end Consumed

section Completed
variable {cs : List (CqIdx × UInt64 × Bytes)} {ps : List RxPiece} {q : EnaCq} {c : CqIdx}
  {hash : UInt32} {i : SqIdx} {first : Prop}

lemma CompletesAll.mem (h : CompletesAll cs ps q c hash i first) :
    ∀ e ∈ cs, e.1 = c ∧ (le16At e.2.2 12).toNat = i.val := by
  intro e he
  obtain ⟨n,hn,rfl⟩ := List.getElem_of_mem he
  obtain ⟨entry,hentry,hc⟩ := h.entry n _ (List.getElem?_eq_getElem (h.length ▸ hn))
  rw [List.getElem?_eq_getElem hn,Option.some_inj] at hentry
  rw [hentry]
  exact ⟨rfl,hc.subQid⟩

lemma CompletesAll.reqIds (h : CompletesAll cs ps q c hash i first) :
    cs.map (fun e => le16At e.2.2 6) = ps.map fun p => p.desc.reqId := by
  apply List.ext_getElem?
  intro n
  rw [List.getElem?_map,List.getElem?_map]
  cases hp : ps[n]? with
  | none =>
    have hn := List.getElem?_eq_none_iff.mp hp
    rw [List.getElem?_eq_none (h.length ▸ hn)]
    rfl
  | some p =>
    obtain ⟨entry,hentry,hc⟩ := h.entry n p hp
    rw [hentry]
    exact congrArg some hc.reqId

end Completed

lemma filterMap_ite_all {α β : Type} {p : α → Prop} [DecidablePred p] {f : α → β} {l : List α}
    (h : ∀ a ∈ l, p a) : (l.filterMap fun a => if p a then some (f a) else none) = l.map f := by
  induction l with
  | nil => rfl
  | cons a l ih =>
    rw [List.filterMap_cons,if_pos (h a List.mem_cons_self),ih fun b hb => h b (.tail a hb)]
    rfl

lemma filterMap_ite_none {α β : Type} {p : α → Prop} [DecidablePred p] {f : α → β} {l : List α}
    (h : ∀ a ∈ l, ¬ p a) : (l.filterMap fun a => if p a then some (f a) else none) = [] :=
  List.filterMap_eq_nil_iff.mpr fun a ha => if_neg (h a ha)

/-- A frame for a queue whose next descriptors are good, too small for it, and followed by a bad
one. -/
def RxStrands (net : Net) (w : World) (inp : Input) (i : SqIdx) : Prop :=
  ∃ frame c ds, inp = .receive frame ∧ RxSteered net w.dev frame i c ∧ ds ≠ [] ∧
    RxPrefix w.mem (w.dev.sq i) frame.length ds ∧ rxCapacity ds < frame.length ∧
    ds.length < (w.dev.sq i).avail ∧ ds.length < enaMaxPktDescs ∧
    ∀ d, ¬ GoodDesc w.mem (w.dev.sq i) ds.length d

section Receive
variable {net : Net} {w w' : World} {frame : Bytes} {i j : SqIdx} {c : CqIdx} {ds : List EnaRxDesc}

lemma RxDelivered.completed (h : RxDelivered net w w' frame j c ds) :
    rxCompleted i w (.receive frame) w' = (rxConsumed i w w').map EnaRxDesc.reqId := by
  obtain ⟨es,he,-,hcomp⟩ := h.writes
  have hcs : (w'.trace.drop w.trace.length).filterMap Event.completion =
      es.filterMap Event.completion := by rw [he,List.drop_left]
  by_cases hij : i = j
  · subst hij
    have hhead : (w'.dev.sq i).head = (w.dev.sq i).head + UInt16.ofNat ds.length := by
      rw [h.sq,Function.update_self]
    have hmax : ds.length ≤ 17 := h.collected.max
    rw [rxConsumed_of_moved hhead (by omega),goodDescs_of_good ds h.collected.good,rxCompleted,hcs,
      filterMap_ite_all fun e hm => ⟨(congrArg Fin.val (hcomp.mem e hm).1).trans
        h.steered.cqIdx.symm,(hcomp.mem e hm).2⟩,hcomp.reqIds]
    conv_rhs => rw [← h.descs,List.map_map]
    rfl
  · have hhead : (w'.dev.sq i).head = (w.dev.sq i).head := by rw [h.sq,Function.update_of_ne hij]
    rw [rxConsumed_of_eq hhead,rxCompleted,hcs,filterMap_ite_none]
    · rfl
    · rintro e hm ⟨-,hsub⟩
      exact hij (Fin.ext (hsub.symm.trans (hcomp.mem e hm).2))

/-- The world after a bad descriptor was met. -/
def World.rxRecovered (w : World) (j : SqIdx) (n : ℕ) : World :=
  (w.setSq j { w.dev.sq j with head := (w.dev.sq j).head + UInt16.ofNat (n+1) }).rxDrop

lemma rxRecovered_sq (w : World) (j : SqIdx) (n : ℕ) : (w.rxRecovered j n).dev.sq =
    Function.update w.dev.sq j { w.dev.sq j with head := (w.dev.sq j).head + UInt16.ofNat (n+1) } :=
      rfl

/-- A bad descriptor takes the good ones before it along. -/
lemma rxConsumed_bad (hp : RxPrefix w.mem (w.dev.sq i) frame.length ds)
    (hbad : ∀ d, ¬ GoodDesc w.mem (w.dev.sq i) ds.length d) :
    rxConsumed i w (w.rxRecovered i ds.length) = ds := by
  have hhead : ((w.rxRecovered i ds.length).dev.sq i).head =
      (w.dev.sq i).head + UInt16.ofNat (ds.length+1) := by
    rw [rxRecovered_sq,Function.update_self]
  have hmax : ds.length ≤ 17 := hp.max
  rw [rxConsumed_of_moved hhead (by omega),goodDescs_bad _ hbad,goodDescs_of_good ds hp.good]

lemma receive_recovers (hw : TableInv w.dev) (h : step net w (.receive frame) = .ok w')
    (hkeep : ¬ RxStrands net w (.receive frame) i) :
    rxCompleted i w (.receive frame) w' = (rxConsumed i w w').map EnaRxDesc.reqId := by
  cases (enaRxReceiveIov_outcome net frame hw).of_ok h with
  | ignored => exact rxCompleted_of_same rfl rfl
  | dropped => exact rxCompleted_of_same rfl rfl
  | short => exact rxCompleted_of_same rfl rfl
  | delivered hs hp hcap => exact (rxDelivered hw hs hp hcap).completed
  | @bad j c ds hs hp hcap hlt hmax hbad =>
    change rxCompleted i w _ (w.rxRecovered j ds.length) =
      (rxConsumed i w (w.rxRecovered j ds.length)).map _
    by_cases hij : i = j
    · subst hij
      rw [rxConsumed_bad hp hbad]
      by_contra hne
      refine hkeep ⟨frame,c,ds,rfl,hs,?_,hp,hcap,hlt,hmax,hbad⟩
      rintro rfl
      exact hne (rxCompleted_of_trace rfl)
    · refine rxCompleted_of_same ?_ rfl
      rw [rxRecovered_sq,Function.update_of_ne hij]

lemma receive_strands {inp : Input} (hw : TableInv w.dev) (h : RxStrands net w inp i) :
    ∃ w', step net w inp = .ok w' ∧ rxCompleted i w inp w' = [] ∧ rxConsumed i w w' ≠ [] := by
  obtain ⟨frame,c,ds,rfl,hs,hne,hp,hcap,hlt,hmax,hbad⟩ := h
  have hstop : RxStopped w.mem (w.dev.sq i) frame.length ds := ⟨hp,.inr (.inr (.inr hbad))⟩
  obtain ⟨w',hstep,hout⟩ := (enaRxReceiveIov_outcome net frame hw).exists_ok
  refine ⟨w',hstep,?_⟩
  cases hout with
  | ignored hno => exact absurd hs.accepts hno
  | dropped hno => exact absurd hs (hno i c)
  | short hs' hp' hcap' hend =>
    exact absurd ⟨_,_,_,hs',hp',hcap',hend⟩ (not_rxShort_of_bad hs hlt hmax hbad)
  | @delivered j c' es hs' hp' hcap' =>
    cases hs.unique hs'
    cases hstop.unique ⟨hp',.inl hcap'⟩
    exact absurd hcap' (Nat.not_le.mpr hcap)
  | @bad j c' es hs' hp' hcap' hlt' hmax' hbad' =>
    cases hs.unique hs'
    cases hstop.unique ⟨hp',.inr (.inr (.inr hbad'))⟩
    refine ⟨rxCompleted_of_trace rfl,?_⟩
    change rxConsumed i w (w.rxRecovered i ds.length) ≠ []
    rw [rxConsumed_bad hp hbad]
    exact hne

end Receive

/-- The same RX queue, possibly with other indices. -/
structure SameRx (q q' : EnaSq) : Prop where
  used : q'.used = q.used
  isTx : q'.isTx = q.isTx

section Frame
variable {w₀ w w' : World} {inp : Input} {i : SqIdx}

/-- Only a frame moves the head of an RX queue, as long as the queues are not reconfigured. -/
lemma Effect.rxHead (h : Effect w₀ inp w w') (hinp : ¬ inp.Configures)
    (hrx : (w.dev.sq i).isTx = false) :
    SameRx (w.dev.sq i) (w'.dev.sq i) ∧
      ((∀ frame, inp ≠ .receive frame) → (w'.dev.sq i).head = (w.dev.sq i).head) := by
  have hsame : ∀ {s : EnaState}, s.sq = w.dev.sq → SameRx (w.dev.sq i) (s.sq i) ∧
      ((∀ frame, inp ≠ .receive frame) → (s.sq i).head = (w.dev.sq i).head) := by
    intro s hs
    rw [hs]
    exact ⟨⟨rfl,rfl⟩,fun _ => rfl⟩
  have hset : ∀ (j : SqIdx) (q : EnaSq), SameRx (w.dev.sq j) q →
      (j = i → (∀ frame, inp ≠ .receive frame) → q.head = (w.dev.sq j).head) →
      SameRx (w.dev.sq i) ((w.setSq j q).dev.sq i) ∧
        ((∀ frame, inp ≠ .receive frame) → ((w.setSq j q).dev.sq i).head = (w.dev.sq i).head) := by
    intro j q hq hhead
    by_cases hij : i = j
    · subst hij
      rw [World.setSq_sq]
      exact ⟨hq,hhead rfl⟩
    · rw [World.setSq_sq_of_ne w hij q]
      exact ⟨⟨rfl,rfl⟩,fun _ => rfl⟩
  cases h with
  | quiet hq => exact hsame hq.queues.sq
  | dma => exact hsame rfl
  | cqAdvance => exact hsame rfl
  | cqIntr c isTx => exact hsame (irqOnly_cqIntr w c isTx).sameQueues.sq
  | adminIntr => exact hsame (congrArg EnaState.sq (dev_adminIntr w))
  | fire v => exact hsame (irqOnly_fire w v).sameQueues.sq
  | unmask c val => exact hsame (irqOnly_unmask w c val).sameQueues.sq
  | reset hcfg => exact absurd hcfg hinp
  | sqTail j val => exact hset j _ ⟨rfl,rfl⟩ fun _ _ => rfl
  | sqHead j n _ hrecv =>
    refine hset j _ ⟨rfl,rfl⟩ fun hji hno => ?_
    subst hji
    obtain ⟨frame,he⟩ := hrecv hrx
    exact absurd he (hno frame)
  | sqMeta j m => exact hset j _ ⟨rfl,rfl⟩ fun _ _ => rfl
  | queues hcfg => exact absurd hcfg hinp
  | mtu => exact hsame rfl
  | llq => exact hsame rfl
  | rss => exact hsame rfl
  | environment => exact hsame rfl

lemma Path.rxHead (h : Path w₀ inp w w') (hinp : ¬ inp.Configures)
    (hrx : (w.dev.sq i).isTx = false) :
    SameRx (w.dev.sq i) (w'.dev.sq i) ∧
      ((∀ frame, inp ≠ .receive frame) → (w'.dev.sq i).head = (w.dev.sq i).head) := by
  induction h with
  | refl => exact ⟨⟨rfl,rfl⟩,fun _ => rfl⟩
  | tail _ heff ih =>
    obtain ⟨hs,hh⟩ := heff.rxHead hinp (ih.1.isTx.trans hrx)
    exact ⟨⟨hs.used.trans ih.1.used,hs.isTx.trans ih.1.isTx⟩,fun hno => (hh hno).trans (ih.2 hno)⟩

end Frame

/-- The good descriptors consumed along a run, and the request ids completed along it. -/
def rxHistory (net : Net) (i : SqIdx) : World → List Input → List EnaRxDesc × List UInt16
  | _, [] => ([],[])
  | w, inp::inputs =>
    match step net w inp with
    | .error _ => ([],[])
    | .ok w' =>
      (rxConsumed i w w' ++ (rxHistory net i w' inputs).1,
        rxCompleted i w inp w' ++ (rxHistory net i w' inputs).2)

/-- Every good descriptor that the head moved past was completed, once and in order. -/
def RxRecovers (net : Net) (i : SqIdx) (w : World) (inputs : List Input) : Prop :=
  (rxHistory net i w inputs).2 = (rxHistory net i w inputs).1.map EnaRxDesc.reqId

section Run
variable {net : Net} {i : SqIdx} {w w₁ w' : World} {inputs : List Input} {inp : Input}

lemma rxHistory_concat (h : run net w inputs = .ok w₁) (hs : step net w₁ inp = .ok w') :
    rxHistory net i w (inputs ++ [inp]) =
      ((rxHistory net i w inputs).1 ++ rxConsumed i w₁ w',
        (rxHistory net i w inputs).2 ++ rxCompleted i w₁ inp w') := by
  induction inputs generalizing w with
  | nil =>
    cases h
    simp [rxHistory,hs]
  | cons a inputs ih =>
    obtain ⟨w₂,h₂,hrest⟩ := bind_eq_ok.mp h
    simp [rxHistory,h₂,ih hrest]

/-- A run that has aborted has no further history. -/
lemma rxHistory_concat_abort (h : ∀ w₁, run net w inputs = .ok w₁ →
    ∀ w', step net w₁ inp ≠ .ok w') :
    rxHistory net i w (inputs ++ [inp]) = rxHistory net i w inputs := by
  induction inputs generalizing w with
  | nil =>
    cases hs : step net w inp with
    | error f => simp [rxHistory,hs]
    | ok w' => exact absurd hs (h w rfl w')
  | cons a inputs ih =>
    rw [List.cons_append,rxHistory,rxHistory]
    cases ha : step net w a with
    | error f => rfl
    | ok w₂ =>
      dsimp only
      rw [ih fun w₁ h₁ => h w₁ (by rw [run,ha]; exact h₁)]

/-- One step that is no reconfiguration: what it consumes it completes, unless it strands
buffers. -/
lemma step_recovers (hw : TableInv w.dev ∧ TxIdle none w.dev) (hrx : (w.dev.sq i).isTx = false)
    (hinp : ¬ inp.Configures) (hs : step net w inp = .ok w') :
    (w'.dev.sq i).isTx = false ∧ (¬ RxStrands net w inp i →
      rxCompleted i w inp w' = (rxConsumed i w w').map EnaRxDesc.reqId) := by
  have hpath := ((step_spec net inp hw.1 hw.2).of_ok hs).1
  obtain ⟨hsame,hhead⟩ := Path.rxHead hpath hinp hrx
  refine ⟨hsame.isTx.trans hrx,fun hkeep => ?_⟩
  by_cases hrecv : ∃ frame, inp = .receive frame
  · obtain ⟨frame,rfl⟩ := hrecv
    exact receive_recovers hw.1 hs hkeep
  · have hno : ∀ frame, inp ≠ .receive frame := fun frame he => hrecv ⟨frame,he⟩
    rw [rxConsumed_of_eq (hhead hno)]
    cases inp with
    | receive frame => exact absurd rfl (hno frame)
    | _ => rfl

lemma run_rx (hw : TableInv w.dev ∧ TxIdle none w.dev) (hrx : (w.dev.sq i).isTx = false)
    (hinp : ∀ inp ∈ inputs, ¬ inp.Configures) (h : run net w inputs = .ok w') :
    (TableInv w'.dev ∧ TxIdle none w'.dev) ∧ (w'.dev.sq i).isTx = false := by
  induction inputs generalizing w with
  | nil =>
    cases h
    exact ⟨hw,hrx⟩
  | cons a inputs ih =>
    obtain ⟨w₁,h₁,hrest⟩ := bind_eq_ok.mp h
    exact ih (step_tables hw h₁) (step_recovers hw hrx (hinp a List.mem_cons_self) h₁).1
      (fun b hb => hinp b (.tail a hb)) hrest

/-- Along a run without reconfiguration, good buffers all come back exactly as long as no frame
meets a bad descriptor after good ones. -/
theorem rxRecovers_iff (h : Reachable net w) (hrx : (w.dev.sq i).isTx = false)
    (inputs : List Input) (hinp : ∀ inp ∈ inputs, ¬ inp.Configures) :
    (∀ n, RxRecovers net i w (inputs.take n)) ↔
      ∀ n inp w', inputs[n]? = some inp → run net w (inputs.take n) = .ok w' →
        ¬ RxStrands net w' inp i := by
  have hreach : ∀ n w', run net w (inputs.take n) = .ok w' →
      (TableInv w'.dev ∧ TxIdle none w'.dev) ∧ (w'.dev.sq i).isTx = false := fun n w' hrun =>
    run_rx h.tables hrx (fun inp hm => hinp inp (List.mem_of_mem_take hm)) hrun
  constructor
  · intro hall n inp w' hn hrun hstrands
    obtain ⟨w'',hstep,hcomp,hcons⟩ := receive_strands (hreach n w' hrun).1.1 hstrands
    have hnext := hall (n+1)
    rw [RxRecovers,take_concat hn,rxHistory_concat hrun hstep,hcomp,List.append_nil,List.map_append,
      hall n,List.self_eq_append_right,List.map_eq_nil_iff] at hnext
    exact hcons hnext
  · intro hkeep n
    induction n with
    | zero => rfl
    | succ n ih =>
      cases hn : inputs[n]? with
      | none =>
        rw [List.take_add_one,hn]
        simpa using ih
      | some inp =>
        rw [take_concat hn]
        by_cases hgo : ∃ w₁ w', run net w (inputs.take n) = .ok w₁ ∧ step net w₁ inp = .ok w'
        · obtain ⟨w₁,w',hrun,hstep⟩ := hgo
          obtain ⟨htables,hrx₁⟩ := hreach n w₁ hrun
          have hcfg := hinp inp (List.mem_of_getElem? hn)
          rw [RxRecovers,rxHistory_concat hrun hstep,List.map_append,
            (step_recovers htables hrx₁ hcfg hstep).2 (hkeep n inp w₁ hn hrun),ih]
        · rw [RxRecovers,rxHistory_concat_abort fun w₁ h₁ w' h' => hgo ⟨w₁,w',h₁,h'⟩]
          exact ih

/-- A frame of 14 bytes for two good buffers of 8 bytes. -/
theorem rxRecovers_two_buffers :
    ∃ w, run Net.nonIp freshWorld
        (rxSetup [rxDescOf 0x1c 8 0 0x5000,rxDescOf 0x1c 8 1 0x6000]) = .ok w ∧
      (w.dev.sq 0).isTx = false ∧
      ((∀ n, RxRecovers Net.nonIp 0 w ([.receive (List.replicate 14 0xff)].take n)) ↔
        ∀ n inp w', [Input.receive (List.replicate 14 0xff)][n]? = some inp →
          run Net.nonIp w ([.receive (List.replicate 14 0xff)].take n) = .ok w' →
            ¬ RxStrands Net.nonIp w' inp 0) := by
  obtain ⟨w,hrun,hrx⟩ := exists_of_okAnd (p := fun w : World => !(w.dev.sq 0).isTx)
    (x := run Net.nonIp freshWorld (rxSetup [rxDescOf 0x1c 8 0 0x5000,rxDescOf 0x1c 8 1 0x6000]))
    (by decide +kernel)
  have hrx : (w.dev.sq 0).isTx = false := by simpa using hrx
  refine ⟨w,hrun,hrx,rxRecovers_iff (reachable_of_run hrun) hrx
    [.receive (List.replicate 14 0xff)] ?_⟩
  intro inp hm
  cases List.mem_singleton.mp hm
  exact id

/-- A frame of 14 bytes for a good buffer of 8 bytes, which a descriptor without control bits
follows: the good buffer is consumed and not completed. -/
theorem badAfterGood_lost :
    ∃ w w', run Net.nonIp freshWorld
        (rxSetup [rxDescOf 0x1c 8 5 0x5000,rxDescOf 0 8 6 0x6000]) = .ok w ∧
      Reachable Net.nonIp w ∧ (w.dev.sq 0).usedRx = true ∧
      step Net.nonIp w (.receive (List.replicate 14 0xff)) = .ok w' ∧
      (rxConsumed 0 w w').map EnaRxDesc.reqId = [5] ∧
      rxCompleted 0 w (.receive (List.replicate 14 0xff)) w' = [] ∧
      ¬ RxRecovers Net.nonIp 0 w [.receive (List.replicate 14 0xff)] := by
  obtain ⟨w,hrun,hnext⟩ := exists_of_okAnd
    (p := fun w : World => (w.dev.sq 0).usedRx && okAnd (fun w' : World =>
      (rxConsumed 0 w w').map EnaRxDesc.reqId == [5] &&
        rxCompleted 0 w (.receive (List.replicate 14 0xff)) w' == [])
      (step Net.nonIp w (.receive (List.replicate 14 0xff))))
    (x := run Net.nonIp freshWorld (rxSetup [rxDescOf 0x1c 8 5 0x5000,rxDescOf 0 8 6 0x6000]))
    (by decide +kernel)
  rw [Bool.and_eq_true] at hnext
  obtain ⟨w',hstep,hlost⟩ := exists_of_okAnd hnext.2
  rw [Bool.and_eq_true,beq_iff_eq,beq_iff_eq] at hlost
  refine ⟨w,w',hrun,reachable_of_run hrun,hnext.1,hstep,hlost.1,hlost.2,?_⟩
  rw [RxRecovers,rxHistory,hstep]
  dsimp only
  rw [hlost.2,List.map_append,hlost.1]
  exact fun he => by cases he

end Run
end EnaDevice
