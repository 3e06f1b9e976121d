import EnaDevice.Rx.Flush
import EnaDevice.Tx.Genuine

/-! Where the segment size of a packet comes from. The device keeps the last meta descriptor of a
queue; over whole runs this is the last one that a packet of the queue brought along since the queue
was made. -/
namespace EnaDevice
open Bytes Result Relation

/-- The segment size in a meta descriptor, 14 bits in two parts. -/
def EnaTxDesc.mss (d : EnaTxDesc) : ℕ := d.lenCtrl.toNat/2^16 % 2^4*2^10 + d.buffAddrLo.toNat/2^22

/-- The segment size of the last descriptor, and 0 if there is none. -/
def lastMss (ds : List EnaTxDesc) : ℕ := (ds.getLast?.map EnaTxDesc.mss).getD 0

/-- The meta descriptor at the head of a queue. -/
def World.metaDescs (w : World) (i : SqIdx) : List EnaTxDesc :=
  if (w.txSlot i (w.dev.sq i) 0).isMeta then [w.txSlot i (w.dev.sq i) 0] else []

/-- Iterations of a doorbell with the meta descriptors of the packets that were parsed. -/
inductive TxTells (net : Net) (i : SqIdx) (w : World) : World → List EnaTxDesc → Prop
  | done : TxTells net i w w []
  | packet {u u' : World} {p : EnaTxPkt} {ds : List EnaTxDesc} (h : TxTells net i w u ds)
    (hbusy : (u.dev.sq i).head ≠ (u.dev.sq i).tail) (hp : enaTxParse u i = .ok (some p))
    (hs : enaTxDoorbellStep net u i = .ok u') : TxTells net i w u' (ds ++ u.metaDescs i)
  | discard {u u' : World} {ds : List EnaTxDesc} (h : TxTells net i w u ds)
    (hbusy : (u.dev.sq i).head ≠ (u.dev.sq i).tail) (hp : enaTxParse u i = .ok none)
    (hs : enaTxDoorbellStep net u i = .ok u') : TxTells net i w u' ds

/-- The meta descriptors of parsed packets on every SQ since it was created. -/
abbrev Told := SqIdx → List EnaTxDesc

/-- The next admin command creates an SQ, and its response names the slot. -/
def CreatesSq (r : AdminRings) (w : World) (i : SqIdx) : Prop :=
  Opcode.ofCode (u8At (w.aqCmd r) 2) = some .createSq ∧
    ∃ resp w', enaAdminExec w.aqTaken (w.aqCmd r) = .ok (.success,resp,w') ∧
    (le16At resp 0).toNat = i.val

/-- Admin commands one after another. A new SQ has been told nothing yet. -/
inductive AdminTells (r : AdminRings) (w : World) (told : Told) : World → Told → Prop
  | done : AdminTells r w told w told
  | command {u u' : World} {told₁ told₂ : Told} (h : AdminTells r w told u told₁)
    (hiter : AdminIter r u u') (hnew : ∀ i, CreatesSq r u i → told₂ i = [])
    (hold : ∀ i, ¬ CreatesSq r u i → told₂ i = told₁ i) :
    AdminTells r w told u' told₂

/-- What one input adds to the story of every SQ. -/
inductive Tells (net : Net) (w : World) (told : Told) : Input → World → Told → Prop
  | reset {inp : Input} {w' : World} (h : inp.Resets) : Tells net w told inp w' fun _ => []
  | doorbell {addr : ℕ} {val : UInt64} {i : SqIdx} {w' : World} {ds : List EnaTxDesc}
    (hdb : (Input.regWrite addr val).doorbell = some i) (hacc : TxAccepted w i val)
    (h : TxTells net i (w.rung i val) w' ds) :
    Tells net w told (.regWrite addr val) w' (Function.update told i (told i ++ ds))
  | commands {val : UInt64} {r : AdminRings} {w₁ w₂ w' : World} {told' : Told}
    (h : AdminTells r (w.setDev (w.dev.setReg regAqDb val.toUInt32)) told w₁ told')
    (htail : w₂ = w₁.setDev (w₁.dev.setReg regAcqTail w₁.dev.acqTail.toUInt32))
    (hintr : w' = w₂ ∨ w' = enaAdminIntr w₂) : Tells net w told (.regWrite regAqDb val) w' told'
  | nothing {inp : Input} {w' : World} (hreset : ¬ inp.Resets)
    (hadmin : ∀ val, inp = .regWrite regAqDb val →
    w' = w.setDev (w.dev.setReg regAqDb val.toUInt32))
    (hdb : ∀ addr val i, inp = .regWrite addr val → inp.doorbell = some i → ¬ TxAccepted w i val) :
    Tells net w told inp w' told

/-- A run of the device, with the story of every SQ. -/
inductive TxHistory (net : Net) : World → Told → Prop
  | start (w₀ : World) : TxHistory net (enaDevReset w₀) fun _ => []
  | step {w w' : World} {inp : Input} {told told' : Told} (h : TxHistory net w told)
    (hs : step net w inp = .ok w') (ht : Tells net w told inp w' told') : TxHistory net w' told'

/-- The device recalls the last segment size that every SQ was told. -/
def Recalls (s : EnaState) (told : Told) : Prop :=
  ∀ i, (s.sq i).used = true → (s.sq i).txMeta.mss.toNat = lastMss (told i)

section Tells
variable {net : Net} {w w' u u' : World} {i : SqIdx} {p : EnaTxPkt} {ds es : List EnaTxDesc} {n : ℕ}

lemma lastMss_concat (ds : List EnaTxDesc) (d : EnaTxDesc) : lastMss (ds ++ [d]) = d.mss := by
  rw [lastMss,List.getLast?_append,List.getLast?_singleton]
  rfl

/-- A parsed packet has a meta descriptor if its first slot holds one, and then it is that one. -/
lemma parse_meta (hok : (w.dev.sq i).Ok w.dev) (hp : enaTxParse w i = .ok (some p)) :
    (p.haveMeta = (w.txSlot i (w.dev.sq i) 0).isMeta) ∧
      (p.haveMeta = true → p.txMeta = (w.txSlot i (w.dev.sq i) 0).readMeta) := by
  have hiff := ((hok.txReadable w i).parse_iff (E := fun _ => True)).of_ok hp
  obtain ⟨m,k,hg,rfl⟩ := (hiff p).mp rfl
  have hlt := hg.nonempty
  rcases Nat.le_one_iff_eq_zero_or_eq_one.mp hg.metas with rfl | rfl
  · refine ⟨?_,fun h => absurd h (by simp [txPktOf])⟩
    rw [hg.data 0 le_rfl (by omega)]
    rfl
  · refine ⟨?_,fun _ => rfl⟩
    rw [(hg.metaDesc rfl).1]
    rfl

/-- The segment size that is in force for a packet. -/
lemma withMeta_mss (hok : (w.dev.sq i).Ok w.dev) (hp : enaTxParse w i = .ok (some p))
    (hlast : (w.dev.sq i).txMeta.mss.toNat = lastMss ds) :
    ((w.withMeta i p).dev.sq i).txMeta.mss.toNat = lastMss (ds ++ w.metaDescs i) := by
  obtain ⟨hhave,hmeta⟩ := parse_meta hok hp
  unfold World.withMeta World.metaDescs
  rw [← hhave]
  split_ifs with h
  · rw [World.setSq_sq,lastMss_concat,hmeta h]
    exact (EnaTxDesc.readMeta_fields _).mss
  · rw [List.append_nil]
    exact hlast

lemma TxResult.sq (h : TxResult net w i p w') : w'.dev.sq = w.dev.sq := by cases h <;> rfl

/-- The segment size stays in force after the packet. -/
lemma TxProcessed.txMeta (h : TxProcessed net i p w w') :
    (w'.dev.sq i).txMeta = ((w.withMeta i p).dev.sq i).txMeta := by
  cases h with
  | taken n hr => rw [txTaken_sq,hr.sq]
  | completed n hr => rw [txCompleted_sq,txTaken_sq,hr.sq]

/-- A burst that is discarded leaves the segment size alone. -/
lemma enaTxDoorbellStep_discards (hp : enaTxParse w i = .ok none)
    (hs : enaTxDoorbellStep net w i = .ok w') :
    (w'.dev.sq i).txMeta = (w.dev.sq i).txMeta := by
  unfold enaTxDoorbellStep at hs
  rw [hp,ok_bind] at hs
  cases hs
  rw [World.setSq_sq]
  rfl

/-- What holds in the middle of a doorbell. -/
structure MidDoorbell (i : SqIdx) (w u : World) (ds : List EnaTxDesc) : Prop where
  tables : TableInv u.dev
  used : (u.dev.sq i).used = true
  isTx : (u.dev.sq i).isTx = true
  others : ∀ j, j ≠ i → u.dev.sq j = w.dev.sq j
  mss : (u.dev.sq i).txMeta.mss.toNat = lastMss ds

lemma MidDoorbell.next (h : MidDoorbell i w u ds) (hbusy : (u.dev.sq i).head ≠ (u.dev.sq i).tail)
    (hs : enaTxDoorbellStep net u i = .ok u') (hmss : (u'.dev.sq i).txMeta.mss.toNat = lastMss es) :
    MidDoorbell i w u' es := by
  have hone : TxIterates net i 1 u u' :=
    .next (txIteration_of_step h.tables h.used hbusy hs) (.done u')
  obtain ⟨hw,hu,htx⟩ := hone.tables h.tables h.used h.isTx
  obtain ⟨c,hc,-⟩ := (h.tables.sq i h.used).cq
  obtain ⟨head,tail,m,hsq⟩ := ((hone.ran h.tables h.used h.isTx).frame h.tables h.isTx hc).sq
  refine ⟨hw,hu,htx,fun j hj => ?_,hmss⟩
  rw [hsq,Function.update_of_ne hj]
  exact h.others j hj

lemma TxTells.mid (h : TxTells net i w u ds) (h₀ : MidDoorbell i w w es) :
    MidDoorbell i w u (es ++ ds) := by
  induction h with
  | done =>
    rw [List.append_nil]
    exact h₀
  | @packet u u' p ds _ hbusy hp hs ih =>
    refine ih.next hbusy hs ?_
    rw [(enaTxDoorbellStep_processed ih.tables ih.used hp hs).txMeta,← List.append_assoc]
    exact withMeta_mss (ih.tables.sq i ih.used) hp ih.mss
  | discard _ hbusy hp hs ih =>
    refine ih.next hbusy hs ?_
    rw [enaTxDoorbellStep_discards hp hs]
    exact ih.mss

/-- Every chain of iterations tells something. -/
lemma TxIterates.tells (h : TxIterates net i n u u') (hw : TableInv u.dev)
    (hu : (u.dev.sq i).used = true) (htx : (u.dev.sq i).isTx = true) (ht : TxTells net i w u ds) :
    ∃ es, TxTells net i w u' es := by
  induction h generalizing ds with
  | done u => exact ⟨ds,ht⟩
  | @next n u u₁ u' hiter _ ih =>
    obtain ⟨hw₁,hu₁,htx₁⟩ := (TxIterates.next hiter (.done u₁)).tables hw hu htx
    obtain ⟨o,hparse,-⟩ := (((hw.sq i hu).txReadable u i).parse_iff (E := fun _ => False)).exists_ok
    cases o with
    | none => exact ih hw₁ hu₁ htx₁ (.discard ht hiter.busy hparse hiter.step)
    | some p => exact ih hw₁ hu₁ htx₁ (.packet ht hiter.busy hparse hiter.step)

lemma midDoorbell_rung {val : UInt64} (hacc : TxAccepted w i val) (hw : TableInv w.dev)
    (hmss : (w.dev.sq i).txMeta.mss.toNat = lastMss ds) : MidDoorbell i (w.rung i val)
    (w.rung i val) ds := by
  have hsq := rung_sq w i val
  refine ⟨rung_tables hw hacc.count,?_,?_,fun _ _ => rfl,?_⟩
  · rw [hsq]
    exact hacc.used
  · rw [hsq]
    exact hacc.isTx
  · rw [hsq]
    exact hmss

end Tells

section Recalls
variable {net : Net} {w w' : World} {s s' : EnaState} {told told' : Told} {cmd resp : Bytes}
  {status : AdminStatus} {r : AdminRings} {inp : Input}

/-- No SQ appears, and those that are there keep what they recall. -/
lemma Recalls.keep (h : Recalls s told)
    (hsq : ∀ i, (s'.sq i).used = true → (s.sq i).used = true ∧ (s'.sq i).txMeta = (s.sq i).txMeta) :
    Recalls s' told := by
  intro i hu
  obtain ⟨hused,hmeta⟩ := hsq i hu
  rw [hmeta]
  exact h i hused

lemma Recalls.same (h : Recalls s told) (hsq : s'.sq = s.sq) : Recalls s' told := by
  refine h.keep fun i hu => ?_
  rw [hsq] at hu ⊢
  exact ⟨hu,rfl⟩

/-- The response of a command that creates an SQ names the slot. -/
def Created (cmd : Bytes) (status : AdminStatus) (resp : Bytes) (i : SqIdx) : Prop :=
  Opcode.ofCode (u8At cmd 2) = some .createSq ∧ status = .success ∧ (le16At resp 0).toNat = i.val

/-- A new SQ recalls nothing, and the others what they did before. -/
lemma Recalls.exec (h : Recalls s told) (ht : Tabled s cmd status resp s')
    (hnew : ∀ i, Created cmd status resp i → told' i = [])
    (hold : ∀ i, ¬ Created cmd status resp i → told' i = told i) : Recalls s' told' := by
  have hother : Opcode.ofCode (u8At cmd 2) ≠ some .createSq → told' = told := fun hne =>
    funext fun i => hold i fun hc => hne hc.1
  cases ht with
  | refused hne hsq =>
    have hsame : told' = told := funext fun i => hold i fun hc => hne hc.2.1
    rw [hsame]
    exact h.same hsq
  | other hop hsq =>
    rw [hother fun he => hop (by rw [he]; decide)]
    exact h.same hsq
  | createCq hop =>
    rw [hother (by rw [hop]; decide)]
    exact h.same rfl
  | destroyCq hop =>
    rw [hother (by rw [hop]; decide)]
    exact h.same rfl
  | createSq hop i hfree hq =>
    have hidx := createSqResp_idx i (CreateSqCmd.ofBytes cmd).llq
    intro j hu
    rcases eq_or_ne j i with rfl | hj
    · rw [hnew j ⟨hop,rfl,hidx⟩,EnaState.setSq_sq,hq.txMeta]
      rfl
    · rw [EnaState.setSq_sq_of_ne _ hj] at hu ⊢
      rw [hold j fun hc => hj (Fin.ext (hc.2.2.symm.trans hidx))]
      exact h j hu
  | destroySq hop i =>
    rw [hother (by rw [hop]; decide)]
    refine h.keep fun j hu => ?_
    rcases eq_or_ne j i with rfl | hj
    · rw [EnaState.setSq_sq] at hu
      cases hu
    · rw [EnaState.setSq_sq_of_ne _ hj] at hu ⊢
      exact ⟨hu,rfl⟩

/-- The command that an iteration executes, and its response. -/
lemma AdminIter.created (h : AdminIter r w w') : ∃ status resp w₁,
    enaAdminExec w.aqTaken (w.aqCmd r) = .ok (status,resp,w₁) ∧ w'.dev.sq = w₁.dev.sq ∧
      ∀ i, CreatesSq r w i ↔ Created (w.aqCmd r) status resp i := by
  obtain ⟨status,resp,w₁,hexec,rfl⟩ := h.exec
  refine ⟨status,resp,w₁,hexec,rfl,fun i => ⟨?_,?_⟩⟩
  · rintro ⟨hop,resp',w₁',hexec',hidx⟩
    cases hexec.symm.trans hexec'
    exact ⟨hop,rfl,hidx⟩
  · rintro ⟨hop,rfl,hidx⟩
    exact ⟨hop,resp,w₁,hexec,hidx⟩

lemma AdminTells.recalls (h : AdminTells r w told w' told') (h₀ : Recalls w.dev told) :
    Recalls w'.dev told' := by
  induction h with
  | done => exact h₀
  | @command u u' told₁ told₂ _ hiter hnew hold ih =>
    obtain ⟨status,resp,w₁,hexec,hsq,hiff⟩ := hiter.created
    have htaken : Recalls u.aqTaken.dev told₁ := ih.same rfl
    refine Recalls.same (htaken.exec (enaAdminExec_tabled hexec)
      (fun i hc => hnew i ((hiff i).mpr hc)) fun i hc => ?_) hsq
    exact hold i fun hc' => hc ((hiff i).mp hc')

/-- Admin commands always tell something. -/
lemma adminIters_tell {told₁ : Told} {u : World} (h : ReflTransGen (AdminIter r) u w')
    (ht : AdminTells r w told u told₁) : ∃ told', AdminTells r w told w' told' := by
  classical
  induction h with
  | refl => exact ⟨told₁,ht⟩
  | @tail u' u'' _ hiter ih =>
    obtain ⟨told₂,h₂⟩ := ih
    refine ⟨fun i => if CreatesSq r u' i then [] else told₂ i,.command h₂ hiter ?_ ?_⟩
    · intro i hc
      exact if_pos hc
    · intro i hc
      exact if_neg hc

end Recalls

section Run
variable {net : Net} {w w' : World} {told told' : Told} {inp : Input} {i : SqIdx} {addr : ℕ}
  {val : UInt64}

/-- A frame that is received moves the head of one queue. -/
lemma RxOutcome.recalls {frame : Bytes} (h : RxOutcome net w frame w') (hr : Recalls w.dev told) :
    Recalls w'.dev told := by
  have hhead : ∀ (i : SqIdx) (head : UInt16) {s : EnaState},
      s.sq = Function.update w.dev.sq i { w.dev.sq i with head := head } → Recalls s told := by
    intro i head s hsq
    refine hr.keep fun j hu => ?_
    rw [hsq] at hu ⊢
    rcases eq_or_ne j i with rfl | hj
    · rw [Function.update_self] at hu ⊢
      exact ⟨hu,rfl⟩
    · rw [Function.update_of_ne hj] at hu ⊢
      exact ⟨hu,rfl⟩
  cases h with
  | ignored => exact hr
  | dropped => exact hr
  | short => exact hr
  | bad => exact hhead _ _ rfl
  | @delivered i c ds =>
    have hsq := rxScattered_sq (i := i) (c := c) (w := w) frame (enaRxStatus net frame)
      (enaRssHash net w.dev frame) ds true 0
    generalize rxScattered i c frame (enaRxStatus net frame)
      (enaRssHash net w.dev frame) ds true 0 w = w₁ at *
    refine hhead i ((w.dev.sq i).head + UInt16.ofNat ds.length) ?_
    rw [sq_cqIntr]
    change Function.update w₁.dev.sq i _ = _
    rw [hsq]

/-- A doorbell that no TX queue accepts sends nothing. -/
lemma step_recalls_refused (hs : step net w (.regWrite addr val) = .ok w')
    (hdb : (Input.regWrite addr val).doorbell = some i) (hno : ¬ TxAccepted w i val)
    (hr : Recalls w.dev told) : Recalls w'.dev told := by
  rw [step_of_doorbell net w hdb,step_sqDoorbell] at hs
  rcases enaSqDoorbell_cases hs with rfl | ⟨hu,hcount,htx | ⟨-,rfl⟩⟩
  · exact hr
  · exact absurd ⟨hu,htx,hcount⟩ hno
  · refine hr.keep fun j hj => ?_
    change (Function.update w.dev.sq i _ j).used = true at hj
    change _ ∧ (Function.update w.dev.sq i _ j).txMeta = _
    rcases eq_or_ne j i with rfl | hne
    · rw [Function.update_self] at hj ⊢
      exact ⟨hj,rfl⟩
    · rw [Function.update_of_ne hne] at hj ⊢
      exact ⟨hj,rfl⟩

/-- An input that tells no SQ anything. -/
lemma step_recalls_rest (hw : TableInv w.dev) (hs : step net w inp = .ok w') (hreset : ¬ inp.Resets)
    (hadmin : ∀ val, inp = .regWrite regAqDb val →
    w' = w.setDev (w.dev.setReg regAqDb val.toUInt32))
    (hdb : ∀ addr val i, inp = .regWrite addr val → inp.doorbell = some i → ¬ TxAccepted w i val)
    (hr : Recalls w.dev told) : Recalls w'.dev told := by
  have hring : ∀ {i}, inp.doorbell = some i → Recalls w'.dev told := by
    intro i hi
    cases inp with
    | regWrite addr val => exact step_recalls_refused hs hi (hdb addr val i rfl hi) hr
    | _ => cases hi
  cases step_acted hw hs with
  | rest hdata => exact hr.same hdata.sq
  | txDoorbell hi => exact hring hi
  | rxDoorbell hi => exact hring hi
  | received hout => exact hout.recalls hr
  | @admin val =>
    rw [hadmin val rfl]
    exact hr.same rfl
  | reset hres => exact absurd hres hreset

/-- A step recalls what it is told. -/
lemma Tells.recalls (ht : Tells net w told inp w' told') (hw : TableInv w.dev)
    (hs : step net w inp = .ok w') (hr : Recalls w.dev told) : Recalls w'.dev told' := by
  cases ht with
  | reset hreset =>
    intro i hu
    rw [(step_resets hs hreset).sq] at hu
    cases hu
  | @doorbell addr val i _ ds hdb hacc ht =>
    have hmid := ht.mid (midDoorbell_rung hacc hw (hr i hacc.used))
    intro j hu
    rcases eq_or_ne j i with rfl | hj
    · rw [Function.update_self]
      exact hmid.mss
    · rw [Function.update_of_ne hj]
      have hsame : w'.dev.sq j = w.dev.sq j := by
        rw [hmid.others j hj]
        exact World.setSq_sq_of_ne w hj _
      rw [hsame] at hu ⊢
      exact hr j hu
  | @commands val r w₁ w₂ _ _ ht htail hintr =>
    have hend := ht.recalls (hr.same rfl)
    have htailed : Recalls w₂.dev told' := by
      rw [htail]
      exact hend.same rfl
    rcases hintr with rfl | rfl
    · exact htailed
    · rw [dev_adminIntr]
      exact htailed
  | nothing hreset hadmin hdb => exact step_recalls_rest hw hs hreset hadmin hdb hr

/-- Every step tells something. -/
lemma step_tells (hw : TableInv w.dev) (hs : step net w inp = .ok w') (told : Told) :
    ∃ told', Tells net w told inp w' told' := by
  by_cases hreset : inp.Resets
  · exact ⟨_,.reset hreset⟩
  by_cases hadmin : ∃ val, inp = .regWrite regAqDb val
  · obtain ⟨val,rfl⟩ := hadmin
    cases enaAdminProcess_ran ((step_aqDb net w val).symm.trans hs) with
    | ignored =>
      refine ⟨told,.nothing hreset (fun val' he => ?_) fun addr val' i he hdb => ?_⟩
      · cases he
        rfl
      · cases hdb
    | ran hiters htail hintr =>
      obtain ⟨told',ht⟩ := adminIters_tell hiters (@AdminTells.done _ _ told)
      exact ⟨told',.commands ht htail hintr⟩
  by_cases hacc : ∃ addr val i, inp = .regWrite addr val ∧ inp.doorbell = some i ∧
    TxAccepted w i val
  · obtain ⟨addr,val,i,rfl,hdb,hacc⟩ := hacc
    obtain ⟨n,hiter,-⟩ := hacc.iterates hw ((step_of_doorbell net w hdb).symm.trans hs)
    have hsq := rung_sq w i val
    obtain ⟨ds,ht⟩ := hiter.tells (rung_tables hw hacc.count) (by rw [hsq]; exact hacc.used)
      (by rw [hsq]; exact hacc.isTx) .done
    exact ⟨_,.doorbell hdb hacc ht⟩
  · exact ⟨told,.nothing hreset (fun val he => absurd ⟨val,he⟩ hadmin) fun addr val i he hdb hno =>
      hacc ⟨addr,val,i,he,hdb,hno⟩⟩

lemma TxHistory.recalls (h : TxHistory net w told) :
    (TableInv w.dev ∧ TxIdle none w.dev) ∧ Recalls w.dev told := by
  induction h with
  | start w₀ =>
    refine ⟨reset_tables w₀,fun i hu => ?_⟩
    cases hu
  | step _ hs ht ih => exact ⟨step_tables ih.1 hs,ht.recalls ih.1.1 hs ih.2⟩

lemma reachable_txHistory (h : Reachable net w) : ∃ told, TxHistory net w told := by
  obtain ⟨w₀,inputs,hrun⟩ := h
  refine run_invariant (P := fun w => ∃ told, TxHistory net w told) ?_ ⟨_,.start w₀⟩ hrun
  rintro w inp w' ⟨told,ht⟩ hs
  obtain ⟨told',hnext⟩ := step_tells ht.recalls.1.1 hs told
  exact ⟨told',.step ht hs hnext⟩

/-- The segment size that goes to the backend is the one in force. -/
lemma TxResult.sends {p : EnaTxPkt} (h : TxResult net w i p w') :
    Adds (fun e => ∀ frame offloads mss, e = .txPktSend frame offloads mss →
      mss = (w.dev.sq i).txMeta.mss)
      w w' := by
  cases h with
  | refused => exact .refl w
  | unread => exact .of_eq rfl
  | filtered => exact .refl w
  | dropped => exact .of_eq rfl
  | sent => exact Adds.trans (.emit fun _ _ _ he => by cases he) (.of_eq rfl)
  | unparsable => exact Adds.trans (.emit fun _ _ _ he => by cases he) (.of_eq rfl)
  | offloaded =>
    refine Adds.trans (Adds.trans (.emit fun _ _ _ he => by cases he) (.emit ?_)) (.of_eq rfl)
    rintro frame offloads mss ⟨⟩
    rfl
  | notTaken =>
    refine Adds.trans (.emit fun _ _ _ he => by cases he) (.emit ?_)
    rintro frame offloads mss ⟨⟩
    rfl

/-- Every run has a story, and in every run the segment size of a packet is that of the last meta
descriptor in the story of its SQ, with the packet's own as the last one there can be. -/
theorem tso_mss_last_told (net : Net) :
    (∀ w, Reachable net w → ∃ told, TxHistory net w told) ∧
    ∀ w told i val u ds p u', TxHistory net w told → TxAccepted w i val →
      TxTells net i (w.rung i val) u ds →
      enaTxParse u i = .ok (some p) → enaTxDoorbellStep net u i = .ok u' →
      ∃ mss : UInt16, mss.toNat = lastMss (told i ++ ds ++ u.metaDescs i) ∧
        ((u.withMeta i p).dev.sq i).txMeta.mss = mss ∧ TxProcessed net i p u u' ∧
        Adds (fun e => ∀ frame offloads m, e = .txPktSend frame offloads m → m = mss) u u' := by
  refine ⟨fun w => reachable_txHistory,?_⟩
  intro w told i val u ds p u' hhist hacc ht hp hs
  obtain ⟨⟨hw,-⟩,hr⟩ := hhist.recalls
  have hmid := ht.mid (midDoorbell_rung hacc hw (hr i hacc.used))
  have hprocessed := enaTxDoorbellStep_processed hmid.tables hmid.used hp hs
  refine ⟨_,withMeta_mss (hmid.tables.sq i hmid.used) hp hmid.mss,rfl,hprocessed,?_⟩
  refine hprocessed.adds (fun e he frame offloads m hsend => ?_) fun w₁ hresult => hresult.sends
  rw [hsend] at he
  cases he

/-- A packet with a meta descriptor, and a packet without. -/
def metaThenPlain : List Input :=
  driverSetup [createCqCmd,createSqCmd sqIdentityTx] [(0x4000,metaAndBuffer ++ (ownDesc 0).bytes),
    (0x5000,ownFrame)]

/-- The second packet goes by the segment size that the first one brought along. -/
theorem tso_mss_last_told_second :
    ∃ (w u : World) (p : EnaTxPkt), Reachable Net.nonIp w ∧ TxAccepted w 0 3 ∧
      TxTells Net.nonIp 0 (w.rung 0 3) u ((w.rung 0 3).metaDescs 0) ∧
      enaTxParse u 0 = .ok (some p) ∧
      p.haveMeta = false ∧ ((u.withMeta 0 p).dev.sq 0).txMeta.mss = 1460 := by
  obtain ⟨w,hrun,htest⟩ := exists_of_okAnd (p := fun w : World =>
      (w.dev.sq 0).used && (w.dev.sq 0).isTx &&
      decide ((3 : UInt64).toUInt32.toUInt16 - (w.dev.sq 0).head ≤ (w.dev.sq 0).depth) &&
      decide (((w.rung 0 3).dev.sq 0).head ≠ ((w.rung 0 3).dev.sq 0).tail) &&
      okAnd Option.isSome (enaTxParse (w.rung 0 3) 0) &&
      decide (((w.rung 0 3).metaDescs 0).map EnaTxDesc.mss = [1460]) &&
      okAnd (fun u => okAnd (fun o : Option EnaTxPkt => o.any fun p => !p.haveMeta)
        (enaTxParse u 0) &&
        decide (u.metaDescs 0 = []) && okAnd (fun _ => true) (enaTxDoorbellStep Net.nonIp u 0))
        (enaTxDoorbellStep Net.nonIp (w.rung 0 3) 0))
    (x := run Net.nonIp freshWorld metaThenPlain) (by decide +kernel)
  simp only [Bool.and_eq_true,decide_eq_true_iff] at htest
  obtain ⟨⟨⟨⟨⟨⟨hu,htx⟩,hcount⟩,hbusy⟩,hparse⟩,hmss⟩,hnext⟩ := htest
  obtain ⟨o,hparse,hsome⟩ := exists_of_okAnd hparse
  obtain ⟨p,rfl⟩ := Option.isSome_iff_exists.mp hsome
  obtain ⟨u,hstep,htest⟩ := exists_of_okAnd hnext
  simp only [Bool.and_eq_true,decide_eq_true_iff] at htest
  obtain ⟨⟨hparse₁,hnone⟩,hstep₁⟩ := htest
  obtain ⟨o₁,hparse₁,hany⟩ := exists_of_okAnd hparse₁
  obtain ⟨p₁,rfl,hhave⟩ := (Option.any_eq_true _ _).mp hany
  obtain ⟨u₁,hstep₁,-⟩ := exists_of_okAnd hstep₁
  have hreach := reachable_of_run hrun
  have htells := TxTells.packet .done hbusy hparse hstep
  obtain ⟨told,hhist⟩ := (tso_mss_last_told Net.nonIp).1 w hreach
  obtain ⟨mss,hlast,hforce,-⟩ :=
    (tso_mss_last_told Net.nonIp).2 w told 0 3 u _ p₁ u₁ hhist ⟨hu,htx,hcount⟩ htells
    hparse₁ hstep₁
  obtain ⟨d,hd,hvalue⟩ := List.map_eq_singleton_iff.mp hmss
  rw [hnone,hd,List.append_nil,List.nil_append,lastMss_concat,hvalue] at hlast
  refine ⟨w,u,p₁,hreach,⟨hu,htx,hcount⟩,htells,hparse₁,by simpa using hhave,?_⟩
  rw [hforce]
  exact UInt16.toNat_inj.mp hlast

end Run

end EnaDevice
