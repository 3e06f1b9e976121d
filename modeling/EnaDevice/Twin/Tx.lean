import EnaDevice.Twin.Guise

/-! The TX datapath in a guise. -/
namespace EnaDevice
open Bytes Result

/-- The parser goes on behind this descriptor. -/
def EnaTxDesc.GoesOn (d : EnaTxDesc) (slot : ℕ) : Prop :=
  (d.isMeta = true ∧ slot = 0 ∧ d.extValid = true) ∨
    (d.isMeta = false ∧ d.isLast = false ∧ (slot = 0 → d.isFirst = true))

/-- Every slot that the parser looks at, from one slot on, has the property `P`. -/
def TxLooksAt (w : World) (i : SqIdx) (sq : EnaSq) (P : ℕ → Prop) : ℕ → ℕ → Prop
  | 0, _ => True
  | n+1, slot => enaTxSlotPosted sq slot (sq.tail - sq.head) = .ok true →
      P slot ∧ ∀ d, enaTxReadSlot w i sq slot = .ok d → d.GoesOn slot →
      TxLooksAt w i sq P n (slot+1)

section
variable {w w' : World} {i : SqIdx} {sq : EnaSq} {P Q : ℕ → Prop}

lemma TxLooksAt.mono (h : ∀ slot, P slot → Q slot) {n slot : ℕ} (hl : TxLooksAt w i sq P n slot) :
    TxLooksAt w i sq Q n slot := by
  induction n generalizing slot with
  | zero => trivial
  | succ n ih =>
    intro hposted
    obtain ⟨hp,hnext⟩ := hl hposted
    exact ⟨h slot hp,fun d hd hon => ih (hnext d hd hon)⟩

lemma txLooksAt_of_all (h : ∀ slot, P slot) (n slot : ℕ) : TxLooksAt w i sq P n slot := by
  induction n generalizing slot with
  | zero => trivial
  | succ n ih => exact fun _ => ⟨h slot,fun _ _ _ => ih (slot+1)⟩

/-- The parser depends on the slots that it looks at. -/
lemma enaTxParseFrom_congr {n slot : ℕ} {p : EnaTxPkt} (hzero : slot = 0 → p = EnaTxPkt.zero)
    (h : TxLooksAt w i sq (fun slot => enaTxReadSlot w' i sq slot = enaTxReadSlot w i sq slot) n
      slot) :
    enaTxParseFrom w' i sq n slot p = enaTxParseFrom w i sq n slot p := by
  induction n generalizing slot p with
  | zero => rfl
  | succ n ih =>
    rw [enaTxParseFrom,enaTxParseFrom]
    refine bind_congr_ok fun posted hposted => ?_
    cases posted with
    | false => simp only [Bool.not_false, if_true]
    | true =>
      obtain ⟨hread,hnext⟩ := h hposted
      simp only [Bool.not_true, Bool.false_eq_true, if_false, hread]
      refine bind_congr_ok fun d hd => ?_
      have hon : ∀ p', d.GoesOn slot →
          enaTxParseFrom w' i sq n (slot+1) p' = enaTxParseFrom w i sq n (slot+1) p' :=
        fun p' hon => ih (fun h0 => absurd h0 (Nat.succ_ne_zero slot)) (hnext d hd hon)
      refine ite_congr rfl (fun hmeta => ite_congr rfl (fun _ => rfl) fun hbad => ?_) fun hdata =>
        ite_congr rfl (fun _ => rfl) fun hfirst => ite_congr rfl (fun _ => rfl) fun _ =>
        bind_congr_ok fun _ _ => ite_congr rfl (fun _ => rfl) fun hlast => ?_
      · rw [not_or,Decidable.not_not,Bool.not_eq_true,Bool.not_eq_false'] at hbad
        exact hon _ (.inl ⟨hmeta,hbad.1,hbad.2⟩)
      · refine hon _ (.inr ⟨by simpa using hdata,by simpa using hlast,fun h0 => ?_⟩)
        by_contra hno
        rw [hzero h0] at hfirst
        exact hfirst ⟨rfl,rfl,by simpa using hno⟩

end

namespace Guise
variable {g : Guise} {w : World} {i : SqIdx} {c : CqIdx} {net : Net}

lemma wear_txGather {total : ℕ} {ds : List EnaTxDesc} (h : ∀ d ∈ ds, g.Reads w.mem d.addr d.len)
    (buf : Bytes) : enaTxGather (g.wear w) total ds buf = enaTxGather w total ds buf := by
  induction ds generalizing buf with
  | nil => rfl
  | cons d ds ih =>
    have ih' := ih fun d' hd' => h d' (List.mem_cons_of_mem _ hd')
    rw [enaTxGather,enaTxGather]
    congr 1
    funext _
    rcases wear_dmaRead (h d List.mem_cons_self) with hsame | ⟨hfail,hfail'⟩
    · rw [hsame]
      generalize enaDmaRead w d.addr d.len = r
      obtain ⟨ok,data⟩ := r
      cases ok
      · rfl
      · exact ih' _
    · generalize enaDmaRead (g.wear w) d.addr d.len = r at hfail ⊢
      generalize enaDmaRead w d.addr d.len = r' at hfail' ⊢
      obtain ⟨_,data⟩ := r
      obtain ⟨_,data'⟩ := r'
      cases hfail
      cases hfail'
      rfl

lemma wear_txDrop (h : g.SparesTx i) : (g.wear w).txDrop = g.wear w.txDrop :=
  wear_setDev (h.txDrops w.dev).symm

lemma wear_txCount (h : g.SparesTx i) (n : ℕ) : (g.wear w).txCount n = g.wear (w.txCount n) :=
  wear_setDev (h.txCount w.dev _).symm

lemma wear_txSend (h : g.SparesTx i) (mss : UInt16) (buf : Bytes) (offloads : UInt32) :
    enaTxSend net (g.wear w) mss buf offloads = g.wear (enaTxSend net w mss buf offloads) := by
  unfold enaTxSend
  rw [wear_emit (e := .sendPacket buf) rfl,wear_emit (e := .addRawFragment buf) rfl]
  simp only []
  rw [wear_emit (e := .txPktSend buf offloads mss) rfl]
  split_ifs
  · exact wear_txCount h _
  · exact wear_txDrop h
  · exact wear_txCount h _
  · rfl

lemma wear_txHandOver (h : g.SparesTx i) (sq : EnaSq) (metaCtrl : UInt32) (buf : Bytes) :
    enaTxHandOver net (g.wear w) sq metaCtrl buf =
      (enaTxHandOver net w sq metaCtrl buf).map g.wear := by
  unfold enaTxHandOver
  simp only [wear_dev, h.mtu]
  split_ifs
  · exact congrArg Except.ok (wear_txDrop h)
  · refine bind_same rfl fun protos _ => ?_
    split_ifs
    · exact congrArg Except.ok (wear_txDrop h)
    · exact bind_same rfl fun r _ => congrArg Except.ok (wear_txSend h _ _ _)

lemma wear_txFilter (h : g.SparesTx i) (sq : EnaSq) (metaCtrl : UInt32) (buf : Bytes) :
    enaTxFilter net (g.wear w) sq metaCtrl buf =
      (enaTxFilter net w sq metaCtrl buf).map g.wear := by
  unfold enaTxFilter
  simp only [wear_dev, h.macaddr]
  split_ifs
  · rfl
  · refine bind_same rfl fun _ _ => ?_
    rfl
  · refine bind_same rfl fun _ _ => ?_
    exact wear_txHandOver h sq metaCtrl buf

/-- Assembly and hand-over of a packet whose buffers read the same. -/
lemma wear_txXmit (h : g.SparesTx i) {p : EnaTxPkt}
    (hbuf : ∀ d ∈ p.desc, g.Reads w.mem d.addr d.len) :
    enaTxXmit net (g.wear w) i p = (enaTxXmit net w i p).map g.wear := by
  unfold enaTxXmit
  simp only [wear_dev, h.sq]
  cases hdesc : p.desc with
  | nil => rfl
  | cons d ds =>
    rw [hdesc] at hbuf
    simp only []
    split_ifs
    · rfl
    · rfl
    · rfl
    · refine bind_same rfl fun hdr _ => bind_same (wear_txGather hbuf hdr) fun buf _ => ?_
      cases buf with
      | none => exact congrArg Except.ok (wear_txDrop h)
      | some buf => exact wear_txFilter h _ _ _

/-- What a guise has to leave alone for a completion on a CQ: the CQ, its vector and its ring. -/
structure SparesRing (g : Guise) (c : CqIdx) (q : EnaCq) : Prop where
  cq : g.SparesCq c
  irq : ∀ v, q.vec = some v → g.SparesIrq v
  write : ∀ (m : Memory) data, data.length ≤ q.entrySize.toNat →
    (g.mem m).write q.slotAddr data = g.mem (m.write q.slotAddr data)

lemma wear_txComplete (h : g.SparesTx i)
    (hring : ∀ c, cqAt (w.dev.sq i).cqIdx = .ok c → g.SparesRing c (w.dev.cq c)) (reqId : UInt16) :
    enaTxComplete (g.wear w) i reqId = (enaTxComplete w i reqId).map g.wear := by
  unfold enaTxComplete
  simp only [wear_dev, h.sq]
  refine bind_same rfl fun c hc => ?_
  have hr := hring c hc
  simp only [hr.cq.cq]
  refine bind_same rfl fun _ _ => bind_map (wear_cqPush hr.cq ?_) fun w' hw' => ?_
  · exact hr.write _ _ (List.length_take_le _ _)
  · have hvec : (w'.dev.cq c).vec = (w.dev.cq c).vec := by
      rw [cqPushed_of_ok hw',cqPushed_cq]
      rfl
    exact congrArg Except.ok (wear_cqIntr hr.cq (fun v hv => hr.irq v (hvec.symm.trans hv)) true)

lemma wear_setSq (h : g.SparesTx i) (q : EnaSq) : (g.wear w).setSq i q = g.wear (w.setSq i q) :=
  wear_setDev (h.setSq w.dev q).symm

lemma wear_txDiscard (h : g.SparesTx i) :
    (g.wear w).txDrop.setSq i
      { (g.wear w).txDrop.dev.sq i with head := ((g.wear w).txDrop.dev.sq i).tail } =
      g.wear (w.txDrop.setSq i { w.txDrop.dev.sq i with head := (w.txDrop.dev.sq i).tail }) := by
  rw [wear_txDrop h,wear_setSq h,wear_dev,h.sq]

lemma wear_withMeta (h : g.SparesTx i) (p : EnaTxPkt) :
    (g.wear w).withMeta i p = g.wear (w.withMeta i p) := by
  unfold World.withMeta
  split_ifs
  · rw [wear_setSq h,wear_dev,h.sq]
  · rfl

/-- One packet of a doorbell whose parsing and whose buffers read the same. -/
theorem wear_txDoorbellStep (h : g.SparesTx i) (hw : TableInv w.dev) (hu : (w.dev.sq i).used = true)
    (hparse : enaTxParse (g.wear w) i = enaTxParse w i)
    (hbuf : ∀ p, enaTxParse w i = .ok (some p) → ∀ d ∈ p.desc, g.Reads w.mem d.addr d.len)
    (hring : ∀ c, cqAt (w.dev.sq i).cqIdx = .ok c → g.SparesRing c (w.dev.cq c)) :
    enaTxDoorbellStep net (g.wear w) i = (enaTxDoorbellStep net w i).map g.wear := by
  unfold enaTxDoorbellStep
  refine bind_same hparse fun o ho => ?_
  cases o with
  | none => exact congrArg Except.ok (wear_txDiscard h)
  | some p =>
    have hp := (hw.sq i hu).txPkt ho
    have hbuf' := hbuf p ho
    simp only []
    cases hdesc : p.desc with
    | nil => exact absurd hdesc hp.desc
    | cons d ds =>
      simp only []
      change (enaTxXmit net ((g.wear w).withMeta i p) i p >>= _) = Except.map g.wear
        (enaTxXmit net (w.withMeta i p) i p >>= _)
      obtain ⟨m,hm⟩ := withMeta_sq w i p
      have hpath : Path w (.tick 0) w (w.withMeta i p) := withMeta_path p
      have hok := (hpath.tableInv hw).sq i (by rw [hm]; exact hu)
      have hmem : (w.withMeta i p).mem = w.mem := by
        unfold World.withMeta
        split_ifs <;> rfl
      have hcq : (w.withMeta i p).dev.cq = w.dev.cq := by
        unfold World.withMeta
        split_ifs <;> rfl
      rw [wear_withMeta h]
      refine bind_map (wear_txXmit h (by rwa [hmem])) fun w₂ hw₂ => ?_
      have hq := (enaTxXmit_spec (E := fun _ => True) hok hp.desc).of_ok hw₂
      rw [wear_dev,h.sq]
      refine bind_same rfl fun n _ => ?_
      rw [wear_setSq h]
      split_ifs
      swap
      · rfl
      refine wear_txComplete h (fun c hc => ?_) _
      have hidx : ((w₂.setSq i { w₂.dev.sq i with
          head := (w₂.dev.sq i).head + UInt16.ofNat n }).dev.sq i).cqIdx = (w.dev.sq i).cqIdx := by
        rw [World.setSq_sq]
        change (w₂.dev.sq i).cqIdx = _
        rw [hq.quietly.queues.sq,hm]
      have hcq₂ : w₂.dev.cq = w.dev.cq := hq.quietly.queues.cq.trans hcq
      rw [hidx] at hc
      change g.SparesRing c (w₂.dev.cq c)
      rw [hcq₂]
      exact hring c hc

end Guise
end EnaDevice
