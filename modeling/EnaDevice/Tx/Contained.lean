import EnaDevice.Tx.Genuine
import EnaDevice.Twin.Indistinct

/-! A malformed packet ends its burst. What came before it is processed as if nothing followed, and
what comes later finds a queue that shows nothing of it but one more drop. -/
namespace EnaDevice
open Bytes Result

/-- Another tail of a queue. -/
def tailGuise (i : SqIdx) (tail : UInt16) : Guise :=
  ⟨fun s => s.setSq i { s.sq i with tail := tail },id,[]⟩

section Tail
variable {net : Net} {i j : SqIdx} {tail : UInt16} {w w' : World} {p : EnaTxPkt}

lemma tailGuise_sq (i : SqIdx) (tail : UInt16) (w : World) :
    ((tailGuise i tail).wear w).dev.sq i = { w.dev.sq i with tail := tail } :=
      Function.update_self ..

/-- The tail of a queue does not show in the others. -/
lemma tailGuise_sparesTx (h : j ≠ i) : (tailGuise i tail).SparesTx j where
  sq _ := Function.update_of_ne h _ _
  setSq s q := by
    have hother : (s.setSq j q).sq i = s.sq i := Function.update_of_ne h.symm _ _
    unfold tailGuise
    dsimp only
    rw [hother]
    unfold EnaState.setSq
    rw [Function.update_comm h.symm]
  macaddr _ := rfl
  mtu _ := rfl
  txDrops _ := rfl
  txCount _ _ := rfl

lemma tailGuise_sparesIrq (v : Vec) : (tailGuise i tail).SparesIrq v :=
  ⟨fun _ => rfl,fun _ _ => rfl⟩

lemma tailGuise_sparesCq (c : CqIdx) : (tailGuise i tail).SparesCq c :=
  ⟨fun _ => rfl,fun _ _ => rfl⟩

lemma tailGuise_setSq (i : SqIdx) (tail : UInt16) (w : World) (q : EnaSq) :
    ((tailGuise i tail).wear w).setSq i { q with tail := tail } = (tailGuise i tail).wear
      (w.setSq i q) := by
  refine Guise.wear_setDev ?_
  unfold tailGuise EnaState.setSq
  dsimp only [Guise.wear_dev]
  rw [Function.update_self,Function.update_idem,Function.update_idem]

/-- Giving up a burst is moving both ends of the queue to the tail, with one more drop. -/
lemma tailGuise_discard (s : EnaState) (i : SqIdx) (tail : UInt16) {stop : UInt16}
    (h : (s.sq i).tail = stop) :
    ({ s with txDrops := s.txDrops + 1 } : EnaState).setSq i { s.sq i with head := (s.sq i).tail } =
      { ((tailGuise i tail).dev s).setSq i
          { ((tailGuise i tail).dev s).sq i with head := stop, tail := stop } with
        txDrops := s.txDrops + 1 } := by
  subst h
  unfold tailGuise EnaState.setSq
  simp only [Function.update_self, Function.update_idem]

/-- A packet is the same packet wherever the tail is behind it. -/
lemma tail_parse (tail : UInt16) (hw : TableInv w.dev) (hu : (w.dev.sq i).used = true)
    (hparse : enaTxParse w i = .ok (some p))
    (hposted : (w.dev.sq i).slotPos (p.slots-1) < (tail - (w.dev.sq i).head).toNat) :
    enaTxParse ((tailGuise i tail).wear w) i = .ok (some p) := by
  have hok := hw.sq i hu
  obtain ⟨o,ho,hiff⟩ := (hok.txReadable w i).parse_iff.exists_ok
  obtain rfl : o = some p := Except.ok.inj (ho.symm.trans hparse)
  obtain ⟨m,k,hg,rfl⟩ := (hiff p).mp rfl
  obtain ⟨o,ho',hiff'⟩ := (hok.txReadable_moved ((tailGuise i tail).wear w) i (w.dev.sq i).head tail
    (w.dev.sq i).txMeta).parse_iff.exists_ok
  unfold enaTxParse
  rw [tailGuise_sq]
  refine ho'.trans (congrArg Except.ok
    ((hiff' _).mpr ⟨m,k,⟨hg.metas,hg.nonempty,hg.max,?_,hg.metaDesc,hg.first,hg.data,hg.last⟩,rfl⟩))
  intro j hj
  have hle : (w.dev.sq i).slotPos j ≤ (w.dev.sq i).slotPos (k-1) := TxPacket.slotPos_mono (by omega)
  exact lt_of_le_of_lt hle hposted

lemma tail_withMeta (w : World) (p : EnaTxPkt) :
    ((tailGuise i tail).wear w).withMeta i p = (tailGuise i tail).wear (w.withMeta i p) := by
  unfold World.withMeta
  split_ifs
  · rw [tailGuise_sq]
    exact tailGuise_setSq i tail w { w.dev.sq i with txMeta := p.txMeta }
  · rfl

lemma tail_txXmit (net : Net) (w : World) (p : EnaTxPkt) :
    enaTxXmit net ((tailGuise i tail).wear w) i p =
      (enaTxXmit net w i p).map (tailGuise i tail).wear := by
  obtain ⟨j,hj⟩ := exists_ne i
  have hspares : (tailGuise i tail).SparesTx j := tailGuise_sparesTx hj
  unfold enaTxXmit
  rw [tailGuise_sq]
  cases p.desc with
  | nil => rfl
  | cons d ds =>
    dsimp only
    split_ifs
    · rfl
    · rfl
    · rfl
    · refine bind_same rfl fun hdr _ => bind_same ?_ fun buf _ => ?_
      · exact Guise.wear_txGather (fun _ _ => ⟨rfl,fun _ => rfl⟩) hdr
      · cases buf with
        | none => exact congrArg Except.ok (Guise.wear_txDrop hspares)
        | some buf => exact Guise.wear_txFilter hspares _ _ _

lemma tail_txComplete (w : World) (reqId : UInt16) :
    enaTxComplete ((tailGuise i tail).wear w) i reqId =
      (enaTxComplete w i reqId).map (tailGuise i tail).wear := by
  unfold enaTxComplete
  rw [tailGuise_sq]
  refine bind_same rfl fun c _ => bind_same rfl fun _ _ => ?_
  refine bind_map (Guise.wear_cqPush (tailGuise_sparesCq c) rfl) fun w' _ => ?_
  exact congrArg Except.ok (Guise.wear_cqIntr (tailGuise_sparesCq c)
    (fun v _ => tailGuise_sparesIrq v) true)

/-- A packet in front of both tails is processed alike. -/
lemma tail_txDoorbellStep (hparse : enaTxParse w i = .ok (some p))
    (hparse' : enaTxParse ((tailGuise i tail).wear w) i = .ok (some p)) (hp : p.desc ≠ []) :
    enaTxDoorbellStep net ((tailGuise i tail).wear w) i =
      (enaTxDoorbellStep net w i).map (tailGuise i tail).wear := by
  unfold enaTxDoorbellStep
  rw [hparse,hparse',ok_bind,ok_bind]
  cases hdesc : p.desc with
  | nil => exact absurd hdesc hp
  | cons d ds =>
    simp only [hdesc]
    change (enaTxXmit net (((tailGuise i tail).wear w).withMeta i p) i p >>= _) =
      Except.map _ (enaTxXmit net (w.withMeta i p) i p >>= _)
    rw [tail_withMeta]
    refine bind_map (tail_txXmit net _ p) fun w₁ _ => ?_
    rw [tailGuise_sq]
    refine bind_same rfl fun n _ => ?_
    have hmoved := tailGuise_setSq i tail w₁
      { w₁.dev.sq i with head := (w₁.dev.sq i).head + UInt16.ofNat n }
    dsimp only at hmoved ⊢
    rw [hmoved]
    split_ifs
    · exact tail_txComplete _ _
    · rfl

end Tail

section Iterates
variable {net : Net} {i : SqIdx} {w w' u : World} {p : EnaTxPkt} {k : ℕ} {val : UInt64}

lemma after_txDoorbellStep (t : List Event) (hw : TableInv w.dev) (hu : (w.dev.sq i).used = true) :
    enaTxDoorbellStep net (w.after t) i = (enaTxDoorbellStep net w i).map (World.after t) := by
  have hwear : (veil t id).wear = World.after t := funext fun w => veil_wear t id w
  have hparse : enaTxParse ((veil t id).wear w) i = enaTxParse w i :=
    enaTxParseFrom_congr (fun _ => rfl) (txLooksAt_of_all (fun _ => rfl) _ _)
  rw [← hwear]
  exact Guise.wear_txDoorbellStep (veil_sparesTx i) hw hu hparse (fun _ _ _ _ => veil_reads _ _ _)
    fun c _ => veil_sparesRing c _

/-- Iterations do not depend on the past. -/
lemma TxIterates.of_after {t : List Event} (h : TxIterates net i k (w.after t) u)
    (hw : TableInv w.dev) (hu : (w.dev.sq i).used = true) (htx : (w.dev.sq i).isTx = true) :
    ∃ v : World, u = v.after t ∧ ∀ t', TxIterates net i k (w.after t') (v.after t') := by
  generalize hx : w.after t = x at h
  induction h generalizing w with
  | done x => exact ⟨w,hx.symm,fun t' => .done _⟩
  | @next k x x₁ u hiter _ ih =>
    subst hx
    have hstep := hiter.step
    rw [after_txDoorbellStep t hw hu] at hstep
    cases hw₁ : enaTxDoorbellStep net w i with
    | error e =>
      rw [hw₁] at hstep
      cases hstep
    | ok w₁ =>
      rw [hw₁] at hstep
      have hiter' : ∀ t', TxIteration net i (w.after t') (w₁.after t') := fun t' =>
        txIteration_of_step hw hu hiter.busy (by rw [after_txDoorbellStep t' hw hu,hw₁]; rfl)
      obtain ⟨hw₁,hu₁,htx₁⟩ := (TxIterates.next (hiter' []) (.done _)).tables hw hu htx
      obtain ⟨v,hv,hall⟩ := ih hw₁ hu₁ htx₁ (Except.ok.inj hstep)
      exact ⟨v,hv,fun t' => .next (hiter' t') (hall t')⟩

/-- An iteration that leaves something posted took a packet. -/
lemma TxIteration.packet (h : TxIteration net i w w') (hw : TableInv w.dev)
    (hu : (w.dev.sq i).used = true) (hbusy : (w'.dev.sq i).head ≠ (w'.dev.sq i).tail) :
    ∃ p n m, enaTxParse w i = .ok (some p) ∧ (w.dev.sq i).slotPos (p.slots-1) < n ∧ 1 ≤ n ∧
      n ≤ ((w.dev.sq i).tail - (w.dev.sq i).head).toNat ∧
      w'.dev.sq i = { w.dev.sq i with
        head := (w.dev.sq i).head + UInt16.ofNat n, txMeta := m } := by
  have hnext : ∀ {n}, w.TxNext i n → ∃ p, enaTxParse w i = .ok (some p) ∧
      (w.dev.sq i).slotPos (p.slots-1) < n := by
    intro n hn
    obtain ⟨p,hparse,hentries⟩ := hn.packet
    rw [(hw.sq i hu).txPktEntries ((hw.sq i hu).txPkt hparse).slots] at hentries
    exact ⟨p,hparse,by rw [← Except.ok.inj hentries]; exact Nat.lt_succ_self _⟩
  cases (enaTxDoorbellStep_cases (E := fun _ => True) net hw hu).of_ok h.step with
  | discarded =>
    rw [txTaken_sq] at hbusy
    have hhead := congrArg EnaSq.head (head_discard (w.dev.sq i))
    exact absurd hhead.symm hbusy
  | taken m n hn hq =>
    obtain ⟨p,hparse,hpos⟩ := hnext hn
    exact ⟨p,n,m,hparse,hpos,hn.pos,hn.posted,by rw [txTaken_sq,hq.sq]⟩
  | completed m n hn hq c reqId =>
    obtain ⟨p,hparse,hpos⟩ := hnext hn
    exact ⟨p,n,m,hparse,hpos,hn.pos,hn.posted,by rw [txCompleted_sq,txTaken_sq,hq.sq]⟩

/-- The packets in front of a malformed one are processed as if nothing were posted behind them. -/
lemma TxIterates.retail (h : TxIterates net i k w u) (hw : TableInv w.dev)
    (hu : (w.dev.sq i).used = true) (htx : (w.dev.sq i).isTx = true)
    (hbusy : (u.dev.sq i).head ≠ (u.dev.sq i).tail) :
    ((u.dev.sq i).head - (w.dev.sq i).head).toNat ≤ ((w.dev.sq i).tail - (w.dev.sq i).head).toNat ∧
      TxIterates net i k ((tailGuise i (u.dev.sq i).head).wear w)
        ((tailGuise i (u.dev.sq i).head).wear u) := by
  induction h with
  | done w =>
    rw [UInt16.sub_self]
    exact ⟨Nat.zero_le _,.done _⟩
  | @next k w w₁ u hiter hrest ih =>
    have hbusy₁ : (w₁.dev.sq i).head ≠ (w₁.dev.sq i).tail := by
      cases hrest with
      | done => exact hbusy
      | next hiter' => exact hiter'.busy
    obtain ⟨hw₁,hu₁,htx₁⟩ := (TxIterates.next hiter (.done w₁)).tables hw hu htx
    obtain ⟨p,n,m,hparse,hpos,hn,hle,hsq⟩ := hiter.packet hw hu hbusy₁
    obtain ⟨hle₁,hrest'⟩ := ih hw₁ hu₁ htx₁ hbusy
    generalize (u.dev.sq i).head = t at hle₁ hrest' ⊢
    -- the counters do not wrap past each other between the head and the tail
    have hdist : (t - (w.dev.sq i).head).toNat = n + (t - (w₁.dev.sq i).head).toNat := by
      rw [hsq] at hle₁ ⊢
      exact Counter.toNat_sub_of_advance hle hle₁
    have hsub := Counter.sub_add_toNat _ _ _ hle
    rw [hsq] at hle₁ hdist
    have htail : (t - (w.dev.sq i).head).toNat ≤ ((w.dev.sq i).tail - (w.dev.sq i).head).toNat := by
      dsimp only at hle₁ hdist
      omega
    have hparse' := tail_parse t hw hu hparse (by omega)
    have hstep : enaTxDoorbellStep net ((tailGuise i t).wear w) i = _ :=
      tail_txDoorbellStep hparse hparse' ((hw.sq i hu).txPkt hparse).desc
    rw [hiter.step] at hstep
    have heffect : Effect w (.regWrite (regSqDbBase + 4*i.val) 0) w
        (w.setSq i { w.dev.sq i with tail := t }) :=
      .sqTail i t (doorbell_regWrite i 0)
        (UInt16.le_trans (UInt16.le_iff_toNat_le.mpr htail) (hw.sq i hu).count)
    have hguise := tailGuise_sq i t w
    refine ⟨htail,.next (txIteration_of_step (heffect.tableInv hw) ?_ ?_ hstep) hrest'⟩
    · rw [hguise]
      exact hu
    · rw [hguise]
      intro he
      change (w.dev.sq i).head = t at he
      rw [he,UInt16.sub_self] at hdist
      change 0 = _ at hdist
      omega

end Iterates

/-- A queue finds the same in two worlds: itself, its CQ with the interrupt state of the vector, the
configuration of the port, and the surroundings. -/
structure SameQueue (i : SqIdx) (c : CqIdx) (x y : World) : Prop where
  sq : y.dev.sq i = x.dev.sq i
  cq : y.dev.cq c = x.dev.cq c
  irq : ∀ v, (x.dev.cq c).vec = some v → y.dev.irq v = x.dev.irq v
  macaddr : y.dev.macaddr = x.dev.macaddr
  mtu : y.dev.mtu = x.dev.mtu
  mem : y.mem = x.mem
  llq : y.llq = x.llq
  clock : y.clock = x.clock
  linkUp : y.linkUp = x.linkUp

/-- The device of one world with what a queue works on taken from the run in another. -/
def overlay (i : SqIdx) (c : CqIdx) (x y : World) : Guise where
  dev s := { y.dev with
    sq := Function.update y.dev.sq i (s.sq i)
    cq := Function.update y.dev.cq c (s.cq c)
    irq := fun v => if (x.dev.cq c).vec = some v then s.irq v else y.dev.irq v
    macaddr := s.macaddr
    mtu := s.mtu
    txPkts := y.dev.txPkts + (s.txPkts - x.dev.txPkts)
    txBytes := y.dev.txBytes + (s.txBytes - x.dev.txBytes)
    txDrops := y.dev.txDrops + (s.txDrops - x.dev.txDrops) }
  mem := id
  past := y.trace

section Overlay
variable {net : Net} {i : SqIdx} {c : CqIdx} {x y u : World}

lemma counter_shift (a b d n : UInt64) : a + (b + n - d) = a + (b - d) + n := by grind

lemma overlay_sparesTx : (overlay i c x y).SparesTx i where
  sq _ := Function.update_self ..
  setSq r q := by
    unfold overlay EnaState.setSq
    simp only [Function.update_self, Function.update_idem]
  macaddr _ := rfl
  mtu _ := rfl
  txDrops r := by
    unfold overlay
    simp only [counter_shift]
  txCount r n := by
    unfold overlay
    simp only [counter_shift]

lemma overlay_sparesRing {q : EnaCq} (hvec : q.vec = (x.dev.cq c).vec) :
    (overlay i c x y).SparesRing c q where
  cq := by
    refine ⟨fun _ => Function.update_self ..,fun r q => ?_⟩
    unfold overlay EnaState.setCq
    simp only [Function.update_self, Function.update_idem]
  irq v hv := by
    have hyes : (x.dev.cq c).vec = some v := hvec.symm.trans hv
    refine ⟨fun r => if_pos hyes,fun r q => ?_⟩
    have hirq : (fun v' => if (x.dev.cq c).vec =
      some v' then Function.update r.irq v q v' else y.dev.irq v') =
        Function.update (fun v' => if (x.dev.cq c).vec = some v' then r.irq v' else y.dev.irq v') v
          q := by
      funext v'
      by_cases he : v' = v
      · subst he
        rw [if_pos hyes,Function.update_self,Function.update_self]
      · rw [Function.update_of_ne he,Function.update_of_ne he]
    unfold overlay EnaState.setIrq
    dsimp only
    rw [hirq]
  write _ _ _ := rfl

/-- The overlay of the start is the other world. -/
lemma SameQueue.wear (h : SameQueue i c x y) :
    (overlay i c x y).wear { x with trace := [] } = y := by
  have hirq : (fun v => if (x.dev.cq c).vec = some v then x.dev.irq v else y.dev.irq v) =
      y.dev.irq := by
    funext v
    split_ifs with hv
    · exact (h.irq v hv).symm
    · rfl
  rw [← h.cq] at hirq
  have hdev : (overlay i c x y).dev x.dev = y.dev := by
    unfold overlay
    simp only [← h.sq, ← h.cq, hirq, ← h.macaddr, ← h.mtu, Function.update_eq_self, UInt64.sub_self,
      UInt64.add_zero]
  have htrace : (overlay i c x y).past ++ [] = y.trace := List.append_nil _
  unfold Guise.wear
  rw [List.map_nil,hdev,htrace,← h.llq,← h.clock,← h.linkUp]
  change ({ y with mem := x.mem } : World) = y
  rw [← h.mem]

/-- The overlay of any state of the run keeps what the queue finds. -/
lemma overlay_sameQueue (hvec : (u.dev.cq c).vec = (x.dev.cq c).vec) :
    SameQueue i c u ((overlay i c x y).wear u) where
  sq := Function.update_self ..
  cq := Function.update_self ..
  irq _ hv := if_pos (hvec.symm.trans hv)
  macaddr := rfl
  mtu := rfl
  mem := rfl
  llq := rfl
  clock := rfl
  linkUp := rfl

lemma overlay_parse : enaTxParse ((overlay i c x y).wear u) i = enaTxParse u i := by
  unfold enaTxParse
  rw [Guise.wear_dev,overlay_sparesTx.sq]
  exact enaTxParseFrom_congr (fun _ => rfl) (txLooksAt_of_all (fun _ => rfl) _ _)

lemma overlay_txDoorbellLoop (n : ℕ) (hw : TableInv u.dev) (hq : TxQueue u.dev i c)
    (hvec : (u.dev.cq c).vec = (x.dev.cq c).vec) :
    enaTxDoorbellLoop net i n ((overlay i c x y).wear u) =
      (enaTxDoorbellLoop net i n u).map (overlay i c x y).wear := by
  have hsame : ∀ u : World, ((overlay i c x y).wear u).dev.sq i = u.dev.sq i := fun u =>
    overlay_sparesTx.sq u.dev
  induction n generalizing u with
  | zero =>
    rw [enaTxDoorbellLoop,enaTxDoorbellLoop,hsame]
    exact ite_map Iff.rfl (fun _ => rfl) fun _ => rfl
  | succ n ih =>
    rw [enaTxDoorbellLoop,enaTxDoorbellLoop,hsame]
    refine ite_map Iff.rfl (fun _ => rfl) fun hne => ?_
    have hring : ∀ c', cqAt (u.dev.sq i).cqIdx = .ok c' →
        (overlay i c x y).SparesRing c' (u.dev.cq c') := by
      intro c' hc'
      obtain rfl : c = c' := Except.ok.inj ((cqAt_eq hq.cqIdx).symm.trans hc')
      exact overlay_sparesRing hvec
    refine bind_map (Guise.wear_txDoorbellStep overlay_sparesTx hw hq.used overlay_parse
      (fun _ _ _ _ => ⟨rfl,fun _ => rfl⟩) hring) fun u₁ hu₁ => ?_
    have hstep := (enaTxDoorbellStep_cases (E := fun _ => True) net hw hq.used).of_ok hu₁
    have hpath : Path u (.regWrite (regSqDbBase + 4*i.val) 0) u u₁ :=
      hstep.path u hw hq.isTx (doorbell_regWrite i 0)
    obtain ⟨_,_,hsq⟩ := hstep.sq
    obtain ⟨_,_,hcq⟩ := (hstep.frame hw hq.cqIdx).cq_eq
    refine ih (hpath.tableInv hw) ⟨?_,?_,?_⟩ ?_
    · rw [hsq]; exact hq.used
    · rw [hsq]; exact hq.isTx
    · rw [hsq]; exact hq.cqIdx
    · rw [hcq]; exact hvec

/-- A burst depends on nothing else: it is rung in the overlay as it is in the other world. -/
lemma overlay_sqDoorbell (net : Net) (y : World) (val : UInt64) (hw : TableInv u.dev)
    (hq : TxQueue u.dev i c) (hvec : (u.dev.cq c).vec = (x.dev.cq c).vec) :
    step net ((overlay i c x y).wear u) (sqDoorbell i val) =
      (step net u (sqDoorbell i val)).map (overlay i c x y).wear := by
  have hsame : ∀ u : World, ((overlay i c x y).wear u).dev.sq i = u.dev.sq i := fun u =>
    overlay_sparesTx.sq u.dev
  have hcq : ∀ u : World, ((overlay i c x y).wear u).dev.cq c = u.dev.cq c := fun _ =>
    Function.update_self ..
  rw [step_sqDoorbell,step_sqDoorbell]
  unfold enaSqDoorbell
  dsimp only
  rw [hsame]
  refine ite_map Iff.rfl (fun _ => rfl) fun _ => ite_map Iff.rfl (fun _ => rfl) fun hcount => ?_
  rw [if_pos hq.isTx,if_pos hq.isTx,Guise.wear_setSq overlay_sparesTx]
  change enaTxDoorbell net ((overlay i c x y).wear (u.rung i val)) i =
    (enaTxDoorbell net (u.rung i val) i).map _
  have hrung := rung_sq u i val
  have htables := rung_tables hw (UInt16.not_lt.mp hcount)
  have hq' : TxQueue (u.rung i val).dev i c := by
    refine ⟨?_,?_,?_⟩ <;> rw [hrung]
    · exact hq.used
    · exact hq.isTx
    · exact hq.cqIdx
  unfold enaTxDoorbell
  dsimp only
  rw [hsame]
  refine bind_same rfl fun _ _ => bind_same rfl fun c' hc' => ?_
  obtain rfl : c = c' := Except.ok.inj ((cqAt_eq hq'.cqIdx).symm.trans hc')
  rw [hcq]
  exact ite_map Iff.rfl (fun _ => rfl) fun _ => overlay_txDoorbellLoop _ htables hq' hvec

end Overlay

/-- The same action, whatever device state the record of a DMA write carries. -/
def Event.Alike : Event → Event → Prop
  | .dmaWrite site _ a data, e => ∃ s, e = .dmaWrite site s a data
  | e, e' => e' = e

/-- What a queue may be given to work on: memory, time, and its doorbell. -/
inductive Input.BurstOf (i : SqIdx) : Input → Prop
  | guest (mem : Memory) (llq : ℕ → UInt8) : BurstOf i (.guest mem llq)
  | tick (ns : ℕ) : BurstOf i (.tick ns)
  | doorbell (val : UInt64) : BurstOf i (sqDoorbell i val)

/-- Bursts are processed alike from two worlds: the same actions, the same counts, and the queue
finds the same at the end. -/
def ProcessedAlike (net : Net) (i : SqIdx) (c : CqIdx) (x y : World) (inputs : List Input) : Prop :=
  ∃ x' y' es es', run net x inputs = .ok x' ∧ run net y inputs = .ok y' ∧ SameQueue i c x' y' ∧
    x'.trace = x.trace ++ es ∧ y'.trace = y.trace ++ es' ∧ List.Forall₂ Event.Alike es es' ∧
    y'.dev.txPkts - y.dev.txPkts = x'.dev.txPkts - x.dev.txPkts ∧
    y'.dev.txBytes - y.dev.txBytes = x'.dev.txBytes - x.dev.txBytes ∧
    y'.dev.txDrops - y.dev.txDrops = x'.dev.txDrops - x.dev.txDrops

/-- Two worlds that have gone the same way from worlds with the same past, but for one more drop in
the second. -/
structure OneMoreDrop (past : List Event) (v v' : World) : Prop where
  dev : v'.dev = { v.dev with txDrops := v.dev.txDrops + 1 }
  mem : v'.mem = v.mem
  llq : v'.llq = v.llq
  clock : v'.clock = v.clock
  linkUp : v'.linkUp = v.linkUp
  actions : ∃ es es', v.trace = past ++ es ∧ v'.trace = past ++ es' ∧
    List.Forall₂ Event.Alike es es'

section Contained
variable {net : Net} {i : SqIdx} {c : CqIdx} {w x y u : World} {k : ℕ} {val : UInt64}

lemma alike_event (g : Guise) (e : Event) : e.Alike (g.event e) ∧ (g.event e).Alike e := by
  cases e with
  | dmaWrite site s a data => exact ⟨⟨_,rfl⟩,⟨_,rfl⟩⟩
  | _ => exact ⟨rfl,rfl⟩

lemma forall₂_alike (g : Guise) (es : List Event) :
    List.Forall₂ Event.Alike es (es.map g.event) ∧
    List.Forall₂ Event.Alike (es.map g.event) es := by
  rw [List.forall₂_map_right_iff,List.forall₂_map_left_iff,List.forall₂_same,List.forall₂_same]
  exact ⟨fun e _ => (alike_event g e).1,fun e _ => (alike_event g e).2⟩

lemma overlay_run (net : Net) (x y : World) {inputs : List Input}
    (hin : ∀ inp ∈ inputs, inp.BurstOf i) (hw : TableInv u.dev ∧ TxIdle none u.dev)
    (hq : TxQueue u.dev i c) (hvec : (u.dev.cq c).vec = (x.dev.cq c).vec) :
    ∃ u', run net u inputs = .ok u' ∧
      run net ((overlay i c x y).wear u) inputs = .ok ((overlay i c x y).wear u') ∧
      (u'.dev.cq c).vec = (x.dev.cq c).vec := by
  induction inputs generalizing u with
  | nil => exact ⟨u,rfl,rfl,hvec⟩
  | cons inp inputs ih =>
    have hrest : ∀ inp ∈ inputs, inp.BurstOf i := fun inp hi => hin inp (List.mem_cons_of_mem _ hi)
    cases hin inp List.mem_cons_self with
    | guest mem llq => exact ih (u := { u with mem := mem, llq := llq }) hrest hw hq hvec
    | tick ns => exact ih (u := { u with clock := u.clock + ns }) hrest hw hq hvec
    | doorbell val =>
      obtain ⟨u₁,hstep,hframe⟩ := hq.frame net hw.1 val
      have hover := overlay_sqDoorbell net y val hw.1 hq hvec
      rw [hstep] at hover
      obtain ⟨_,_,_,hsq⟩ := hframe.sq
      obtain ⟨_,_,hcq⟩ := hframe.cq_eq
      have hsq₁ := congrFun hsq i
      rw [Function.update_self] at hsq₁
      have hq₁ : TxQueue u₁.dev i c := by
        refine ⟨?_,?_,?_⟩ <;> rw [hsq₁]
        · exact hq.used
        · exact hq.isTx
        · exact hq.cqIdx
      obtain ⟨u',hrun,hrun',hvec'⟩ := ih hrest (step_tables hw hstep) hq₁ (by rw [hcq]; exact hvec)
      refine ⟨u',?_,?_,hvec'⟩
      · rw [run,hstep]
        exact hrun
      · rw [run,hover]
        exact hrun'

lemma SameQueue.after (h : SameQueue i c x y) (t : List Event) : SameQueue i c (x.after t) y :=
  ⟨h.sq,h.cq,h.irq,h.macaddr,h.mtu,h.mem,h.llq,h.clock,h.linkUp⟩

/-- Bursts depend on the queue, its CQ and the surroundings, and on nothing else. -/
lemma SameQueue.processedAlike (h : SameQueue i c x y) (hx : Reachable net x)
    (hq : TxQueue x.dev i c) {inputs : List Input} (hin : ∀ inp ∈ inputs, inp.BurstOf i) :
    ProcessedAlike net i c x y inputs := by
  have hself : ({ x with trace := [] } : World).after x.trace = x := by
    unfold World.after
    rw [List.append_nil]
  obtain ⟨u,hrun,hrun',hvec⟩ := overlay_run net x y (u := { x with trace := [] }) hin hx.tables hq
    rfl
  have hafter : run net (({ x with trace := [] } : World).after x.trace) inputs = _ :=
    run_after x.trace inputs hx.tables
  rw [hself,hrun] at hafter
  rw [h.wear] at hrun'
  have hcount : ∀ a b d : UInt64, b + (a - d) - b = a - d := by grind
  exact ⟨u.after x.trace,_,_,_,hafter,hrun',(overlay_sameQueue hvec).after _,rfl,rfl,
    (forall₂_alike _ _).1,hcount _ _ _,hcount _ _ _,hcount _ _ _⟩

/-- The chain of packets in front of a malformed one, with nothing posted behind them. -/
lemma TxAccepted.front (h : TxAccepted w i val) (hw : TableInv w.dev)
    (hk : TxIterates net i k (w.rung i val) u) (hbusy : (u.dev.sq i).head ≠ (u.dev.sq i).tail) :
    ∃ v : World, u = v.after w.trace ∧ TxAccepted w i (u.dev.sq i).head.toUInt64 ∧
      TxIterates net i k (w.rung i (u.dev.sq i).head.toUInt64)
        (((tailGuise i (u.dev.sq i).head).wear v).after w.trace) := by
  have hself : ∀ val, (({ w with trace := [] } : World).rung i val).after w.trace =
      w.rung i val := by
    intro val
    unfold World.after
    change ({ w.rung i val with trace := w.trace ++ [] } : World) = _
    rw [List.append_nil]
    rfl
  have hsq := rung_sq w i val
  have hu : ((w.rung i val).dev.sq i).used = true := by rw [hsq]; exact h.used
  have htx : ((w.rung i val).dev.sq i).isTx = true := by rw [hsq]; exact h.isTx
  have htables := rung_tables hw h.count
  rw [← hself val] at hk
  obtain ⟨v,rfl,hall⟩ := hk.of_after htables hu htx
  obtain ⟨hle,htail⟩ := (hall []).retail htables hu htx hbusy
  change ((v.dev.sq i).head - ((w.rung i val).dev.sq i).head).toNat ≤
    (((w.rung i val).dev.sq i).tail - ((w.rung i val).dev.sq i).head).toNat at hle
  change TxIterates net i k ((tailGuise i (v.dev.sq i).head).wear
    (({ w with trace := [] } : World).rung i val)) ((tailGuise i (v.dev.sq i).head).wear v) at htail
  rw [hsq] at hle
  refine ⟨v,rfl,?_⟩
  change TxAccepted w i (v.dev.sq i).head.toUInt64 ∧ TxIterates net i k
    (w.rung i (v.dev.sq i).head.toUInt64) (((tailGuise i (v.dev.sq i).head).wear v).after w.trace)
  generalize (v.dev.sq i).head = t at hle htail ⊢
  have ht : t.toUInt64.toUInt32.toUInt16 = t := by simp
  have hacc : TxAccepted w i t.toUInt64 := by
    refine ⟨h.used,h.isTx,?_⟩
    rw [ht]
    exact UInt16.le_trans (UInt16.le_iff_toNat_le.mpr hle) h.count
  have hstart : (tailGuise i t).wear (({ w with trace := [] } : World).rung i val) =
      (({ w with trace := [] } : World).rung i t.toUInt64).after [] := by
    have hdev : (tailGuise i t).dev
      (w.dev.setSq i { w.dev.sq i with tail := val.toUInt32.toUInt16 }) =
        w.dev.setSq i { w.dev.sq i with tail := t } := by
      unfold tailGuise EnaState.setSq
      dsimp only
      rw [Function.update_self,Function.update_idem]
    unfold World.rung Guise.wear World.setSq World.setDev
    dsimp only
    rw [hdev,ht]
    rfl
  rw [hstart] at htail
  have hsq' := rung_sq w i t.toUInt64
  have hu' : ((w.rung i t.toUInt64).dev.sq i).used = true := by rw [hsq']; exact h.used
  have htx' : ((w.rung i t.toUInt64).dev.sq i).isTx = true := by rw [hsq']; exact h.isTx
  obtain ⟨v',hv',hall'⟩ := htail.of_after (rung_tables hw hacc.count) hu' htx'
  obtain rfl : (tailGuise i t).wear v = v' := hv'
  have hfront := hall' w.trace
  rw [hself] at hfront
  exact ⟨hacc,hfront⟩

/-- The malformed packet itself: the burst is given up. -/
lemma TxAccepted.gives_up (h : TxAccepted w i val) (hw : TableInv w.dev)
    (hk : TxIterates net i k (w.rung i val) u) (hbusy : (u.dev.sq i).head ≠ (u.dev.sq i).tail)
    (hbad : enaTxParse u i = .ok none) :
    step net w (sqDoorbell i val) =
      .ok (u.txDrop.setSq i { u.dev.sq i with head := (u.dev.sq i).tail }) := by
  have hdiscard : enaTxDoorbellStep net u i =
      .ok (u.txDrop.setSq i { u.dev.sq i with head := (u.dev.sq i).tail }) := by
    unfold enaTxDoorbellStep
    rw [hbad,ok_bind]
    rfl
  obtain ⟨m,w',hstep,hall,hdone⟩ := h.drains net hw
  obtain ⟨n,hrest⟩ := hk.split hall hdone
  cases hrest with
  | done => exact absurd hdone hbusy
  | next hnext hrest =>
    cases hnext.step.symm.trans hdiscard
    cases hrest with
    | done => exact hstep
    | next hnext' =>
      refine absurd ?_ hnext'.busy
      rw [World.setSq_sq]

/-- A malformed packet is contained: the doorbell does what it would do for the packets in front of
it alone, with the rest of the burst skipped and one more drop, and all that comes later on the
queue is processed as on any queue that is in the same state. -/
theorem malformed_contained (h : Reachable net w) (hacc : TxAccepted w i val)
    (hk : TxIterates net i k (w.rung i val) u) (hbusy : (u.dev.sq i).head ≠ (u.dev.sq i).tail)
    (hbad : enaTxParse u i = .ok none) :
    ∃ w' wr, step net w (sqDoorbell i val) = .ok w' ∧
      step net w (sqDoorbell i (u.dev.sq i).head.toUInt64) = .ok wr ∧
      TxIterates net i k (w.rung i (u.dev.sq i).head.toUInt64) wr ∧
      OneMoreDrop w.trace (wr.setSq i { wr.dev.sq i with
        head := val.toUInt32.toUInt16, tail := val.toUInt32.toUInt16 }) w' ∧
      (w'.dev.sq i).head = (w'.dev.sq i).tail ∧
      ∀ later x, run net w' later = .ok x → ∀ c y, TxQueue x.dev i c → SameQueue i c x y →
        ∀ inputs, (∀ inp ∈ inputs, inp.BurstOf i) → ProcessedAlike net i c x y inputs := by
  have hw := h.tables.1
  have hstep := hacc.gives_up hw hk hbusy hbad
  obtain ⟨v,rfl,hacc',hfront⟩ := hacc.front hw hk hbusy
  have hdone := tailGuise_sq i (v.dev.sq i).head v
  have htail : (v.dev.sq i).tail = val.toUInt32.toUInt16 := by
    have hsq := rung_sq w i val
    obtain ⟨head,m,hran⟩ := TxRan.sq
      (hk.ran (rung_tables hw hacc.count) (by rw [hsq]; exact hacc.used)
      (by rw [hsq]; exact hacc.isTx))
    rw [hsq] at hran
    exact congrArg EnaSq.tail hran
  refine ⟨_,_,hstep,hacc'.step_eq hw hfront ?_,hfront,⟨?_,rfl,rfl,rfl,rfl,?_⟩,?_,?_⟩
  · change (((tailGuise i (v.dev.sq i).head).wear v).dev.sq i).head = _
    rw [hdone]
    exact (congrArg EnaSq.tail hdone).symm
  · exact tailGuise_discard v.dev i _ htail
  · exact ⟨v.trace.map (tailGuise i (v.dev.sq i).head).event,v.trace,rfl,rfl,(forall₂_alike _ _).2⟩
  · rw [World.setSq_sq]
  · intro later x hrun c y hq hsame inputs hin
    have hwhole : run net w (sqDoorbell i val::later) = .ok x := by
      rw [run,hstep]
      exact hrun
    exact hsame.processedAlike (h.of_run hwhole) hq hin

/-- A frame, a descriptor that does not start a packet, and another frame. -/
def malformedSetup : List Input :=
  driverSetup [createCqCmd,createSqCmd sqIdentityTx]
    [(0x4000,(ownDesc 0).bytes ++ zeros 16 ++ (ownDesc 0).bytes),(0x5000,ownFrame)]

/-- The frame in front goes out, the one behind does not. -/
theorem malformed_contained_between :
    ∃ w w' wr, run Net.nonIp freshWorld malformedSetup = .ok w ∧
      step Net.nonIp w (sqDoorbell 0 3) = .ok w' ∧ step Net.nonIp w (sqDoorbell 0 1) = .ok wr ∧
      TxIterates Net.nonIp 0 1 (w.rung 0 1) wr ∧ w'.dev.txPkts = 1 ∧ w'.dev.txDrops = 1 ∧
      OneMoreDrop w.trace (wr.setSq 0 { wr.dev.sq 0 with head := 3, tail := 3 }) w' := by
  obtain ⟨w,hrun,hw⟩ := exists_of_okAnd
    (p := fun w : World => (w.dev.sq 0).used && (w.dev.sq 0).isTx &&
      decide ((3 : UInt64).toUInt32.toUInt16 - (w.dev.sq 0).head ≤ (w.dev.sq 0).depth) &&
      decide (((w.rung 0 3).dev.sq 0).head ≠ ((w.rung 0 3).dev.sq 0).tail) &&
      okAnd (fun u : World => (u.dev.sq 0).head == 1 &&
        decide ((u.dev.sq 0).head ≠ (u.dev.sq 0).tail) &&
        okAnd Option.isNone (enaTxParse u 0)) (enaTxDoorbellStep Net.nonIp (w.rung 0 3) 0) &&
      okAnd (fun w' : World => w'.dev.txPkts == 1 && w'.dev.txDrops == 1)
        (step Net.nonIp w (sqDoorbell 0 3)))
    (x := run Net.nonIp freshWorld malformedSetup) (by decide +kernel)
  simp only [Bool.and_eq_true, decide_eq_true_eq] at hw
  obtain ⟨⟨⟨⟨⟨hu,htx⟩,hval⟩,hbusy⟩,hfirst⟩,hcount⟩ := hw
  obtain ⟨u,hstep,hu'⟩ := exists_of_okAnd hfirst
  simp only [Bool.and_eq_true, decide_eq_true_eq, beq_iff_eq] at hu'
  obtain ⟨⟨hhead,hbusy'⟩,hnone⟩ := hu'
  obtain ⟨o,hparse,ho⟩ := exists_of_okAnd hnone
  rw [Option.isNone_iff_eq_none] at ho
  subst ho
  have hreach := reachable_of_run hrun
  have hused : ((w.rung 0 3).dev.sq 0).used = true := by
    rw [rung_sq]
    exact hu
  have hone : TxIterates Net.nonIp 0 1 (w.rung 0 3) u :=
    .next (txIteration_of_step (rung_tables hreach.tables.1 hval) hused hbusy hstep) (.done u)
  obtain ⟨w',wr,hw',hwr,hfront,hdrop,-⟩ :=
    malformed_contained hreach ⟨hu,htx,hval⟩ hone hbusy' hparse
  obtain ⟨w₁,hw₁,hcount⟩ := exists_of_okAnd hcount
  cases hw'.symm.trans hw₁
  simp only [Bool.and_eq_true, beq_iff_eq] at hcount
  rw [hhead] at hwr hfront
  exact ⟨w,w',wr,hrun,hw',hwr,hfront,hcount.1,hcount.2,hdrop⟩

end Contained
end EnaDevice
