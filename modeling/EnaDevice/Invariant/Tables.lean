import EnaDevice.Invariant.Effect
import EnaDevice.Lib.Counter

/-! The queue-table invariant: what every used submission and completion queue looks like, and the
ranges of the settings that the datapath relies on. -/
namespace EnaDevice
open Relation

/-- A queue depth: a power of two between 16 and 1024. -/
structure DepthOk (d : UInt16) : Prop where
  pow : d.toNat.isPowerOfTwo
  min : enaMinQueueDepth ≤ d.toNat
  max : d.toNat ≤ enaMaxQueueDepth

lemma isPowerOfTwo_of_isPowerOf2 {n : ℕ} (h : isPowerOf2 n = true) : n.isPowerOfTwo := by
  rw [isPowerOf2,Bool.and_eq_true,bne_iff_ne,beq_iff_eq] at h
  exact Nat.ne_zero_and_sub_one_eq_zero_iff_isPowerOfTwo.mp h

lemma depthOk_of_valid {d : UInt16} (h : enaValidDepth d = true) : DepthOk d := by
  simp only [enaValidDepth, Bool.and_eq_true, decide_eq_true_eq] at h
  obtain ⟨⟨hp,hmin⟩,hmax⟩ := h
  exact ⟨isPowerOfTwo_of_isPowerOf2 hp,hmin,hmax⟩

/-- A used CQ. The phase is that of the lap the tail is in. -/
structure EnaCq.Ok (q : EnaCq) : Prop where
  depth : DepthOk q.depth
  entrySize : q.entrySize = 8 ∨ q.entrySize = 16 ∨ q.entrySize = 32
  base : q.base ≠ 0
  vector : q.intrEnabled = true → q.msixVector = enaMsixVectorNone ∨
    (1 ≤ q.msixVector.toNat ∧ q.msixVector.toNat ≤ 8)
  phase : q.phase = true ↔ q.tail.toNat/q.depth.toNat % 2 = 0

/-- A used SQ next to the completion queues. -/
structure EnaSq.Ok (s : EnaState) (q : EnaSq) : Prop where
  depth : DepthOk q.depth
  cq : ∃ c : CqIdx, q.cqIdx.toNat = c.val ∧ (s.cq c).used = true ∧ q.depth ≤ (s.cq c).depth ∧
    (q.isTx = false → 16 ≤ (s.cq c).entrySize)
  count : q.tail - q.head ≤ q.depth
  llq : q.llq = true → q.isTx = true ∧ (q.entrySize = 128 ∨ q.entrySize = 256) ∧
    q.depth.toNat*q.entrySize.toNat ≤ enaLlqQueueBytes
  host : q.llq = false → q.base ≠ 0 ∧ q.entrySize = 0

structure TableInv (s : EnaState) : Prop where
  sq : ∀ i, (s.sq i).used = true → (s.sq i).Ok s
  cq : ∀ c, (s.cq c).used = true → (s.cq c).Ok
  mtu : 128 ≤ s.mtu.toNat ∧ s.mtu.toNat ≤ 9000
  llq : s.llqEnabled = true → s.llqEntrySize = 128 ∨ s.llqEntrySize = 256
  indTbl : ∀ k, (s.rss.indTbl k).toNat < 16
  fields : ∀ p, RssFieldsOk p (s.rss.fields p)

/-- TX queues are drained, except the one whose doorbell is being served. -/
def TxIdle (busy : Option SqIdx) (s : EnaState) : Prop :=
  ∀ i, busy ≠ some i → (s.sq i).used = true → (s.sq i).isTx = true → (s.sq i).head = (s.sq i).tail

lemma EnaCq.Fresh.ok {q : EnaCq} (h : q.Fresh) : q.Ok where
  depth := depthOk_of_valid h.depth
  entrySize := h.entrySize
  base := h.base
  vector := h.vector
  phase := by simp [h.phase, h.tail]

/-- Tail and phase stay aligned over a push, also where the tail wraps. -/
lemma EnaCq.Ok.advance {q : EnaCq} (h : q.Ok) : q.advance.Ok := by
  refine ⟨h.depth,h.entrySize,h.base,h.vector,?_⟩
  have hnext := Counter.phase_succ h.depth.pow h.phase
  simp only [← Counter.mask_eq_zero_iff h.depth.pow] at hnext
  exact hnext

/-- An SQ keeps its place when the queues it points to keep theirs. -/
lemma EnaSq.Ok.of_cq {s s' : EnaState} {q : EnaSq} (h : q.Ok s)
    (hcq : ∀ c : CqIdx, q.cqIdx.toNat = c.val → (s.cq c).used = true →
      (s'.cq c).used = true ∧ (s'.cq c).depth = (s.cq c).depth ∧
        (s'.cq c).entrySize = (s.cq c).entrySize) : q.Ok s' := by
  obtain ⟨c,hc,hused,hdepth,hsize⟩ := h.cq
  obtain ⟨hu,hd,he⟩ := hcq c hc hused
  exact ⟨h.depth,⟨c,hc,hu,hd ▸ hdepth,he ▸ hsize⟩,h.count,h.llq,h.host⟩

lemma EnaSq.Ok.of_eq_cq {s s' : EnaState} {q : EnaSq} (h : q.Ok s) (hcq : s'.cq = s.cq) :
    q.Ok s' := h.of_cq fun c _ hu => by rw [hcq]; exact ⟨hu,rfl,rfl⟩

lemma EnaSq.Fresh.ok {s : EnaState} {q : EnaSq} (hs : TableInv s) (h : q.Fresh s) : q.Ok s where
  depth := depthOk_of_valid h.depth
  cq := h.cq
  count := by
    rw [h.tail,h.head]
    simp
  llq hl := by
    obtain ⟨htx,hen,he,hbytes⟩ := h.llq hl
    exact ⟨htx,he ▸ hs.llq hen,hbytes⟩
  host := h.host

namespace TableInv
variable {s s' : EnaState}

lemma of_sameQueues (h : TableInv s) (hs : SameQueues s s') : TableInv s' := by
  refine ⟨?_,?_,?_,?_,?_,?_⟩
  · intro i hu
    rw [hs.sq] at hu ⊢
    exact (h.sq i hu).of_eq_cq hs.cq
  · intro c hu
    rw [hs.cq] at hu ⊢
    exact h.cq c hu
  · rw [hs.mtu]; exact h.mtu
  · rw [hs.llqEnabled,hs.llqEntrySize]; exact h.llq
  · rw [hs.rss]; exact h.indTbl
  · rw [hs.rss]; exact h.fields

/-- One slot of the SQ table is replaced. -/
lemma setSq (h : TableInv s) (i : SqIdx) {q : EnaSq} (hq : q.used = true → q.Ok s) :
    TableInv (s.setSq i q) := by
  refine ⟨?_,h.cq,h.mtu,h.llq,h.indTbl,h.fields⟩
  intro j hu
  by_cases hji : j = i
  · subst hji
    rw [EnaState.setSq_sq] at hu ⊢
    exact (hq hu).of_eq_cq rfl
  · rw [EnaState.setSq_sq_of_ne _ hji] at hu ⊢
    exact (h.sq j hu).of_eq_cq rfl

/-- One slot of the CQ table is replaced by a queue that serves the same SQs. -/
lemma setCq (h : TableInv s) (c : CqIdx) {q : EnaCq} (hq : q.used = true → q.Ok)
    (hsq : ∀ i, (s.sq i).used = true → (s.sq i).cqIdx.toNat = c.val → (s.cq c).used = true →
      q.used = true ∧ q.depth = (s.cq c).depth ∧ q.entrySize = (s.cq c).entrySize) :
    TableInv (s.setCq c q) := by
  refine ⟨?_,?_,h.mtu,h.llq,h.indTbl,h.fields⟩
  · intro i hu
    refine (h.sq i hu).of_cq ?_
    intro c' hc' hu'
    simp only [EnaState.setCq]
    by_cases hcc : c' = c
    · subst hcc
      rw [Function.update_self]
      exact hsq i hu hc' hu'
    · rw [Function.update_of_ne hcc]
      exact ⟨hu',rfl,rfl⟩
  · intro c' hu
    simp only [EnaState.setCq] at hu ⊢
    by_cases hcc : c' = c
    · subst hcc
      rw [Function.update_self] at hu ⊢
      exact hq hu
    · rw [Function.update_of_ne hcc] at hu ⊢
      exact h.cq c' hu

/-- Consumed entries leave the rest within the depth. -/
lemma setHead (h : TableInv s) (i : SqIdx) {n : ℕ}
    (hn : n ≤ ((s.sq i).tail - (s.sq i).head).toNat) :
    TableInv (s.setSq i { s.sq i with head := (s.sq i).head + UInt16.ofNat n }) := by
  apply h.setSq i
  intro hu
  have hok := h.sq i hu
  refine ⟨hok.depth,hok.cq,?_,hok.llq,hok.host⟩
  have hle := UInt16.le_iff_toNat_le.mp hok.count
  rw [UInt16.le_iff_toNat_le,Counter.sub_add_toNat _ _ _ hn]
  exact (Nat.sub_le _ _).trans hle

lemma queueCmd {r : AdminStatus × Bytes × EnaState} (h : TableInv s) (hr : QueueCmd s r) :
    TableInv r.2.2 := by
  cases hr with
  | refused => exact h
  | createCq i q hfree hq =>
    refine h.setCq i (fun _ => hq.ok) ?_
    intro j _ _ hu
    rw [hfree] at hu
    contradiction
  | destroyCq c hused hidle =>
    refine h.setCq c (fun hu => absurd hu (by simp)) ?_
    intro i hu hc
    exact absurd hc (hidle i hu)
  | createSq i q _ hq => exact h.setSq i fun _ => hq.ok h
  | destroySq i => exact h.setSq i fun hu => absurd hu (by simp)

/-- Header and VLAN tag on top of the MTU do not overflow. -/
lemma maxFrame (h : TableInv s) : (s.mtu + 14 + 4).toNat = s.mtu.toNat + 18 := by
  have hmax := h.mtu.2
  rw [UInt32.toNat_add,UInt32.toNat_add,show UInt32.toNat 14 = 14 from rfl,
    show UInt32.toNat 4 = 4 from rfl]
  omega

end TableInv

lemma tableInv_devReset (s : EnaState) : TableInv s.devReset where
  sq _ hu := by cases hu
  cq _ hu := by cases hu
  mtu := by
    change 128 ≤ (9000 : UInt32).toNat ∧ (9000 : UInt32).toNat ≤ 9000
    decide
  llq hen := by cases hen
  indTbl _ := by
    change (0 : UInt16).toNat < 16
    decide
  fields p := by
    change RssFieldsOk p (enaRssSupportedFields p)
    refine ⟨UInt16.and_self,?_⟩
    unfold enaRssSupportedFields
    split_ifs
    · exact .inr (.inr rfl)
    · exact .inr (.inl rfl)
    · exact .inl rfl

/-- Interrupts leave the tables alone. -/
lemma IrqOnly.sameQueues {vs : Vec → Prop} {w w' : World} (h : IrqOnly vs w w') :
    SameQueues w.dev w'.dev := by
  rw [h.dev]
  exact ⟨rfl,rfl,rfl,rfl,rfl,rfl⟩

section
variable {w₀ w w' : World} {inp : Input}

theorem Effect.tableInv (h : Effect w₀ inp w w') (hw : TableInv w.dev) : TableInv w'.dev := by
  cases h with
  | quiet hq => exact hw.of_sameQueues hq.queues
  | dma => exact hw
  | cqAdvance c hu =>
    exact hw.setCq c (fun _ => (hw.cq c hu).advance) fun _ _ _ _ => ⟨hu,rfl,rfl⟩
  | cqIntr c isTx => exact hw.of_sameQueues (irqOnly_cqIntr w c isTx).sameQueues
  | adminIntr => exact (dev_adminIntr w).symm ▸ hw
  | fire v => exact hw.of_sameQueues (irqOnly_fire w v).sameQueues
  | unmask c val => exact hw.of_sameQueues (irqOnly_unmask w c val).sameQueues
  | reset => exact tableInv_devReset w.dev
  | sqTail i val _ hval =>
    refine hw.setSq i fun hu => ?_
    have hok := hw.sq i hu
    exact ⟨hok.depth,hok.cq,hval,hok.llq,hok.host⟩
  | sqHead i n _ _ hn => exact hw.setHead i hn
  | sqMeta i m =>
    refine hw.setSq i fun hu => ?_
    have hok := hw.sq i hu
    exact ⟨hok.depth,hok.cq,hok.count,hok.llq,hok.host⟩
  | queues _ hr => exact hw.queueCmd hr
  | mtu mtu hmin hmax =>
    exact ⟨fun i hu => (hw.sq i hu).of_eq_cq rfl,hw.cq,
      ⟨UInt32.le_iff_toNat_le.mp hmin,UInt32.le_iff_toNat_le.mp hmax⟩,hw.llq,hw.indTbl,hw.fields⟩
  | llq entry =>
    refine ⟨fun i hu => (hw.sq i hu).of_eq_cq rfl,hw.cq,hw.mtu,fun _ => ?_,hw.indTbl,hw.fields⟩
    change llqEntrySizeOf entry = 128 ∨ llqEntrySizeOf entry = 256
    unfold llqEntrySizeOf
    split_ifs
    · exact .inr rfl
    · exact .inl rfl
  | rss r hf hi =>
    refine ⟨fun i hu => (hw.sq i hu).of_eq_cq rfl,hw.cq,hw.mtu,hw.llq,fun k => ?_,fun p => ?_⟩
    · rcases hi k with he | hlt
      · exact he ▸ hw.indTbl k
      · exact hlt
    · rcases hf p with he | hok
      · exact he ▸ hw.fields p
      · exact hok
  | environment => exact hw

theorem Path.tableInv (h : Path w₀ inp w w') (hw : TableInv w.dev) : TableInv w'.dev := by
  induction h with
  | refl => exact hw
  | tail _ heff ih => exact heff.tableInv ih

/-- Replacing one slot keeps the other TX queues drained. -/
lemma TxIdle.setSq {busy : Option SqIdx} {s : EnaState} (h : TxIdle busy s) (i : SqIdx) {q : EnaSq}
    (hq : busy ≠ some i → q.used = true → q.isTx = true → q.head = q.tail) :
    TxIdle busy (s.setSq i q) := by
  intro j hb
  by_cases hji : j = i
  · subst hji
    rw [EnaState.setSq_sq]
    exact hq hb
  · rw [EnaState.setSq_sq_of_ne _ hji]
    exact h j hb

lemma TxIdle.of_sameQueues {busy : Option SqIdx} {s s' : EnaState} (h : TxIdle busy s)
    (hs : SameQueues s s') : TxIdle busy s' := by
  intro i
  rw [hs.sq]
  exact h i

theorem Effect.txIdle (h : Effect w₀ inp w w') (hw : TxIdle inp.doorbell w.dev) :
    TxIdle inp.doorbell w'.dev := by
  cases h with
  | quiet hq => exact hw.of_sameQueues hq.queues
  | dma => exact hw
  | cqAdvance => exact hw
  | cqIntr c isTx => exact hw.of_sameQueues (irqOnly_cqIntr w c isTx).sameQueues
  | adminIntr => exact (dev_adminIntr w).symm ▸ hw
  | fire v => exact hw.of_sameQueues (irqOnly_fire w v).sameQueues
  | unmask c val => exact hw.of_sameQueues (irqOnly_unmask w c val).sameQueues
  | reset => exact fun _ _ hu => by cases hu
  | sqTail i val hdb => exact hw.setSq i fun hb => absurd hdb hb
  | sqHead i n htx => exact hw.setSq i fun hb _ ht => absurd (htx ht) hb
  | sqMeta i m => exact hw.setSq i fun hb hu ht => hw i hb hu ht
  | queues _ hr =>
    cases hr with
    | refused => exact hw
    | createCq => exact hw
    | destroyCq => exact hw
    | createSq i q _ hq => exact hw.setSq i fun _ _ _ => hq.head.trans hq.tail.symm
    | destroySq i => exact hw.setSq i fun _ hu => absurd hu (by simp)
  | mtu => exact hw
  | llq => exact hw
  | rss => exact hw
  | environment => exact hw

theorem Path.txIdle (h : Path w₀ inp w w') (hw : TxIdle inp.doorbell w.dev) :
    TxIdle inp.doorbell w'.dev := by
  induction h with
  | refl => exact hw
  | tail _ heff ih => exact heff.txIdle ih

end
end EnaDevice
