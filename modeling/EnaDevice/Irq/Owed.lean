import EnaDevice.Invariant.Safety

/-! Interrupts that the device owes. A completion on an interrupt-enabled CQ owes the driver an
interrupt of the CQ's vector until the vector is notified or the device is reset. The device
remembers the debt in a pending flag or in the armed moderation timer. -/
namespace EnaDevice
open Bytes Result Relation

/-- What one event does to the debt of a vector for completions of one direction. -/
def owedAfter (v : Vec) (isTx : Bool) (owed : Bool) : Event → Bool
  | .cqIntr cq k => owed || (cq.vec == some v && k == isTx)
  | .msixNotify u => owed && u != v
  | .reset => false
  | _ => owed

def owed (v : Vec) (isTx : Bool) (trace : List Event) : Bool :=
  trace.foldl (owedAfter v isTx) false

lemma owed_append (v : Vec) (isTx : Bool) (t es : List Event) :
    owed v isTx (t ++ es) = es.foldl (owedAfter v isTx) (owed v isTx t) := by
  rw [owed,List.foldl_append]
  rfl

/-- A completion of this direction was signalled on a CQ bound to `v`, after the last notification
of `v` and after the last reset. -/
def Owed (v : Vec) (isTx : Bool) (trace : List Event) : Prop :=
  ∃ before cq after, trace = before ++ .cqIntr cq isTx :: after ∧ cq.vec = some v ∧
    .msixNotify v ∉ after ∧ .reset ∉ after

lemma owed_concat_iff (v : Vec) (isTx : Bool) (t : List Event) (e : Event) :
    Owed v isTx (t ++ [e]) ↔
      (Owed v isTx t ∧ e ≠ .msixNotify v ∧ e ≠ .reset) ∨
        ∃ cq, e = .cqIntr cq isTx ∧ cq.vec = some v := by
  constructor
  · rintro ⟨before,cq,after,he,hv,hn,hr⟩
    rcases List.eq_nil_or_concat after with rfl | ⟨after,e',rfl⟩
    · obtain ⟨-,rfl⟩ := List.append_inj' he rfl |>.imp_right List.singleton_inj.mp
      exact .inr ⟨cq,rfl,hv⟩
    · rw [List.concat_eq_append] at he hn hr
      rw [← List.cons_append,← List.append_assoc] at he
      obtain ⟨rfl,rfl⟩ := List.append_inj' he rfl |>.imp_right List.singleton_inj.mp
      rw [List.mem_append,List.mem_singleton,not_or] at hn hr
      exact .inl ⟨⟨before,cq,after,rfl,hv,hn.1,hr.1⟩,Ne.symm hn.2,Ne.symm hr.2⟩
  · rintro (⟨⟨before,cq,after,rfl,hv,hn,hr⟩,hen,her⟩ | ⟨cq,rfl,hv⟩)
    · refine ⟨before,cq,after ++ [e],by simp,hv,?_,?_⟩
      · simpa [hn] using Ne.symm hen
      · simpa [hr] using Ne.symm her
    · exact ⟨t,cq,[],rfl,hv,List.not_mem_nil,List.not_mem_nil⟩

lemma owed_iff (v : Vec) (isTx : Bool) (t : List Event) :
    owed v isTx t = true ↔ Owed v isTx t := by
  induction t using List.reverseRecOn with
  | nil =>
    constructor
    · intro h
      cases h
    · rintro ⟨before,cq,after,he,-⟩
      cases before <;> cases he
  | append_singleton t e ih =>
    rw [owed_append,owed_concat_iff,← ih,List.foldl_cons,List.foldl_nil]
    cases e with
    | cqIntr cq k =>
      simp only [owedAfter, Bool.or_eq_true, Bool.and_eq_true, beq_iff_eq, ne_eq, reduceCtorEq,
        not_false_eq_true, and_true, Event.cqIntr.injEq]
      constructor
      · rintro (h | ⟨hv,hk⟩)
        · exact .inl h
        · exact .inr ⟨cq,⟨rfl,hk⟩,hv⟩
      · rintro (h | ⟨cq',⟨rfl,hk⟩,hv⟩)
        · exact .inl h
        · exact .inr ⟨hv,hk⟩
    | msixNotify u => simp [owedAfter]
    | reset => simp [owedAfter]
    | dmaWrite => simp [owedAfter]
    | sendPacket => simp [owedAfter]
    | addRawFragment => simp [owedAfter]
    | txPktSend => simp [owedAfter]
    | flushQueuedPackets => simp [owedAfter]
    | adminExec => simp [owedAfter]

instance (v : Vec) (isTx : Bool) (t : List Event) : Decidable (Owed v isTx t) :=
  decidable_of_iff _ (owed_iff v isTx t)

/-- The device remembers that it owes an interrupt. -/
def Recorded (s : EnaState) (v : Vec) (isTx : Bool) : Prop :=
  (s.irq v).pending isTx = true ∨ (s.irq v).moderTimer ≠ none

/-- Every interrupt of an IO vector that is owed is recorded. -/
def NoLostInterrupt (w : World) : Prop :=
  ∀ v : Vec, v ≠ 0 → ∀ isTx, Owed v isTx w.trace → Recorded w.dev v isTx

/-- The write of an unmask register masks a vector that owes an interrupt without a pending flag. -/
def MaskLoses (w : World) (inp : Input) : Prop :=
  ∃ c val v isTx, inp.unmask = some (c,val) ∧ (w.dev.cq c).used = true ∧
    (w.dev.cq c).vec = some v ∧ v ≠ 0 ∧ val &&& bit 30 = 0 ∧ Owed v isTx w.trace ∧
    (w.dev.irq v).pending isTx = false

/-- What one vector owes is recorded. -/
def VecSafe (v : Vec) (w : World) : Prop :=
  ∀ isTx, owed v isTx w.trace = true → Recorded w.dev v isTx

lemma noLost_iff_vecSafe (w : World) : NoLostInterrupt w ↔ ∀ v : Vec, v ≠ 0 → VecSafe v w := by
  simp only [NoLostInterrupt, VecSafe, owed_iff]

namespace VecSafe
variable {u v : Vec} {w w' : World}

/-- The vector and its debts are the same. -/
lemma of_same (h : VecSafe v w) (hirq : w'.dev.irq v = w.dev.irq v)
    (howed : ∀ isTx, owed v isTx w'.trace = owed v isTx w.trace) : VecSafe v w' := by
  intro isTx ho
  rw [howed] at ho
  unfold Recorded
  rw [hirq]
  exact h isTx ho

/-- Quiet events leave the debts of IO vectors as they are. -/
lemma of_quiet (h : VecSafe v w) (hirq : w'.dev.irq v = w.dev.irq v)
    (hadds : Adds Event.Quiet w w') : VecSafe v w' := by
  obtain ⟨es,he,hq⟩ := hadds
  refine h.of_same hirq fun isTx => ?_
  rw [he,owed_append]
  generalize owed v isTx w.trace = o
  clear he
  induction es generalizing o with
  | nil => rfl
  | cons e es ih =>
    have hstep : owedAfter v isTx o e = o := by
      have hqe := hq e List.mem_cons_self
      cases e with
      | msixNotify => exact absurd hqe id
      | cqIntr => exact absurd hqe id
      | reset => exact absurd hqe id
      | _ => rfl
    rw [List.foldl_cons,hstep]
    exact ih (fun e he => hq e (List.mem_cons_of_mem _ he)) o

/-- Vector 0 is not an IO vector. -/
lemma adminIntr (h : VecSafe v w) (hv : v ≠ 0) : VecSafe v (enaAdminIntr w) := by
  unfold enaAdminIntr
  split_ifs
  · exact h
  · refine h.of_same rfl fun isTx => ?_
    change owed v isTx (w.trace ++ [.msixNotify 0]) = _
    simp [owed_append, owedAfter, Ne.symm hv]

lemma fire_self (w : World) (v : Vec) : VecSafe v (enaIrqFire w v) := by
  intro isTx ho
  have hf : owed v isTx (enaIrqFire w v).trace = false := by
    change owed v isTx (w.trace ++ [.msixNotify v]) = false
    simp [owed_append, owedAfter]
  rw [hf] at ho
  cases ho

lemma fire (h : VecSafe v w) (u : Vec) : VecSafe v (enaIrqFire w u) := by
  by_cases hu : u = v
  · subst hu
    exact fire_self w u
  · refine h.of_same (Function.update_of_ne (Ne.symm hu) _ _) fun isTx => ?_
    change owed v isTx (w.trace ++ [.msixNotify u]) = _
    simp [owed_append, owedAfter, hu]

/-- A scheduled vector has fired or has its timer armed. -/
lemma schedule_self (w : World) (v : Vec) (delay : UInt32) :
    VecSafe v (enaIrqSchedule w v delay) := by
  unfold enaIrqSchedule
  split_ifs
  · exact fire_self w v
  · intro isTx _
    right
    change (Function.update w.dev.irq v _ v).moderTimer ≠ none
    rw [Function.update_self]
    unfold timerModAnticipate
    split <;> exact Option.some_ne_none _

lemma schedule (h : VecSafe v w) (u : Vec) (delay : UInt32) :
    VecSafe v (enaIrqSchedule w u delay) := by
  by_cases hu : u = v
  · subst hu
    exact schedule_self w u delay
  · unfold enaIrqSchedule
    split_ifs
    · exact h.fire u
    · exact h.of_same (Function.update_of_ne (Ne.symm hu) _ _) fun _ => rfl

lemma resume (h : VecSafe v w) (u : Vec) : VecSafe v (enaIrqResume w u) := by
  unfold enaIrqResume
  dsimp only
  split_ifs
  · exact (h.schedule u _).schedule u _
  · exact h.schedule u _
  · exact h.schedule u _
  · exact h

lemma cqIntr (h : VecSafe v w) (c : CqIdx) (isTx : Bool) : VecSafe v (enaCqIntr w c isTx) := by
  have hemit : (w.dev.cq c).vec ≠ some v → VecSafe v (w.emit (.cqIntr (w.dev.cq c) isTx)) := by
    intro hne
    refine h.of_same rfl fun k => ?_
    change owed v k (w.trace ++ [.cqIntr (w.dev.cq c) isTx]) = _
    simp [owed_append, owedAfter, hne]
  unfold enaCqIntr
  dsimp only
  split
  · rename_i hvec
    exact hemit (by rw [hvec]; exact (Option.some_ne_none v).symm)
  rename_i u hvec
  split_ifs with hun
  · by_cases hu : u = v
    · subst hu
      exact schedule_self _ u _
    · exact (hemit (by rw [hvec]; exact fun he => hu (Option.some.inj he))).schedule u _
  · by_cases hu : u = v
    · -- the vector is masked: the completion sets its own flag and leaves the other one
      subst hu
      intro k ho
      unfold Recorded
      change (Function.update w.dev.irq u _ u).pending k = true ∨
        (Function.update w.dev.irq u _ u).moderTimer ≠ none
      rw [Function.update_self]
      change owed u k (w.trace ++ [.cqIntr (w.dev.cq c) isTx]) = true at ho
      change ((w.dev.irq u).pend isTx).pending k = true ∨
        ((w.dev.irq u).pend isTx).moderTimer ≠ none
      by_cases hk : isTx = k
      · left
        subst hk
        cases isTx <;> rfl
      · have ho' : owed u k w.trace = true := by simpa [owed_append, owedAfter, hk] using ho
        have hrec := h k ho'
        cases isTx <;> cases k <;> first | exact absurd rfl hk | exact hrec
    · exact (hemit (by rw [hvec]; exact fun he => hu (Option.some.inj he))).of_same
        (Function.update_of_ne (Ne.symm hu) _ _) fun _ => rfl

end VecSafe

/-! An unmask-register write changes delays and mask, never a pending flag. -/

lemma unmaskWrite_pending (irq : EnaIrq) (val : UInt32) (isTx : Bool) :
    (irq.unmaskWrite val).pending isTx = irq.pending isTx := by
  unfold EnaIrq.unmaskWrite
  split_ifs <;> cases isTx <;> rfl

lemma unmaskWrite_moderTimer (irq : EnaIrq) (val : UInt32) :
    (irq.unmaskWrite val).moderTimer = irq.moderTimer := by
  unfold EnaIrq.unmaskWrite
  split_ifs <;> rfl

lemma unmaskWrite_unmasked (irq : EnaIrq) (val : UInt32) :
    (irq.unmaskWrite val).unmasked = (val &&& bit 30 != 0) := rfl

/-- The accepted write of an unmask register with the unmask bit clear. -/
lemma enaCqUnmaskWrite_mask {w : World} {c : CqIdx} {val : UInt32} {v : Vec}
    (hu : (w.dev.cq c).used = true) (hvec : (w.dev.cq c).vec = some v) (hval : val &&& bit 30 = 0) :
    enaCqUnmaskWrite w c val =
      w.setDev (w.dev.setIrq v { (w.dev.irq v).unmaskWrite val with moderTimer := none }) := by
  unfold enaCqUnmaskWrite
  simp only [hu, if_true, hvec, unmaskWrite_unmasked, hval, bne_self_eq_false, Bool.false_eq_true,
    if_false]

/-- The accepted write with the unmask bit set. -/
lemma enaCqUnmaskWrite_unmask {w : World} {c : CqIdx} {val : UInt32} {v : Vec}
    (hu : (w.dev.cq c).used = true) (hvec : (w.dev.cq c).vec = some v) (hval : val &&& bit 30 ≠ 0) :
    enaCqUnmaskWrite w c val =
      enaIrqResume (w.setDev (w.dev.setIrq v ((w.dev.irq v).unmaskWrite val))) v := by
  unfold enaCqUnmaskWrite
  simp only [hu, if_true, hvec, unmaskWrite_unmasked, bne_iff_ne, ne_eq, hval, not_false_eq_true]

section
variable {net : Net} {w₀ w w' : World} {inp : Input}

lemma VecSafe.unmask {v : Vec} (h : VecSafe v w) (hv : v ≠ 0) {c : CqIdx} {val : UInt32}
    (hinp : inp.unmask = some (c,val)) (hkeep : ¬ MaskLoses w inp) :
    VecSafe v (enaCqUnmaskWrite w c val) := by
  by_cases hu : (w.dev.cq c).used = true
  swap
  · unfold enaCqUnmaskWrite
    simpa [hu] using h
  cases hvec : (w.dev.cq c).vec with
  | none =>
    unfold enaCqUnmaskWrite
    simpa [hu, hvec] using h
  | some u =>
    by_cases hval : val &&& bit 30 = 0
    · rw [enaCqUnmaskWrite_mask hu hvec hval]
      by_cases huv : v = u
      · subst huv
        intro isTx ho
        left
        change (Function.update w.dev.irq v _ v).pending isTx = true
        rw [Function.update_self]
        change ((w.dev.irq v).unmaskWrite val).pending isTx = true
        rw [unmaskWrite_pending]
        by_contra hp
        exact hkeep ⟨c,val,v,isTx,hinp,hu,hvec,hv,hval,(owed_iff _ _ _).mp ho,by simpa using hp⟩
      · exact h.of_same (Function.update_of_ne huv _ _) fun _ => rfl
    · have hset : VecSafe v (w.setDev (w.dev.setIrq u ((w.dev.irq u).unmaskWrite val))) := by
        by_cases huv : v = u
        · subst huv
          intro isTx ho
          unfold Recorded
          change (Function.update w.dev.irq v _ v).pending isTx = true ∨
            (Function.update w.dev.irq v _ v).moderTimer ≠ none
          rw [Function.update_self,unmaskWrite_pending,unmaskWrite_moderTimer]
          exact h isTx ho
        · exact h.of_same (Function.update_of_ne huv _ _) fun _ => rfl
      rw [enaCqUnmaskWrite_unmask hu hvec hval]
      exact hset.resume u

theorem Effect.vecSafe (h : Effect w₀ inp w w') (hkeep : ¬ MaskLoses w₀ inp) {v : Vec} (hv : v ≠ 0)
    (hw : VecSafe v w) : VecSafe v w' := by
  cases h with
  | quiet hq => exact hw.of_quiet (by rw [hq.irq]) hq.trace
  | dma site addr data =>
    refine hw.of_same rfl fun isTx => ?_
    change owed v isTx (w.trace ++ [.dmaWrite site w.dev addr data]) = _
    simp [owed_append, owedAfter]
  | cqIntr c isTx => exact hw.cqIntr c isTx
  | adminIntr => exact hw.adminIntr hv
  | fire u => exact hw.fire u
  | unmask c val hinp hw₀ =>
    subst hw₀
    exact hw.unmask hv hinp hkeep
  | reset =>
    intro isTx ho
    have hf : owed v isTx (enaDevReset w).trace = false := by
      change owed v isTx (w.trace ++ [.reset]) = false
      simp [owed_append, owedAfter]
    rw [hf] at ho
    cases ho
  | queues _ hr => cases hr <;> exact hw.of_same rfl fun _ => rfl
  | cqAdvance => exact hw.of_same rfl fun _ => rfl
  | sqTail => exact hw.of_same rfl fun _ => rfl
  | sqHead => exact hw.of_same rfl fun _ => rfl
  | sqMeta => exact hw.of_same rfl fun _ => rfl
  | mtu => exact hw.of_same rfl fun _ => rfl
  | llq => exact hw.of_same rfl fun _ => rfl
  | rss => exact hw.of_same rfl fun _ => rfl
  | environment => exact hw.of_same rfl fun _ => rfl

lemma Path.vecSafe (h : Path w₀ inp w w') (hkeep : ¬ MaskLoses w₀ inp) {v : Vec} (hv : v ≠ 0)
    (hw : VecSafe v w) : VecSafe v w' := by
  induction h with
  | refl => exact hw
  | tail _ heff ih => exact heff.vecSafe hkeep hv ih

/-- A step that does not mask an owing vector loses nothing. -/
theorem step_noLost (hw : TableInv w.dev ∧ TxIdle none w.dev) (hsafe : NoLostInterrupt w)
    (hkeep : ¬ MaskLoses w inp) (h : step net w inp = .ok w') : NoLostInterrupt w' := by
  obtain ⟨hpath,-⟩ := (step_spec net inp hw.1 hw.2).of_ok h
  rw [noLost_iff_vecSafe] at hsafe ⊢
  exact fun v hv => Path.vecSafe hpath hkeep hv (hsafe v hv)

lemma step_unmask {c : CqIdx} {val : UInt32} (h : inp.unmask = some (c,val)) :
    step net w inp = .ok (enaCqUnmaskWrite w c val) := by
  cases inp with
  | regWrite addr val64 =>
    simp only [Input.unmask] at h
    split_ifs at h with hum
    cases h
    have hdb : ¬(regSqDbBase ≤ addr ∧ addr < regSqDbBase + 16*4) := by
      simp only [regSqDbBase, regCqUnmaskBase] at hum ⊢
      omega
    change enaRegWrite net w addr val64 = _
    unfold enaRegWrite
    rw [dif_neg hdb,dif_pos hum]
    rfl
  | _ => cases h

/-- A step that does, loses the interrupt: the debt stays and no record of it does. -/
theorem step_lost (net : Net) (hlose : MaskLoses w inp) :
    ∃ w', step net w inp = .ok w' ∧ ¬ NoLostInterrupt w' := by
  obtain ⟨c,val,v,isTx,hinp,hu,hvec,hv,hval,howed,hp⟩ := hlose
  refine ⟨_,step_unmask hinp,fun hsafe => ?_⟩
  rw [enaCqUnmaskWrite_mask hu hvec hval] at hsafe
  have hrec := hsafe v hv isTx howed
  change (Function.update w.dev.irq v _ v).pending isTx = true ∨
    (Function.update w.dev.irq v _ v).moderTimer ≠ none at hrec
  rw [Function.update_self] at hrec
  rcases hrec with hrec | hrec
  · change ((w.dev.irq v).unmaskWrite val).pending isTx = true at hrec
    rw [unmaskWrite_pending,hp] at hrec
    cases hrec
  · exact hrec rfl

lemma noLost_reset (w : World) : NoLostInterrupt (enaDevReset w) := by
  rintro v - isTx howed
  rw [← owed_iff] at howed
  change owed v isTx (w.trace ++ [.reset]) = true at howed
  simp [owed_append, owedAfter] at howed

/-- A run that loses nothing keeps every owed interrupt recorded. -/
lemma run_noLost {inputs : List Input}
    (hkeep : ∀ n inp w, inputs[n]? = some inp → run net (enaDevReset w₀) (inputs.take n) = .ok w →
      ¬ MaskLoses w inp) (n : ℕ) (w : World)
    (hrun : run net (enaDevReset w₀) (inputs.take n) = .ok w) : NoLostInterrupt w := by
  induction n generalizing w with
  | zero =>
    cases hrun
    exact noLost_reset w₀
  | succ n ih =>
    cases hn : inputs[n]? with
    | none =>
      rw [List.take_add_one,hn] at hrun
      exact ih w (by simpa using hrun)
    | some inp =>
      rw [take_concat hn,run_concat] at hrun
      obtain ⟨w₁,h₁,hstep⟩ := bind_eq_ok.mp hrun
      have htables := Reachable.tables ⟨w₀,_,h₁⟩
      exact step_noLost htables (ih w₁ h₁) (hkeep n inp w₁ hn h₁) hstep

end
end EnaDevice
