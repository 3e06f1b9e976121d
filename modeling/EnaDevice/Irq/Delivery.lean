import EnaDevice.Irq.Owed

/-! Delivery of owed interrupts. What a vector owes is sent when it is unmasked, or its timer is
armed within the moderation delay; and an armed timer ends in a notification, as long as the vector
is not masked and the device not reset. -/
namespace EnaDevice
open Bytes Result Relation

/-- The input is an accepted write of an unmask register, of a CQ that is bound to the vector. -/
def WritesUnmask (w : World) (inp : Input) (v : Vec) (val : UInt32) : Prop :=
  ∃ c, inp.unmask = some (c,val) ∧ (w.dev.cq c).used = true ∧ (w.dev.cq c).vec = some v

/-- The input masks the vector. -/
def Masks (w : World) (inp : Input) (v : Vec) : Prop :=
  ∃ val, WritesUnmask w inp v val ∧ val &&& bit 30 = 0

/-- No input of a run masks the vector. -/
def KeepsUnmasked (net : Net) (w : World) (inputs : List Input) (v : Vec) : Prop :=
  ∀ n inp u, inputs[n]? = some inp → run net w (inputs.take n) = .ok u → ¬ Masks u inp v

/-- Since an earlier state the vector was notified or the device was reset. -/
def Settled (v : Vec) (w w' : World) : Prop :=
  ∃ es, w'.trace = w.trace ++ es ∧ (.msixNotify v ∈ es ∨ .reset ∈ es)

/-- The vector has its interrupt by the deadline: however the run goes on without masking it, once
the time has come the interrupt was sent, or the timer is due and sends it. -/
def SentBy (net : Net) (v : Vec) (deadline : ℕ) (w w₁ : World) : Prop :=
  ∀ inputs w₂, run net w₁ inputs = .ok w₂ → KeepsUnmasked net w₁ inputs v → deadline ≤ w₂.clockUs →
    Settled v w w₂ ∨ ∃ w₃, step net w₂ (.moderTimer v) = .ok w₃ ∧
    w₃.trace = w₂.trace ++ [.msixNotify v]

/-- A recorded interrupt is delivered: a pending flag by the write that unmasks the vector, within
the delay that it finds or sets, and an armed timer by its deadline. -/
structure Delivered (net : Net) (w : World) (v : Vec) (isTx : Bool) : Prop where
  unmask : (w.dev.irq v).pending isTx = true → ∀ inp val w₁, WritesUnmask w inp v val →
    val &&& bit 30 ≠ 0 → step net w inp = .ok w₁ →
      SentBy net v (w.clockUs + (((w.dev.irq v).unmaskWrite val).delayUs isTx).toNat) w w₁
  timer : ∀ deadline, (w.dev.irq v).moderTimer = some deadline → SentBy net v deadline w w

/-- Every interrupt of an IO vector that is owed is delivered. -/
def DeliversOwed (net : Net) (w : World) : Prop :=
  ∀ v : Vec, v ≠ 0 → ∀ isTx, Owed v isTx w.trace → Delivered net w v isTx

/-- The interrupt was sent, or the timer is armed for the deadline or earlier. -/
def Due (v : Vec) (deadline : ℕ) (w w' : World) : Prop :=
  (∃ es, w'.trace = w.trace ++ es) ∧
    (Settled v w w' ∨ ∃ t, (w'.dev.irq v).moderTimer = some t ∧ t ≤ deadline)

section
variable {net : Net} {u v : Vec} {deadline : ℕ} {w w₁ w' : World} {inp : Input}

lemma Settled.append {es : List Event} (h : Settled v w w₁) (ht : w'.trace = w₁.trace ++ es) :
    Settled v w w' := by
  obtain ⟨fs,hf,hsent⟩ := h
  refine ⟨fs ++ es,by rw [ht,hf,List.append_assoc],?_⟩
  rw [List.mem_append,List.mem_append]
  exact hsent.imp .inl .inl

namespace Due

/-- The vector keeps its state. -/
lemma of_same (h : Due v deadline w w₁) (hirq : w'.dev.irq v = w₁.dev.irq v)
    {P : Event → Prop} (hadds : Adds P w₁ w') : Due v deadline w w' := by
  obtain ⟨⟨fs,hf⟩,hdue⟩ := h
  obtain ⟨es,ht,-⟩ := hadds
  refine ⟨⟨fs ++ es,by rw [ht,hf,List.append_assoc]⟩,?_⟩
  rw [hirq]
  exact hdue.imp_left fun hsent => hsent.append ht

/-- The vector is notified, or the device reset. -/
lemma of_sent (h : Due v deadline w w₁) {e : Event} (ht : w'.trace = w₁.trace ++ [e])
    (he : e = .msixNotify v ∨ e = .reset) : Due v deadline w w' := by
  obtain ⟨⟨fs,hf⟩,-⟩ := h
  have htrace : w'.trace = w.trace ++ (fs ++ [e]) := by rw [ht,hf,List.append_assoc]
  refine ⟨⟨_,htrace⟩,.inl ⟨_,htrace,?_⟩⟩
  simp only [List.mem_append,List.mem_singleton]
  exact he.imp (fun h => .inr h.symm) fun h => .inr h.symm

lemma fire (h : Due v deadline w w₁) (u : Vec) : Due v deadline w (enaIrqFire w₁ u) := by
  by_cases hu : u = v
  · subst hu
    exact h.of_sent rfl (.inl rfl)
  · exact h.of_same (Function.update_of_ne (Ne.symm hu) _ _)
      (adds_fire w₁ (P := fun _ => True) trivial)

/-- A timer is never moved to a later time. -/
lemma schedule (h : Due v deadline w w₁) (u : Vec) (delay : UInt32) :
    Due v deadline w (enaIrqSchedule w₁ u delay) := by
  unfold enaIrqSchedule
  split_ifs with hzero
  · exact h.fire u
  by_cases hu : u = v
  · subst hu
    refine ⟨h.1,h.2.imp_right fun ⟨t,ht,hle⟩ => ?_⟩
    refine ⟨min t (w₁.clockUs + delay.toNat),?_,(min_le_left _ _).trans hle⟩
    change (Function.update w₁.dev.irq u _ u).moderTimer = _
    rw [Function.update_self]
    simp only [ht,timerModAnticipate]
  · exact h.of_same (Function.update_of_ne (Ne.symm hu) _ _) (.of_eq (P := fun _ => True) rfl)

lemma fire_self (h : ∃ es, w₁.trace = w.trace ++ es) : Due v deadline w (enaIrqFire w₁ v) := by
  obtain ⟨es,ht⟩ := h
  have htrace : (enaIrqFire w₁ v).trace = w.trace ++ (es ++ [.msixNotify v]) := by
    change w₁.trace ++ [.msixNotify v] = _
    rw [ht,List.append_assoc]
  exact ⟨⟨_,htrace⟩,.inl ⟨_,htrace,.inl (by simp)⟩⟩

/-- A schedule sends the interrupt, or arms the timer within the delay. -/
lemma schedule_self {delay : UInt32} (h : ∃ es, w₁.trace = w.trace ++ es)
    (hle : w₁.clockUs + delay.toNat ≤ deadline) : Due v deadline w (enaIrqSchedule w₁ v delay) := by
  unfold enaIrqSchedule
  split_ifs with hzero
  · exact fire_self h
  · refine ⟨h,.inr ?_⟩
    have hirq : ((w₁.setDev (w₁.dev.setIrq v { w₁.dev.irq v with
        moderTimer := timerModAnticipate (w₁.dev.irq v).moderTimer
          (w₁.clockUs + delay.toNat) })).dev.irq
          v).moderTimer = timerModAnticipate (w₁.dev.irq v).moderTimer
            (w₁.clockUs + delay.toNat) := by
      change (Function.update w₁.dev.irq v _ v).moderTimer = _
      rw [Function.update_self]
    rw [hirq]
    cases (w₁.dev.irq v).moderTimer with
    | none => exact ⟨_,rfl,hle⟩
    | some t => exact ⟨_,rfl,(min_le_right _ _).trans hle⟩

lemma resume (h : Due v deadline w w₁) (u : Vec) : Due v deadline w (enaIrqResume w₁ u) := by
  unfold enaIrqResume
  dsimp only
  split_ifs
  · exact (h.schedule u _).schedule u _
  · exact h.schedule u _
  · exact h.schedule u _
  · exact h

/-- Arming the timer leaves what is pending, and sends nothing. -/
lemma schedule_pending (w : World) (v : Vec) {delay : UInt32} (hdelay : delay ≠ 0) :
    ((enaIrqSchedule w v delay).dev.irq v).txPending = (w.dev.irq v).txPending ∧
    ((enaIrqSchedule w v delay).dev.irq v).txDelayUs = (w.dev.irq v).txDelayUs ∧
    (enaIrqSchedule w v delay).trace = w.trace ∧
    (enaIrqSchedule w v delay).clockUs = w.clockUs := by
  unfold enaIrqSchedule
  rw [if_neg hdelay]
  refine ⟨?_,?_,rfl,rfl⟩
  · change (Function.update w.dev.irq v _ v).txPending = _
    rw [Function.update_self]
  · change (Function.update w.dev.irq v _ v).txDelayUs = _
    rw [Function.update_self]

/-- What is pending when the vector is unmasked is sent, or due within its delay. -/
lemma resume_self (isTx : Bool) (h : ∃ es, w₁.trace = w.trace ++ es)
    (hp : (w₁.dev.irq v).pending isTx = true)
    (hle : w₁.clockUs + ((w₁.dev.irq v).delayUs isTx).toNat ≤ deadline) :
    Due v deadline w (enaIrqResume w₁ v) := by
  unfold enaIrqResume
  dsimp only
  cases isTx with
  | false =>
    have hrx : (w₁.dev.irq v).rxPending = true := hp
    rw [if_pos hrx]
    have hdue : Due v deadline w (enaIrqSchedule w₁ v (w₁.dev.irq v).rxDelayUs) :=
      schedule_self h hle
    split_ifs
    · exact hdue.schedule v _
    · exact hdue
  | true =>
    have htx : (w₁.dev.irq v).txPending = true := hp
    by_cases hrx : (w₁.dev.irq v).rxPending = true
    · rw [if_pos hrx]
      by_cases hzero : (w₁.dev.irq v).rxDelayUs = 0
      · -- the RX delay is zero: the vector is notified for both directions
        have hfire : enaIrqSchedule w₁ v (w₁.dev.irq v).rxDelayUs = enaIrqFire w₁ v := if_pos hzero
        have hsent : Due v deadline w (enaIrqFire w₁ v) := .fire_self h
        rw [hfire]
        split_ifs
        · exact hsent.schedule v _
        · exact hsent
      · obtain ⟨hpending,hdelay,htrace,hclock⟩ := schedule_pending w₁ v hzero
        rw [if_pos (hpending.trans htx),hdelay]
        exact schedule_self (by rw [htrace]; exact h) (by rw [hclock]; exact hle)
    · rw [if_neg hrx,if_pos htx]
      exact schedule_self h hle

lemma cqIntr (h : Due v deadline w w₁) (c : CqIdx) (isTx : Bool) :
    Due v deadline w (enaCqIntr w₁ c isTx) := by
  have hemit : Due v deadline w (w₁.emit (.cqIntr (w₁.dev.cq c) isTx)) :=
    h.of_same rfl (.emit (P := fun _ => True) trivial)
  unfold enaCqIntr
  dsimp only
  split
  · exact hemit
  rename_i u hvec
  split_ifs
  · exact hemit.schedule u _
  by_cases hu : u = v
  · subst hu
    have hirq : ∀ irq : EnaIrq, (irq.pend isTx).moderTimer = irq.moderTimer := fun irq => by
      cases isTx <;> rfl
    refine ⟨hemit.1,hemit.2.imp_right fun ⟨t,ht,hle⟩ => ⟨t,?_,hle⟩⟩
    change (Function.update w₁.dev.irq u _ u).moderTimer = _
    rw [Function.update_self,hirq]
    exact ht
  · exact hemit.of_same (Function.update_of_ne (Ne.symm hu) _ _) (.of_eq (P := fun _ => True) rfl)

/-- A write that does not mask the vector. -/
lemma unmask (h : Due v deadline w w₁) {c : CqIdx} {val : UInt32}
    (hinp : inp.unmask = some (c,val)) (hkeep : ¬ Masks w₁ inp v) :
    Due v deadline w (enaCqUnmaskWrite w₁ c val) := by
  by_cases hu : (w₁.dev.cq c).used = true
  swap
  · unfold enaCqUnmaskWrite
    simpa [hu] using h
  cases hvec : (w₁.dev.cq c).vec with
  | none =>
    unfold enaCqUnmaskWrite
    simpa [hu, hvec] using h
  | some u =>
    by_cases hval : val &&& bit 30 = 0
    · rw [enaCqUnmaskWrite_mask hu hvec hval]
      have hne : u ≠ v := by
        rintro rfl
        exact hkeep ⟨val,⟨c,hinp,hu,hvec⟩,hval⟩
      exact h.of_same (Function.update_of_ne (Ne.symm hne) _ _) (.of_eq (P := fun _ => True) rfl)
    · have hset : Due v deadline w
          (w₁.setDev (w₁.dev.setIrq u ((w₁.dev.irq u).unmaskWrite val))) := by
        by_cases huv : u = v
        · subst huv
          refine ⟨h.1,h.2.imp_right fun ⟨t,ht,hle⟩ => ⟨t,?_,hle⟩⟩
          change (Function.update w₁.dev.irq u _ u).moderTimer = _
          rw [Function.update_self,unmaskWrite_moderTimer]
          exact ht
        · exact h.of_same (Function.update_of_ne (Ne.symm huv) _ _)
            (.of_eq (P := fun _ => True) rfl)
      rw [enaCqUnmaskWrite_unmask hu hvec hval]
      exact hset.resume u

end Due

lemma Effect.due {w₀ : World} (h : Effect w₀ inp w₁ w') (hkeep : ¬ Masks w₀ inp v)
    (hdue : Due v deadline w w₁) : Due v deadline w w' := by
  cases h with
  | quiet hq => exact hdue.of_same (by rw [hq.irq]) hq.trace
  | dma => exact hdue.of_same rfl (.emit (P := fun _ => True) trivial)
  | cqIntr c isTx => exact hdue.cqIntr c isTx
  | adminIntr =>
    exact hdue.of_same (by rw [dev_adminIntr])
      (adds_adminIntr w₁ (P := fun _ => True) trivial)
  | fire u => exact hdue.fire u
  | unmask c val hinp hw₀ =>
    subst hw₀
    exact hdue.unmask hinp hkeep
  | reset => exact hdue.of_sent rfl (.inr rfl)
  | queues _ hr => cases hr <;> exact hdue.of_same rfl (.of_eq (P := fun _ => True) rfl)
  | cqAdvance => exact hdue.of_same rfl (.of_eq (P := fun _ => True) rfl)
  | sqTail => exact hdue.of_same rfl (.of_eq (P := fun _ => True) rfl)
  | sqHead => exact hdue.of_same rfl (.of_eq (P := fun _ => True) rfl)
  | sqMeta => exact hdue.of_same rfl (.of_eq (P := fun _ => True) rfl)
  | mtu => exact hdue.of_same rfl (.of_eq (P := fun _ => True) rfl)
  | llq => exact hdue.of_same rfl (.of_eq (P := fun _ => True) rfl)
  | rss => exact hdue.of_same rfl (.of_eq (P := fun _ => True) rfl)
  | environment => exact hdue.of_same rfl (.of_eq (P := fun _ => True) rfl)

lemma Path.due {w₀ : World} (h : Path w₀ inp w₁ w') (hkeep : ¬ Masks w₀ inp v)
    (hdue : Due v deadline w w₁) : Due v deadline w w' := by
  induction h with
  | refl => exact hdue
  | tail _ heff ih => exact heff.due hkeep ih

lemma run_due {inputs : List Input} (hw : TableInv w₁.dev ∧ TxIdle none w₁.dev)
    (hrun : run net w₁ inputs = .ok w') (hkeep : KeepsUnmasked net w₁ inputs v)
    (hdue : Due v deadline w w₁) : Due v deadline w w' := by
  induction inputs generalizing w₁ with
  | nil =>
    cases hrun
    exact hdue
  | cons inp inputs ih =>
    obtain ⟨w₂,hstep,hrest⟩ := bind_eq_ok.mp hrun
    have hhead : ¬ Masks w₁ inp v := hkeep 0 inp w₁ rfl rfl
    obtain ⟨hpath,-⟩ := (step_spec net inp hw.1 hw.2).of_ok hstep
    refine ih (step_tables hw hstep) hrest (fun n inp' u hn hu => ?_) (Path.due hpath hhead hdue)
    refine hkeep (n+1) inp' u hn ?_
    rw [List.take_succ_cons,run,hstep]
    exact hu

/-- Once the time has come, a due interrupt is sent. -/
lemma Due.sentBy (hw : TableInv w₁.dev ∧ TxIdle none w₁.dev) (hdue : Due v deadline w w₁) :
    SentBy net v deadline w w₁ := by
  intro inputs w₂ hrun hkeep hnow
  obtain ⟨-,hsent | ⟨t,ht,hle⟩⟩ := run_due hw hrun hkeep hdue
  · exact .inl hsent
  · refine .inr ⟨enaIrqFire w₂ v,?_,rfl⟩
    have hexpired : timerDue (w₂.dev.irq v).moderTimer w₂.clockUs = true := by
      rw [ht]
      exact decide_eq_true (hle.trans hnow)
    rw [step,if_pos hexpired]
    rfl

/-- In a state with well-formed tables a recorded interrupt is delivered. -/
lemma delivered (hw : TableInv w.dev ∧ TxIdle none w.dev) (v : Vec) (isTx : Bool) :
    Delivered net w v isTx where
  unmask := by
    rintro hp inp val w₁ ⟨c,hinp,hu,hvec⟩ hval hstep
    refine Due.sentBy (step_tables hw hstep) ?_
    obtain rfl := Except.ok.inj ((step_unmask hinp).symm.trans hstep)
    rw [enaCqUnmaskWrite_unmask hu hvec hval]
    have hirq : (w.setDev (w.dev.setIrq v ((w.dev.irq v).unmaskWrite val))).dev.irq v =
        (w.dev.irq v).unmaskWrite val := Function.update_self _ _ _
    refine Due.resume_self isTx ⟨[],(List.append_nil _).symm⟩ ?_ ?_
    · rw [hirq,unmaskWrite_pending]
      exact hp
    · rw [hirq]
      exact le_rfl
  timer := fun t ht => Due.sentBy hw ⟨⟨[],(List.append_nil _).symm⟩,.inr ⟨t,ht,le_rfl⟩⟩

/-- Along a run, every owed interrupt stays recorded and is delivered, by the write that unmasks the
vector or by its timer, exactly as long as no write of an unmask register masks a vector that owes
an interrupt its pending flag does not show. -/
theorem noLostInterrupt_iff (net : Net) (w₀ : World) (inputs : List Input) :
    (∀ n w, run net (enaDevReset w₀) (inputs.take n) = .ok w → NoLostInterrupt w ∧
      DeliversOwed net w) ↔
      ∀ n inp w, inputs[n]? = some inp → run net (enaDevReset w₀) (inputs.take n) = .ok w →
        ¬ MaskLoses w inp := by
  constructor
  · intro hall n inp w hn hrun hlose
    obtain ⟨w',hstep,hlost⟩ := step_lost net hlose
    apply hlost
    refine (hall (n+1) w' ?_).1
    rw [take_concat hn,run_concat,hrun]
    exact hstep
  · intro hkeep n w hrun
    exact ⟨run_noLost hkeep n w hrun,
      fun v _ isTx _ => delivered (Reachable.tables ⟨w₀,_,hrun⟩) v isTx⟩

/-- One posted RX buffer of 2 KiB. -/
def rxDescBytes : Bytes := [0,8,0,0x1c,0,0,0,0,0,0x50,0,0,0,0,0,0]

/-- The driver creates a CQ on vector 1 with an RX queue, posts a buffer, unmasks the vector with a
moderation delay of 10 us, receives a frame and masks the vector before the delay is over. -/
def maskedBeforeExpiry : List Input :=
  driverSetup [createCqCmd,createSqCmd sqIdentityRx] [(0x4000,rxDescBytes)] ++
    [.regWrite regSqDbBase 1,.regWrite regCqUnmaskBase 0x4000000a,
      .receive (List.replicate 14 0xff),.regWrite regCqUnmaskBase 0x80000000]

/-- The interrupt for the received frame is owed and recorded nowhere. -/
theorem maskedBeforeExpiry_lost :
    ∃ w, run Net.nonIp (enaDevReset (World.powerOn (fun _ => 2) false)) maskedBeforeExpiry = .ok w ∧
      Owed 1 false w.trace ∧ ¬ Recorded w.dev 1 false ∧ ¬ NoLostInterrupt w := by
  obtain ⟨w,hrun,hw⟩ := exists_of_okAnd
    (p := fun w : World => owed 1 false w.trace && !(w.dev.irq 1).rxPending &&
      (w.dev.irq 1).moderTimer.isNone)
    (x := run Net.nonIp (enaDevReset (World.powerOn (fun _ => 2) false)) maskedBeforeExpiry)
    (by decide +kernel)
  simp only [Bool.and_eq_true, Bool.not_eq_true', Option.isNone_iff_eq_none] at hw
  obtain ⟨⟨howed,hpending⟩,htimer⟩ := hw
  have howed := (owed_iff 1 false w.trace).mp howed
  have hnot : ¬ Recorded w.dev 1 false := by
    rintro (hp | ht)
    · rw [EnaIrq.pending,if_neg (by decide),hpending] at hp
      cases hp
    · exact ht htimer
  exact ⟨w,hrun,howed,hnot,fun hsafe => hnot (hsafe 1 (by decide) false howed)⟩

end
end EnaDevice
