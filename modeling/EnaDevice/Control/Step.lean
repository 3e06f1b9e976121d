import EnaDevice.Tx.Frame
import EnaDevice.Invariant.Safety

/-! The control side of a step: what it can do to registers, admin and event queues, features and
RSS settings. Doorbells, frames and interrupts do nothing to them. -/
namespace EnaDevice
open Bytes Result Relation

/-- The two states differ in IO queues, interrupt state and counters at most. -/
def SameControl (s s' : EnaState) : Prop :=
  s' = { s with
    sq := s'.sq, cq := s'.cq, irq := s'.irq,
    txPkts := s'.txPkts, txBytes := s'.txBytes, txDrops := s'.txDrops,
    rxPkts := s'.rxPkts, rxBytes := s'.rxBytes, rxDrops := s'.rxDrops }

section
variable {w w' : World} {i : SqIdx} {c : CqIdx}

lemma SameControl.refl (s : EnaState) : SameControl s s := rfl

lemma SameControl.trans {s s' s'' : EnaState} (h : SameControl s s') (h' : SameControl s' s'') :
    SameControl s s'' := by
  unfold SameControl at *
  rw [h',h]

lemma IrqOnly.sameControl {vs : Vec → Prop} (h : IrqOnly vs w w') : SameControl w.dev w'.dev := by
  unfold SameControl
  rw [h.dev]

lemma TxFrame.sameControl (h : TxFrame i c w w') : SameControl w.dev w'.dev := by
  unfold SameControl
  rw [h.rest]

lemma rxScattered_sameControl (i : SqIdx) (c : CqIdx) (frame : Bytes) (status hash : UInt32)
    (ds : List EnaRxDesc) (first : Bool) (off : ℕ) (w : World) :
    SameControl w.dev (rxScattered i c frame status hash ds first off w).dev := by
  induction ds generalizing first off w with
  | nil => exact .refl _
  | cons d ds ih =>
    have hpush : ∀ cdesc chunk, SameControl w.dev
        ((enaDmaWrite w (.rxBuf i) d.addr chunk).cqPushed c cdesc).dev :=
      fun _ _ => rfl
    exact (hpush _ _).trans (ih _ _ _)

lemma RxOutcome.sameControl {net : Net} {frame : Bytes} (h : RxOutcome net w frame w') :
    SameControl w.dev w'.dev := by
  cases h with
  | ignored => exact .refl _
  | dropped => rfl
  | short => rfl
  | bad => rfl
  | @delivered i c ds hs hp hcap =>
    have hscatter := rxScattered_sameControl i c frame (enaRxStatus net frame)
      (enaRssHash net w.dev frame) ds
      true 0 w
    have htook : SameControl w.dev ((rxScattered i c frame (enaRxStatus net frame)
        (enaRssHash net w.dev frame) ds true 0 w).rxTook i ds.length frame.length).dev :=
          hscatter.trans rfl
    exact htook.trans (irqOnly_cqIntr _ c false).sameControl

lemma enaSqDoorbell_sameControl {net : Net} {val : UInt32} (hw : TableInv w.dev)
    (h : enaSqDoorbell net w i val = .ok w') : SameControl w.dev w'.dev := by
  rcases enaSqDoorbell_cases h with rfl | ⟨hu,-,htx | ⟨-,rfl⟩⟩
  · exact .refl _
  · obtain ⟨c,hc,-⟩ := (hw.sq i hu).cq
    exact ((enaSqDoorbell_frame net val hw hu htx hc).of_ok h).sameControl
  · rfl

end

/-- One iteration of `ena_admin_process` over the rings that it read from the registers. -/
def AdminIter (r : AdminRings) (w w' : World) : Prop := RingsOk r w.dev ∧ enaAdminStep r w = .ok w'

/-- The command that an iteration executes, with the equation of its execution. -/
lemma AdminIter.exec {r : AdminRings} {w w' : World} (h : AdminIter r w w') :
    ∃ status resp w₁, enaAdminExec w.aqTaken (w.aqCmd r) = .ok (status,resp,w₁) ∧
      w' = (w₁.emit (.adminExec (w.aqCmd r) status.code)).acqPushed r (w.aqCmd r) status resp := by
  obtain ⟨hr,hstep⟩ := h
  unfold enaAdminStep at hstep
  rw [modDepth_of_ne_zero hr.aqDepth,ok_bind] at hstep
  obtain ⟨⟨status,resp,w₁⟩,hex,hpush⟩ := bind_eq_ok.mp hstep
  dsimp only at hpush
  rw [enaAcqPush_eq _ _ _ _ hr.acqDepth] at hpush
  exact ⟨status,resp,w₁,hex,(Except.ok.inj hpush).symm⟩

/-- The doorbell of the admin queue, after its register was written. -/
inductive AdminRan (w : World) : World → Prop
  | ignored : AdminRan w w
  | ran {r : AdminRings} {w₁ w₂ w' : World} (h : ReflTransGen (AdminIter r) w w₁)
    (htail : w₂ = w₁.setDev (w₁.dev.setReg regAcqTail w₁.dev.acqTail.toUInt32))
    (hintr : w' = w₂ ∨ w' = enaAdminIntr w₂) : AdminRan w w'

/-- What holds before the doorbell and survives every command with its completion, the update of the
tail register and the interrupt, holds after it. -/
theorem AdminRan.preserves {w w' : World} {M : World → Prop} (h : AdminRan w w') (hstart : M w)
    (hexec : ∀ r u status resp u₁, M u → enaAdminExec u.aqTaken (u.aqCmd r) = .ok (status,resp,u₁) →
      M ((u₁.emit (.adminExec (u.aqCmd r) status.code)).acqPushed r (u.aqCmd r) status resp))
    (htail : ∀ u, M u → M (u.setDev (u.dev.setReg regAcqTail u.dev.acqTail.toUInt32)))
    (hintr : ∀ u, M u → M (enaAdminIntr u)) : M w' := by
  cases h with
  | ignored => exact hstart
  | @ran r w₁ w₂ _ hiters hreg hlast =>
    have hran : M w₁ := by
      clear hreg
      induction hiters with
      | refl => exact hstart
      | tail _ hiter ih =>
        obtain ⟨status,resp,u₁,hex,rfl⟩ := hiter.exec
        exact hexec r _ status resp u₁ ih hex
    subst hreg
    rcases hlast with rfl | rfl
    · exact htail w₁ hran
    · exact hintr _ (htail w₁ hran)

lemma enaAdminLoop_ran {w w' : World} {r : AdminRings} {tail : UInt16} {n : ℕ}
    (hr : RingsOk r w.dev) (h : enaAdminLoop r tail n w = .ok w') :
    ReflTransGen (AdminIter r) w w' := by
  induction n generalizing w with
  | zero =>
    unfold enaAdminLoop at h
    split_ifs at h
    cases h
    exact .refl
  | succ n ih =>
    unfold enaAdminLoop at h
    split_ifs at h
    · cases h
      exact .refl
    · obtain ⟨w₁,h₁,hrest⟩ := bind_eq_ok.mp h
      have hstepped := (enaAdminStep_spec hr).of_ok h₁
      exact .head ⟨hr,h₁⟩ (ih (hstepped.ringsOk hr) hrest)

lemma enaAdminProcess_ran {w w' : World} (h : enaAdminProcess w = .ok w') : AdminRan w w' := by
  unfold enaAdminProcess at h
  dsimp only at h
  split_ifs at h with hr hcount hnew
  · cases h
    exact .ignored
  · cases h
    exact .ignored
  all_goals
    obtain ⟨w₁,h₁,hrest⟩ := bind_eq_ok.mp h
    simp only [not_or] at hr
    cases hrest
  · exact .ran (enaAdminLoop_ran ⟨rfl,hr.2.1,hr.2.2.1,hr.2.2.2⟩ h₁) rfl (.inr rfl)
  · exact .ran (enaAdminLoop_ran ⟨rfl,hr.2.1,hr.2.2.1,hr.2.2.2⟩ h₁) rfl (.inl rfl)

/-- The number of commands that a doorbell executes: those before its tail, and none if it is
refused. -/
def aqBatch (w : World) : ℕ :=
  let r := w.dev.adminRings
  let tail := (w.dev.getReg regAqDb).toUInt16
  if r.aqBase = 0 ∨ r.acqBase = 0 ∨ r.aqDepth = 0 ∨ r.acqDepth = 0 then 0
  else if tail - w.dev.aqHead > r.aqDepth then 0
  else (tail - w.dev.aqHead).toNat

section Batch
variable {w w' : World} {r : AdminRings}

lemma enaAdminSteps_concat (r : AdminRings) (n : ℕ) (w : World) :
    enaAdminSteps r (n+1) w = enaAdminSteps r n w >>= enaAdminStep r := by
  induction n generalizing w with
  | zero =>
    change enaAdminStep r w >>= pure = _
    rw [bind_pure]
    rfl
  | succ n ih =>
    change (enaAdminStep r w >>= enaAdminSteps r (n+1)) =
      (enaAdminStep r w >>= enaAdminSteps r n) >>= _
    rw [bind_assoc]
    exact congrArg _ (funext ih)

lemma enaAdminSteps_ringsOk {n : ℕ} (hr : RingsOk r w.dev) (h : enaAdminSteps r n w = .ok w') :
    RingsOk r w'.dev := by
  induction n generalizing w with
  | zero =>
    cases h
    exact hr
  | succ n ih =>
    obtain ⟨w₁,h₁,hrest⟩ := bind_eq_ok.mp h
    exact ih (((enaAdminStep_spec hr).of_ok h₁).ringsOk hr) hrest

/-- The loop runs until the head is at the tail. -/
lemma enaAdminLoop_steps {tail : UInt16} {n : ℕ} (hr : RingsOk r w.dev)
    (hn : (tail - w.dev.aqHead).toNat = n) (h : enaAdminLoop r tail n w = .ok w') :
    enaAdminSteps r n w = .ok w' := by
  induction n generalizing w with
  | zero =>
    rw [enaAdminLoop,if_pos ((Counter.sub_toNat_eq_zero_iff _ _).mp hn)] at h
    exact h
  | succ n ih =>
    have hne : w.dev.aqHead ≠ tail := fun he => by
      rw [← Counter.sub_toNat_eq_zero_iff] at he
      omega
    rw [enaAdminLoop,if_neg hne] at h
    obtain ⟨w₁,h₁,hrest⟩ := bind_eq_ok.mp h
    have hstep := (enaAdminStep_spec hr).of_ok h₁
    have hdist : (tail - w₁.dev.aqHead).toNat = n := by
      have hsub := Counter.sub_add_toNat tail w.dev.aqHead 1 (by omega)
      rw [hstep.aqHead]
      exact hsub.trans (by omega)
    exact bind_eq_ok.mpr ⟨w₁,h₁,ih (hstep.ringsOk hr) hdist hrest⟩

/-- A doorbell executes its batch; after that it leaves the queues alone. -/
lemma enaAdminProcess_steps (h : enaAdminProcess w = .ok w') :
    (0 < aqBatch w → RingsOk w.dev.adminRings w.dev) ∧
      ∃ w₁, enaAdminSteps w.dev.adminRings (aqBatch w) w = .ok w₁ ∧ w'.dev.sq = w₁.dev.sq := by
  unfold enaAdminProcess at h
  unfold aqBatch
  dsimp only at h ⊢
  by_cases hr : w.dev.adminRings.aqBase = 0 ∨ w.dev.adminRings.acqBase = 0 ∨
      w.dev.adminRings.aqDepth = 0 ∨ w.dev.adminRings.acqDepth = 0
  · rw [if_pos hr] at h ⊢
    cases h
    exact ⟨fun hlt => absurd hlt (Nat.lt_irrefl 0),w,rfl,rfl⟩
  rw [if_neg hr] at h ⊢
  by_cases hfar : (w.dev.getReg regAqDb).toUInt16 - w.dev.aqHead > w.dev.adminRings.aqDepth
  · rw [if_pos hfar] at h ⊢
    cases h
    exact ⟨fun hlt => absurd hlt (Nat.lt_irrefl 0),w,rfl,rfl⟩
  rw [if_neg hfar] at h ⊢
  simp only [not_or] at hr
  have hok : RingsOk w.dev.adminRings w.dev := ⟨rfl,hr.2.1,hr.2.2.1,hr.2.2.2⟩
  obtain ⟨w₁,h₁,hrest⟩ := bind_eq_ok.mp h
  refine ⟨fun _ => hok,w₁,enaAdminLoop_steps hok rfl h₁,?_⟩
  split_ifs at hrest <;> cases hrest
  · rw [dev_adminIntr]
    rfl
  · rfl

end Batch

/-- Entry size 64 and a depth that is a power of two, as `ena_check_queue_caps` wants them. -/
def CapsOk (val : UInt32) : Prop :=
  (val &&& 0xffff0000) >>> 16 = 64 ∧ (val &&& 0xffff).toNat.isPowerOfTwo

lemma capsOk_of_check {val : UInt32} (h : enaCheckQueueCaps val = .ok ()) : CapsOk val := by
  unfold enaCheckQueueCaps check at h
  split_ifs at h with hok
  rw [Bool.and_eq_true,decide_eq_true_iff] at hok
  exact ⟨hok.1,isPowerOfTwo_of_isPowerOf2 hok.2⟩

/-- What a step does on the control side, by cases. -/
inductive Stepped (w : World) : Input → World → Prop
  | io {inp : Input} {w' : World} (h : SameControl w.dev w'.dev) : Stepped w inp w'
  | reset : Stepped w .qdevReset (enaDevReset w)
  | devCtlReset {val : UInt64} (hval : val.toUInt32 &&& 1 ≠ 0) : Stepped w (.regWrite regDevCtl val)
    ((enaDevReset w).setDev
      (((enaDevReset w).dev.setReg regDevCtl val.toUInt32).setReg regDevSts devStsResetInProgress))
  | devCtlDone {val : UInt64} (hval : val.toUInt32 = 0) : Stepped w (.regWrite regDevCtl val)
    (w.setDev (if (w.dev.setReg regDevCtl 0).getReg regDevSts &&& devStsResetInProgress ≠ 0
      then (w.dev.setReg regDevCtl 0).setReg regDevSts devStsReady else w.dev.setReg regDevCtl 0))
  | stored {addr : ℕ} {val : UInt64} {w' : World} (haddr : storesValue addr ∨ addr = regMmioRegRead)
    (hdev : w'.dev = w.dev.setReg addr val.toUInt32) : Stepped w (.regWrite addr val) w'
  | intrMask {val : UInt64} (hval : val.toUInt32 &&& ~~~1 = 0) :
    Stepped w (.regWrite regIntrMask val)
    (w.setDev (w.dev.setReg regIntrMask val.toUInt32))
  | aqCaps {val : UInt64} (hval : CapsOk val.toUInt32) : Stepped w (.regWrite regAqCaps val)
    (w.setDev { w.dev.setReg regAqCaps val.toUInt32 with aqHead := 0 })
  | acqCaps {val : UInt64} (hval : CapsOk val.toUInt32) : Stepped w (.regWrite regAcqCaps val)
    (w.setDev ({ w.dev.setReg regAcqCaps val.toUInt32 with acqTail := 0, acqPhase := true }.setReg
      regAcqTail 0))
  | aenqCaps {val : UInt64} (hval : CapsOk val.toUInt32) : Stepped w (.regWrite regAenqCaps val)
    (w.setDev ({ w.dev.setReg regAenqCaps val.toUInt32 with
      aenqTail := 0, aenqPhase := true }.setReg regAenqTail 0))
  | admin {val : UInt64} {w' : World}
    (h : AdminRan (w.setDev (w.dev.setReg regAqDb val.toUInt32)) w') :
    Stepped w (.regWrite regAqDb val) w'
  | keepAlive {w₁ : World} {t : ℕ} (harmed : w.dev.keepAliveTimer ≠ none)
    (h : AenqPosted (w.setDev { w.dev with keepAliveTimer := none }) w₁) :
    Stepped w .keepAliveTimer (w₁.setDev { w₁.dev with keepAliveTimer := some t })
  | link {up : Bool} {w' : World} (h : AenqPosted { w with linkUp := up } w') :
    Stepped w (.linkChange up) w'

section
variable {net : Net} {w w' : World} {inp : Input}

lemma caps_stepped {val : UInt32} (h : CapsOk val → Stepped w inp w') :
    Holds (fun _ => True) (Stepped w inp) (do
      enaCheckQueueCaps val
      return w') :=
  holds_bind (holds_of_ok fun _ hc => capsOk_of_check hc) fun _ _ hc => holds_pure (h hc)

lemma enaDevCtlWrite_stepped (val : UInt64) :
    Holds (fun _ => True) (Stepped w (.regWrite regDevCtl val))
      (enaDevCtlWrite w val.toUInt32) := by
  unfold enaDevCtlWrite
  refine holds_ite (fun _ => holds_throw trivial) fun _ => ?_
  refine holds_ite (fun hreset => holds_pure (.devCtlReset hreset)) fun _ => ?_
  refine holds_ite (fun _ => holds_throw trivial) fun hzero => ?_
  exact holds_pure (.devCtlDone (not_ne_iff.mp hzero))

lemma enaMmioReadless_dev (w : World) (req : UInt32) : (enaMmioReadless w req).dev = w.dev := by
  unfold enaMmioReadless
  dsimp only
  split_ifs <;> rfl

theorem enaRegWrite_stepped (net : Net) (addr : ℕ) (val : UInt64) (hw : TableInv w.dev) :
    Holds (fun _ => True) (Stepped w (.regWrite addr val)) (enaRegWrite net w addr val) := by
  unfold enaRegWrite
  refine holds_dite (fun _ => holds_of_ok fun _ h => .io (enaSqDoorbell_sameControl hw h)) fun _ =>
    ?_
  refine holds_dite (fun _ => holds_pure (.io (irqOnly_unmask w _ _).sameControl)) fun _ => ?_
  refine holds_ite (fun _ => holds_throw trivial) fun _ => ?_
  refine holds_ite (fun _ => holds_pure (.io (.refl _))) fun _ => ?_
  refine holds_ite (fun haddr => ?_) fun _ => ?_
  · subst haddr
    exact enaDevCtlWrite_stepped val
  refine holds_ite (fun haddr => ?_) fun _ => ?_
  · exact holds_pure (.stored (.inr haddr) (enaMmioReadless_dev _ _))
  refine holds_ite (fun haddr => ?_) fun _ => ?_
  · subst haddr
    exact holds_of_ok fun _ h => .admin (enaAdminProcess_ran h)
  refine holds_ite (fun haddr => ?_) fun _ => ?_
  · subst haddr
    exact caps_stepped .aqCaps
  refine holds_ite (fun haddr => ?_) fun _ => ?_
  · subst haddr
    exact caps_stepped .acqCaps
  refine holds_ite (fun haddr => ?_) fun _ => ?_
  · subst haddr
    exact caps_stepped .aenqCaps
  refine holds_ite (fun haddr => holds_pure (.stored (.inl haddr) rfl)) fun _ => ?_
  refine holds_ite (fun haddr => ?_) fun _ => holds_throw trivial
  subst haddr
  exact holds_ite (fun _ => holds_throw trivial) fun hval =>
    holds_pure (.intrMask (not_ne_iff.mp hval))

lemma enaKeepAlive_stepped (harmed : w.dev.keepAliveTimer ≠ none) :
    Holds (fun _ => True) (Stepped w .keepAliveTimer)
      (enaKeepAlive (w.setDev { w.dev with keepAliveTimer := none })) := by
  unfold enaKeepAlive
  refine holds_bind (holds_imp (enaAenqPost_spec _ _ _ (by simp)) (fun _ _ => trivial) fun _ => id)
    ?_
  exact fun w₁ _ h₁ => holds_pure (.keepAlive harmed h₁)

/-- Every step that does not abort is one of the above. -/
theorem step_stepped (hw : TableInv w.dev) (h : step net w inp = .ok w') : Stepped w inp w' := by
  suffices hall : Holds (fun _ => True) (Stepped w inp) (step net w inp) from hall.of_ok h
  cases inp with
  | regWrite addr val => exact enaRegWrite_stepped net addr val hw
  | receive frame =>
    exact holds_imp (enaRxReceiveIov_outcome net frame hw) (fun _ _ => trivial) fun _ ho =>
      .io ho.sameControl
  | moderTimer v =>
    exact holds_ite (fun _ => holds_pure (.io (irqOnly_fire w v).sameControl)) fun _ =>
      holds_pure (.io (.refl _))
  | keepAliveTimer =>
    refine holds_ite (fun hdue => enaKeepAlive_stepped fun hnone => ?_) fun _ =>
      holds_pure (.io (.refl _))
    rw [hnone] at hdue
    cases hdue
  | linkChange up =>
    exact holds_imp (enaPostLinkChange_spec _) (fun _ _ => trivial) fun _ hp => .link hp
  | qdevReset => exact holds_pure .reset
  | guest mem llq => exact holds_pure (.io (.refl _))
  | tick ns => exact holds_pure (.io (.refl _))

end
end EnaDevice
