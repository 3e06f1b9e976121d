import EnaDevice.Control.Acted

/-! What the control side adds to the trace: no completions, executed commands only at the doorbell
of the admin queue, AENQ entries only there and at a timer or link change, and resets only where one
is asked for. -/
namespace EnaDevice
open Bytes Result Relation

/-- An input that may post an AENQ event. -/
def Input.Posts : Input → Prop
  | .regWrite addr _ => addr = regAqDb
  | .keepAliveTimer => True
  | .linkChange _ => True
  | _ => False

/-- A property that the events of a control step have. -/
structure ControlEvents (P : Event → Prop) (inp : Input) : Prop where
  dma : ∀ site s addr data, (∀ c, site ≠ .cq c) → site ≠ .aenq → P (.dmaWrite site s addr data)
  aenq : inp.Posts → ∀ s addr data, P (.dmaWrite .aenq s addr data)
  msix : ∀ v, P (.msixNotify v)
  exec : ∀ val, inp = .regWrite regAqDb val → ∀ cmd status, P (.adminExec cmd status)
  reset : inp.Resets → P .reset

section
variable {P : Event → Prop} {net : Net} {w w' : World} {inp : Input}

lemma ControlEvents.dmaWrite (h : ControlEvents P inp) (w : World) {site : WriteSite}
    (hsite : ∀ c, site ≠ .cq c) (haenq : site ≠ .aenq) (addr : UInt64) (data : Bytes) :
    Adds P w (enaDmaWrite w site addr data) :=
  ⟨[_],rfl,by simpa using h.dma site w.dev addr data hsite haenq⟩

lemma AenqPosted.adds (h : AenqPosted w w') (hp : ControlEvents P inp) (hinp : inp.Posts) :
    Adds P w w' := by
  cases h with
  | skipped => exact .refl w
  | posted entry =>
    have hentry : Adds P w (enaDmaWrite w .aenq w.dev.aenqSlot entry) :=
      ⟨[_],rfl,by simpa using hp.aenq hinp w.dev w.dev.aenqSlot entry⟩
    exact (hentry.trans (.of_eq rfl)).trans (adds_adminIntr _ (hp.msix 0))

lemma Executed.adds {cmd resp : Bytes} {status : AdminStatus} (h : Executed w cmd (status,resp,w'))
    (hp : ControlEvents P inp) (hinp : inp.Posts) : Adds P w w' := by
  cases h with
  | ctrlReported resp data => exact hp.dmaWrite w (fun _ => by simp) (by simp) _ data
  | aenqConfig groups hc =>
    obtain ⟨w₁,timer,hpost,rfl⟩ := hc
    have hposted : Adds P w w₁ := hpost.adds hp hinp
    exact hposted.trans (.of_eq rfl)
  | _ => exact .of_eq rfl

lemma AdminRan.adds (h : AdminRan w w') (hp : ControlEvents P inp) (hinp : inp.Posts)
    (hexec : ∀ cmd status, P (.adminExec cmd status)) : Adds P w w' := by
  refine h.preserves (M := Adds P w) (.refl w) (fun r u status resp u₁ hu hex => ?_)
    (fun _ hu => hu.trans (.of_eq rfl)) fun u hu => hu.trans (adds_adminIntr u (hp.msix 0))
  have htaken : Adds P u u.aqTaken := .of_eq rfl
  have hexecuted := ((enaAdminExec_spec _ _).of_ok hex).adds hp hinp
  have hemit : Adds P u₁ (u₁.emit (.adminExec (u.aqCmd r) status.code)) := .emit (hexec _ _)
  have hanswer : Adds P (u₁.emit (.adminExec (u.aqCmd r) status.code))
      ((u₁.emit (.adminExec (u.aqCmd r) status.code)).acqPushed r (u.aqCmd r) status resp) :=
    (hp.dmaWrite _ (fun _ => by simp) (by simp) _ _).trans (.of_eq rfl)
  exact hu.trans (htaken.trans (hexecuted.trans (hemit.trans hanswer)))

lemma enaMmioReadless_adds (w : World) (req : UInt32) (hp : ControlEvents P inp) :
    Adds P w (enaMmioReadless w req) := by
  unfold enaMmioReadless
  dsimp only
  split_ifs
  · exact .refl w
  · exact hp.dmaWrite w (fun _ => by simp) (by simp) _ _

lemma enaDevCtlWrite_adds (val : UInt64) (hp : ControlEvents P (.regWrite regDevCtl val)) :
    Holds (fun _ => True) (Adds P w) (enaDevCtlWrite w val.toUInt32) := by
  unfold enaDevCtlWrite
  refine holds_ite (fun _ => holds_throw trivial) fun _ => ?_
  refine holds_ite (fun hreset => holds_pure ?_) fun _ => ?_
  · exact Adds.trans (.emit (hp.reset ⟨rfl,hreset⟩)) (.of_eq rfl)
  · exact holds_ite (fun _ => holds_throw trivial) fun _ => holds_pure (.of_eq rfl)

/-- Registers other than doorbells. -/
lemma enaRegWrite_adds {addr : ℕ} {val : UInt64} (hno : (Input.regWrite addr val).doorbell = none)
    (hp : ControlEvents P (.regWrite addr val)) :
    Holds (fun _ => True) (Adds P w) (enaRegWrite net w addr val) := by
  have hset : ∀ s, Adds P w (w.setDev s) := fun _ => .of_eq rfl
  have hcaps : ∀ s, Holds (fun _ => True) (Adds P w) (do
      enaCheckQueueCaps val.toUInt32
      return w.setDev s) :=
    fun s => holds_bind (holds_of_ok fun _ _ => trivial) fun _ _ _ => holds_pure (hset s)
  unfold enaRegWrite
  refine holds_dite (fun hdb => ?_) fun _ => ?_
  · rw [Input.doorbell,dif_pos hdb] at hno
    cases hno
  refine holds_dite (fun _ => holds_pure (adds_unmask w _ _ fun v _ _ => hp.msix v)) fun _ => ?_
  refine holds_ite (fun _ => holds_throw trivial) fun _ => ?_
  refine holds_ite (fun _ => holds_pure (.refl w)) fun _ => ?_
  refine holds_ite (fun haddr => ?_) fun _ => ?_
  · subst haddr
    exact enaDevCtlWrite_adds val hp
  refine holds_ite (fun _ => holds_pure ((hset _).trans (enaMmioReadless_adds _ _ hp))) fun _ => ?_
  refine holds_ite (fun haddr => ?_) fun _ => ?_
  · subst haddr
    exact holds_of_ok fun _ h => (hset _).trans
      ((enaAdminProcess_ran h).adds hp rfl (hp.exec val rfl))
  refine holds_ite (fun _ => hcaps _) fun _ => ?_
  refine holds_ite (fun _ => hcaps _) fun _ => ?_
  refine holds_ite (fun _ => hcaps _) fun _ => ?_
  refine holds_ite (fun _ => holds_pure (hset _)) fun _ => ?_
  refine holds_ite (fun _ => ?_) fun _ => holds_throw trivial
  exact holds_ite (fun _ => holds_throw trivial) fun _ => holds_pure (hset _)

/-- Every step that is neither a doorbell of an IO queue nor a frame. -/
theorem step_control_adds (hctl : inp.Control) (hp : ControlEvents P inp)
    (h : step net w inp = .ok w') :
    Adds P w w' := by
  suffices hall : Holds (fun _ => True) (Adds P w) (step net w inp) from hall.of_ok h
  cases inp with
  | regWrite addr val => exact enaRegWrite_adds hctl.1 hp
  | receive frame => exact absurd rfl (hctl.2 frame)
  | moderTimer v =>
    exact holds_ite (fun _ => holds_pure (adds_fire w (hp.msix v))) fun _ => holds_pure (.refl w)
  | keepAliveTimer =>
    refine holds_ite (fun _ => ?_) fun _ => holds_pure (.refl w)
    refine holds_bind (holds_imp (enaAenqPost_spec _ _ _ (by simp)) (fun _ _ => trivial) fun _ =>
      id) ?_
    intro w₁ _ hpost
    have hposted : Adds P w w₁ := hpost.adds hp trivial
    exact holds_pure (hposted.trans (.of_eq rfl))
  | linkChange up =>
    exact holds_imp (enaPostLinkChange_spec _) (fun _ _ => trivial) fun _ hpost =>
      hpost.adds hp trivial
  | qdevReset => exact holds_pure (Adds.trans (.emit (hp.reset trivial)) (.of_eq rfl))
  | guest mem llq => exact holds_pure (.of_eq rfl)
  | tick ns => exact holds_pure (.of_eq rfl)

end
end EnaDevice
