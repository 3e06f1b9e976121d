import EnaDevice.Invariant.Tables

/-! Admin commands and AENQ events as sequences of elementary effects, and the part of the state
that the admin queue itself works with, which no command touches. -/
namespace EnaDevice
open Bytes Result Relation

/-- The indices of the admin queue and every register except `AENQ_TAIL` are the same. -/
structure SameAdmin (s s' : EnaState) : Prop where
  aqHead : s'.aqHead = s.aqHead
  acqTail : s'.acqTail = s.acqTail
  acqPhase : s'.acqPhase = s.acqPhase
  reg : ∀ k, k ≠ Fin.ofNat 28 (regAenqTail/4) → s'.reg k = s.reg k

namespace SameAdmin
variable {s s' s'' : EnaState}

lemma refl (s : EnaState) : SameAdmin s s := ⟨rfl,rfl,rfl,fun _ _ => rfl⟩

lemma trans (h : SameAdmin s s') (h' : SameAdmin s' s'') : SameAdmin s s'' :=
  ⟨h'.aqHead.trans h.aqHead,h'.acqTail.trans h.acqTail,h'.acqPhase.trans h.acqPhase,
    fun k hk => (h'.reg k hk).trans (h.reg k hk)⟩

lemma adminRings (h : SameAdmin s s') : s'.adminRings = s.adminRings := by
  have hget : ∀ off ∈ [regAqBaseLo,regAqBaseHi,regAcqBaseLo,regAcqBaseHi,regAqCaps,regAcqCaps],
      s'.getReg off = s.getReg off := by
    intro off hoff
    apply h.reg
    revert hoff
    revert off
    decide
  simp only [List.mem_cons, forall_eq_or_imp, List.not_mem_nil, false_implies, implies_true,
    and_true] at hget
  obtain ⟨h0,h1,h2,h3,h4,h5⟩ := hget
  simp only [EnaState.adminRings, EnaState.aqBase, EnaState.acqBase, EnaState.regPair,
    EnaState.capsDepth, h0, h1, h2, h3, h4, h5]

lemma aenqAdvance (s : EnaState) : SameAdmin s s.aenqAdvance :=
  ⟨rfl,rfl,rfl,fun _ hk => Function.update_of_ne hk _ _⟩

end SameAdmin

lemma AenqPosted.sameAdmin {w w' : World} (h : AenqPosted w w') : SameAdmin w.dev w'.dev := by
  cases h with
  | skipped => exact .refl _
  | posted =>
    rw [dev_adminIntr]
    exact .aenqAdvance _

lemma AenqConfigured.sameAdmin {w w' : World} {groups : UInt32} (h : AenqConfigured w groups w') :
    SameAdmin w.dev w'.dev := by
  obtain ⟨w₁,timer,hpost,rfl⟩ := h
  have hgroups : SameAdmin w.dev (w.setDev { w.dev with aenqGroups := groups }).dev :=
    ⟨rfl,rfl,rfl,fun _ _ => rfl⟩
  exact (hgroups.trans hpost.sameAdmin).trans ⟨rfl,rfl,rfl,fun _ _ => rfl⟩

lemma QueueCmd.sameAdmin {s : EnaState} {r : AdminStatus × Bytes × EnaState} (h : QueueCmd s r) :
    SameAdmin s r.2.2 := by
  cases h <;> exact ⟨rfl,rfl,rfl,fun _ _ => rfl⟩

/-- No command moves the admin queue or reprograms its rings. -/
theorem Executed.sameAdmin {w : World} {cmd : Bytes} {r : AdminStatus × Bytes × World}
    (h : Executed w cmd r) : SameAdmin w.dev r.2.2.dev := by
  cases h with
  | queues hq => exact hq.sameAdmin
  | aenqConfig groups hc => exact hc.sameAdmin
  | refused => exact .refl _
  | reported => exact .refl _
  | ctrlReported => exact .refl _
  | hostAttrRefused => exact ⟨rfl,rfl,rfl,fun _ _ => rfl⟩
  | hostAttr => exact ⟨rfl,rfl,rfl,fun _ _ => rfl⟩
  | mtu => exact ⟨rfl,rfl,rfl,fun _ _ => rfl⟩
  | llq => exact ⟨rfl,rfl,rfl,fun _ _ => rfl⟩
  | rss => exact ⟨rfl,rfl,rfl,fun _ _ => rfl⟩

/-- Responses fit in an entry. -/
lemma Executed.resp_length {w : World} {cmd : Bytes} {r : AdminStatus × Bytes × World}
    (h : Executed w cmd r) : r.2.1.length ≤ 56 := by
  cases h with
  | queues hq =>
    cases hq with
    | createCq i q _ _ hresp =>
      rw [hresp]
      simp [createCqResp]
    | createSq i q _ _ hresp =>
      rw [hresp]
      simp [createSqResp]
    | refused => exact Nat.zero_le _
    | destroyCq => exact Nat.zero_le _
    | destroySq => exact Nat.zero_le _
  | reported resp hresp => exact hresp
  | ctrlReported resp data hresp => exact hresp
  | refused => exact Nat.zero_le _
  | hostAttrRefused => exact Nat.zero_le _
  | hostAttr => exact Nat.zero_le _
  | aenqConfig => exact Nat.zero_le _
  | mtu => exact Nat.zero_le _
  | llq => exact Nat.zero_le _
  | rss => exact Nat.zero_le _

section
variable {w₀ w w' : World} {inp : Input}

lemma AenqPosted.path (h : AenqPosted w w') (hinp : inp.Control) : Path w₀ inp w w' := by
  cases h with
  | skipped => exact .refl
  | posted entry hlen hbase hdepth =>
    have hdma : Path w₀ inp w (enaDmaWrite w .aenq w.dev.aenqSlot entry) :=
      .single (.dma .aenq _ _ hinp ⟨hbase,within_of_le _ hlen.le⟩)
    have hadv : Path w₀ inp w
        ((enaDmaWrite w .aenq w.dev.aenqSlot entry).setDev w.dev.aenqAdvance) :=
      hdma.tail (.quiet (.setDev ⟨rfl,rfl,rfl,rfl,rfl,rfl⟩ rfl))
    exact hadv.tail (.adminIntr hinp)

lemma AenqConfigured.path {groups : UInt32} (h : AenqConfigured w groups w') (hinp : inp.Control) :
    Path w₀ inp w w' := by
  obtain ⟨w₁,timer,hpost,rfl⟩ := h
  have hgroups : Path w₀ inp w (w.setDev { w.dev with aenqGroups := groups }) :=
    .single (.quiet (.setDev ⟨rfl,rfl,rfl,rfl,rfl,rfl⟩ rfl))
  exact (hgroups.trans (hpost.path hinp)).tail (.quiet (.setDev ⟨rfl,rfl,rfl,rfl,rfl,rfl⟩ rfl))

theorem Executed.path {cmd : Bytes} {r : AdminStatus × Bytes × World} (h : Executed w cmd r)
    (hinp : inp.Configures) : Path w₀ inp w r.2.2 := by
  cases h with
  | refused => exact .refl
  | queues hq => exact .single (.queues hinp hq)
  | reported => exact .refl
  | ctrlReported resp data _ hop haddr hlen =>
    exact .single (.dma _ _ _ hinp.control ⟨hop,within_of_le _ hlen⟩)
  | hostAttrRefused => exact .single (.quiet (.setDev ⟨rfl,rfl,rfl,rfl,rfl,rfl⟩ rfl))
  | hostAttr => exact .single (.quiet (.setDev ⟨rfl,rfl,rfl,rfl,rfl,rfl⟩ rfl))
  | aenqConfig groups hc => exact hc.path hinp.control
  | mtu mtu hmin hmax => exact .single (.mtu mtu hmin hmax)
  | llq entry => exact .single (.llq entry)
  | rss r hf hi => exact .single (.rss r hf hi)

/-- The world after the completion of a command was written. -/
def World.acqPushed (w : World) (r : AdminRings) (cmd : Bytes) (status : AdminStatus)
    (resp : Bytes) : World :=
  let s := w.dev
  (enaDmaWrite w .acq (r.acqBase + (s.acqTail % r.acqDepth).toUInt64*64)
    (acqEntry (le16At cmd 0) status s.acqPhase s.aqHead resp)).setDev
    { s with
      acqTail := s.acqTail + 1
      acqPhase := if (s.acqTail + 1) % r.acqDepth = 0 then !s.acqPhase else s.acqPhase }

lemma enaAcqPush_eq {r : AdminRings} (w : World) (cmd : Bytes) (status : AdminStatus) (resp : Bytes)
    (h : r.acqDepth ≠ 0) : enaAcqPush r w cmd status resp =
      .ok (w.acqPushed r cmd status resp) := by
  unfold enaAcqPush
  simp only [modDepth_of_ne_zero h, ok_bind]
  rfl

lemma acqEntry_length (cmdId : UInt16) (status : AdminStatus) (phase : Bool) (sqHead : UInt16)
    {resp : Bytes} (h : resp.length ≤ 56) :
    (acqEntry cmdId status phase sqHead resp).length = 64 := by
  simp [acqEntry, pad_length 56 resp h]

/-- The rings that admin processing goes on with are the programmed ones. -/
structure RingsOk (r : AdminRings) (s : EnaState) : Prop where
  eq : s.adminRings = r
  acqBase : r.acqBase ≠ 0
  aqDepth : r.aqDepth ≠ 0
  acqDepth : r.acqDepth ≠ 0

lemma acqPushed_path {r : AdminRings} {cmd resp : Bytes} {status : AdminStatus}
    (hinp : inp.Control) (hr : RingsOk r w.dev) (hresp : resp.length ≤ 56) :
    Path w₀ inp w (w.acqPushed r cmd status resp) := by
  have hlen := acqEntry_length (le16At cmd 0) status w.dev.acqPhase w.dev.aqHead hresp
  have hgrant : Granted w₀ w.dev (r.acqBase + (w.dev.acqTail % r.acqDepth).toUInt64*64)
      (acqEntry (le16At cmd 0) status w.dev.acqPhase w.dev.aqHead resp).length .acq := by
    rw [hlen]
    obtain rfl := hr.eq
    exact ⟨hr.acqBase,within_of_le _ le_rfl⟩
  exact .tail (.single (.dma .acq _ _ hinp hgrant))
    (.quiet (.setDev ⟨rfl,rfl,rfl,rfl,rfl,rfl⟩ rfl))

/-- The command at the head of the admin queue, and the state in which it executes. -/
def World.aqCmd (w : World) (r : AdminRings) : Bytes :=
  (enaDmaRead w (r.aqBase + (w.dev.aqHead % r.aqDepth).toUInt64*64) 64).2

def World.aqTaken (w : World) : World := w.setDev { w.dev with aqHead := w.dev.aqHead + 1 }

/-- One iteration of `ena_admin_process`: the command at the head is executed and completed. -/
inductive AdminStepped (r : AdminRings) (w : World) : World → Prop
  | mk {status : AdminStatus} {resp : Bytes} {w₁ : World}
    (h : Executed w.aqTaken (w.aqCmd r) (status,resp,w₁)) :
    AdminStepped r w
      ((w₁.emit (.adminExec (w.aqCmd r) status.code)).acqPushed r (w.aqCmd r) status resp)

theorem enaAdminStep_spec {r : AdminRings} (hr : RingsOk r w.dev) :
    Holds Fault.Deliberate (AdminStepped r w) (enaAdminStep r w) := by
  unfold enaAdminStep
  rw [modDepth_of_ne_zero hr.aqDepth,ok_bind]
  refine holds_bind (enaAdminExec_spec w.aqTaken (w.aqCmd r)) ?_
  rintro ⟨status,resp,w₁⟩ - hex
  dsimp only
  rw [enaAcqPush_eq _ _ _ _ hr.acqDepth]
  exact holds_pure (.mk hex)

namespace AdminStepped
variable {r : AdminRings}

lemma path (h : AdminStepped r w w') (hinp : inp.Configures) (hr : RingsOk r w.dev) :
    Path w₀ inp w w' := by
  obtain @⟨status,resp,w₁,hex⟩ := h
  have htake : Path w₀ inp w w.aqTaken := .single (.quiet (.setDev ⟨rfl,rfl,rfl,rfl,rfl,rfl⟩ rfl))
  have hmark : Path w₀ inp w (w₁.emit (.adminExec (w.aqCmd r) status.code)) :=
    (htake.trans (hex.path hinp)).tail (.quiet (.emit trivial))
  have hr₁ : RingsOk r w₁.dev :=
    ⟨hex.sameAdmin.adminRings.trans hr.eq,hr.acqBase,hr.aqDepth,hr.acqDepth⟩
  exact hmark.trans (acqPushed_path hinp.control hr₁ hex.resp_length)

/-- The head moves by one. -/
lemma aqHead (h : AdminStepped r w w') : w'.dev.aqHead = w.dev.aqHead + 1 := by
  obtain ⟨hex⟩ := h
  exact hex.sameAdmin.aqHead

lemma ringsOk (h : AdminStepped r w w') (hr : RingsOk r w.dev) : RingsOk r w'.dev := by
  obtain @⟨status,resp,w₁,hex⟩ := h
  exact ⟨hex.sameAdmin.adminRings.trans hr.eq,hr.acqBase,hr.aqDepth,hr.acqDepth⟩

end AdminStepped

variable (w₀)

theorem enaAdminLoop_spec {r : AdminRings} {tail : UInt16} (n : ℕ) (hinp : inp.Configures)
    (hr : RingsOk r w.dev) (hn : (tail - w.dev.aqHead).toNat = n) :
    Holds Fault.Deliberate (Path w₀ inp w) (enaAdminLoop r tail n w) := by
  induction n generalizing w with
  | zero =>
    unfold enaAdminLoop
    rw [if_pos ((Counter.sub_toNat_eq_zero_iff _ _).mp hn)]
    exact holds_pure .refl
  | succ n ih =>
    unfold enaAdminLoop
    refine holds_ite (fun _ => holds_pure .refl) fun _ => ?_
    refine holds_bind (enaAdminStep_spec hr) fun w₁ _ h₁ => ?_
    have hdist : (tail - w₁.dev.aqHead).toNat = n := by
      have hsub := Counter.sub_add_toNat tail w.dev.aqHead 1 (by omega)
      rw [h₁.aqHead]
      exact hsub.trans (by omega)
    exact holds_mono (ih (h₁.ringsOk hr) hdist) fun _ hrest => (h₁.path hinp hr).trans hrest

theorem enaAdminProcess_spec (hinp : inp.Configures) :
    Holds Fault.Deliberate (Path w₀ inp w) (enaAdminProcess w) := by
  unfold enaAdminProcess
  refine holds_ite (fun _ => holds_pure .refl) fun hr => ?_
  refine holds_ite (fun _ => holds_pure .refl) fun _ => ?_
  simp only [not_or] at hr
  refine holds_bind (enaAdminLoop_spec w₀ _ hinp ⟨rfl,hr.2.1,hr.2.2.1,hr.2.2.2⟩ rfl) ?_
  intro w₁ _ h₁
  have htail : Path w₀ inp w (w₁.setDev (w₁.dev.setReg regAcqTail w₁.dev.acqTail.toUInt32)) :=
    h₁.tail (.quiet (.setDev ⟨rfl,rfl,rfl,rfl,rfl,rfl⟩ rfl))
  exact holds_ite (fun _ => holds_pure (htail.tail (.adminIntr hinp.control))) fun _ =>
    holds_pure htail

end
end EnaDevice
