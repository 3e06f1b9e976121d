import EnaDevice.Model.Irq

/-! What the interrupt functions change: the state of one vector and the trace. -/
namespace EnaDevice

/-- Nothing but the interrupt state of the given vectors changes, and the trace. -/
structure IrqOnly (vs : Vec → Prop) (w w' : World) : Prop where
  dev : w'.dev = { w.dev with irq := w'.dev.irq }
  irq : ∀ v, ¬ vs v → w'.dev.irq v = w.dev.irq v
  mem : w'.mem = w.mem
  llq : w'.llq = w.llq
  clock : w'.clock = w.clock
  linkUp : w'.linkUp = w.linkUp

section
variable {vs : Vec → Prop} {w w' w'' : World}

lemma IrqOnly.refl (w : World) : IrqOnly vs w w := ⟨rfl,fun _ _ => rfl,rfl,rfl,rfl,rfl⟩

lemma IrqOnly.trans (h : IrqOnly vs w w') (h' : IrqOnly vs w' w'') : IrqOnly vs w w'' := by
  refine ⟨?_,fun v hv => (h'.irq v hv).trans (h.irq v hv),h'.mem.trans h.mem,h'.llq.trans h.llq,
    h'.clock.trans h.clock,h'.linkUp.trans h.linkUp⟩
  rw [h'.dev,h.dev]

lemma IrqOnly.mono {us : Vec → Prop} (h : IrqOnly vs w w') (hv : ∀ v, vs v → us v) :
    IrqOnly us w w' :=
  ⟨h.dev,fun v hu => h.irq v fun hvs => hu (hv v hvs),h.mem,h.llq,h.clock,h.linkUp⟩

lemma irqOnly_emit (w : World) (e : Event) : IrqOnly vs w (w.emit e) :=
  ⟨rfl,fun _ _ => rfl,rfl,rfl,rfl,rfl⟩

lemma irqOnly_setIrq (w : World) (v : Vec) (irq : EnaIrq) :
    IrqOnly (· = v) w (w.setDev (w.dev.setIrq v irq)) :=
  ⟨rfl,fun _ hne => Function.update_of_ne hne _ _,rfl,rfl,rfl,rfl⟩

lemma irqOnly_fire (w : World) (v : Vec) : IrqOnly (· = v) w (enaIrqFire w v) :=
  (irqOnly_setIrq w v _).trans (irqOnly_emit _ _)

lemma irqOnly_schedule (w : World) (v : Vec) (delay : UInt32) :
    IrqOnly (· = v) w (enaIrqSchedule w v delay) := by
  unfold enaIrqSchedule
  split_ifs
  · exact irqOnly_fire w v
  · exact irqOnly_setIrq w v _

/-- An interrupt of a CQ concerns the vector that the CQ is bound to. -/
lemma irqOnly_cqIntr (w : World) (c : CqIdx) (isTx : Bool) :
    IrqOnly (fun v => (w.dev.cq c).vec = some v) w (enaCqIntr w c isTx) := by
  unfold enaCqIntr
  dsimp only
  split
  · exact irqOnly_emit _ _
  · rename_i v hv
    have hsub : ∀ u, u = v → (w.dev.cq c).vec = some u := fun u hu => hu ▸ hv
    refine (irqOnly_emit w (.cqIntr (w.dev.cq c) isTx)).trans ?_
    split_ifs
    · exact (irqOnly_schedule (w.emit _) v _).mono hsub
    · exact (irqOnly_setIrq (w.emit _) v _).mono hsub

lemma irqOnly_resume (w : World) (v : Vec) : IrqOnly (· = v) w (enaIrqResume w v) := by
  unfold enaIrqResume
  dsimp only
  split_ifs
  · exact (irqOnly_schedule _ _ _).trans (irqOnly_schedule _ _ _)
  · exact irqOnly_schedule _ _ _
  · exact irqOnly_schedule _ _ _
  · exact .refl _

lemma irqOnly_unmask (w : World) (c : CqIdx) (val : UInt32) :
    IrqOnly (fun v => (w.dev.cq c).used = true ∧ (w.dev.cq c).vec = some v) w
      (enaCqUnmaskWrite w c val) := by
  unfold enaCqUnmaskWrite
  dsimp only
  split_ifs with hused
  swap
  · exact .refl _
  split
  · exact .refl _
  rename_i v hv
  have hsub : ∀ u, u = v → (w.dev.cq c).used = true ∧ (w.dev.cq c).vec = some u :=
    fun u hu => ⟨hused,hu ▸ hv⟩
  split_ifs
  · exact ((irqOnly_setIrq w v _).trans (irqOnly_resume (w.setDev _) v)).mono hsub
  · exact (irqOnly_setIrq w v _).mono hsub

end
end EnaDevice
