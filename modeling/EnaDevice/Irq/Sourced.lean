import EnaDevice.Irq.Delivery

/-! Interrupts are auto-masked and never spurious. A vector is notified only when it was unmasked
and a completion was pushed on one of its CQs since its last notification. -/
namespace EnaDevice
open Bytes Result Relation

/-- What matters to a vector: events of the device, and accepted writes that unmask it. -/
inductive IrqMark
  | event (e : Event)
  | unmask (v : Vec)

/-- The vector that an input unmasks: the register belongs to a used CQ that is bound to it, and the
unmask bit is set. -/
def unmasks (s : EnaState) (inp : Input) : Option Vec :=
  match inp.unmask with
  | some (c,val) => if (s.cq c).used && val &&& bit 30 != 0 then (s.cq c).vec else none
  | none => none

/-- The marks of one step. -/
def stepMarks (w w' : World) (inp : Input) : List IrqMark :=
  (unmasks w.dev inp).toList.map .unmask ++ (w'.trace.drop w.trace.length).map .event

/-- The marks of a run, up to an abort. -/
def irqLog (net : Net) : World → List Input → List IrqMark
  | _, [] => []
  | w, inp::inputs =>
    match step net w inp with
    | .ok w' => stepMarks w w' inp ++ irqLog net w' inputs
    | .error _ => []

namespace IrqMark

/-- A mark that neither notifies the vector nor resets the device. -/
def Keeps (v : Vec) (m : IrqMark) : Prop := m ≠ .event (.msixNotify v) ∧ m ≠ .event .reset

/-- A completion on a CQ that was bound to the vector, with interrupts enabled. -/
def Completes (v : Vec) : IrqMark → Prop
  | .event (.dmaWrite (.cq c) dev _ _) => (dev.cq c).vec = some v
  | _ => False

def event? : IrqMark → Option Event
  | .event e => some e
  | .unmask _ => none

end IrqMark

/-- Something happened after the last notification of the vector and the last reset. -/
def Since (v : Vec) (P : IrqMark → Prop) (log : List IrqMark) : Prop :=
  ∃ before m after, log = before ++ m :: after ∧ P m ∧ ∀ m ∈ after, m.Keeps v

/-- Before each notification the vector was unmasked and a completion was pushed for it. -/
def Sourced (v : Vec) (log : List IrqMark) : Prop :=
  ∀ before after, log = before ++ .event (.msixNotify v) :: after →
    Since v (· = .unmask v) before ∧ Since v (IrqMark.Completes v) before

/-- Between two accepted unmask writes the vector is notified at most once. -/
def OncePerUnmask (v : Vec) (log : List IrqMark) : Prop :=
  ∀ before mid after, log = before ++ .event (.msixNotify v) :: mid ++
    .event (.msixNotify v) :: after → .unmask v ∈ mid

/-- What the state of a vector says about its past. -/
structure IrqInv (v : Vec) (irq : EnaIrq) (log : List IrqMark) : Prop where
  timer : irq.moderTimer ≠ none → irq.unmasked = true
  unmasked : irq.unmasked = true → Since v (· = .unmask v) log
  rxPending : irq.rxPending = true → Since v (IrqMark.Completes v) log
  txPending : irq.txPending = true → Since v (IrqMark.Completes v) log
  armed : irq.moderTimer ≠ none → Since v (IrqMark.Completes v) log
  sourced : Sourced v log

section Log
variable {v : Vec} {P : IrqMark → Prop} {irq : EnaIrq} {log ms : List IrqMark}

lemma Since.append (h : Since v P log) (hms : ∀ m ∈ ms, m.Keeps v) : Since v P (log ++ ms) := by
  obtain ⟨before,m,after,rfl,hm,hafter⟩ := h
  refine ⟨before,m,after ++ ms,by simp,hm,?_⟩
  intro k hk
  rcases List.mem_append.mp hk with hk | hk
  · exact hafter k hk
  · exact hms k hk

lemma since_concat {m : IrqMark} (h : P m) : Since v P (log ++ [m]) :=
  ⟨log,m,[],rfl,h,fun _ hm => absurd hm List.not_mem_nil⟩

/-- Only the last mark of an extended log can be a new notification. -/
lemma Sourced.concat {m : IrqMark} (h : Sourced v log)
    (hm : m = .event (.msixNotify v) → Since v (· = .unmask v) log ∧
    Since v (IrqMark.Completes v) log) :
    Sourced v (log ++ [m]) := by
  intro before after he
  rcases List.eq_nil_or_concat after with rfl | ⟨after,k,rfl⟩
  · obtain ⟨rfl,hk⟩ := List.append_inj' he rfl
    exact hm (List.singleton_inj.mp hk)
  · rw [List.concat_eq_append,← List.cons_append,← List.append_assoc] at he
    exact h before after (List.append_inj' he rfl).1

lemma Sourced.append (h : Sourced v log) (hms : ∀ m ∈ ms, m.Keeps v) : Sourced v (log ++ ms) := by
  induction ms generalizing log with
  | nil => simpa using h
  | cons m ms ih =>
    rw [List.append_cons]
    refine ih (h.concat fun hm => absurd hm (hms m List.mem_cons_self).1) ?_
    exact fun k hk => hms k (List.mem_cons_of_mem m hk)

/-- The last notification before a mark lies before what happened since. -/
lemma Since.mem_of_split {before mid : List IrqMark}
    (h : Since v P (before ++ .event (.msixNotify v) :: mid)) (hP : ¬ P (.event (.msixNotify v))) :
    ∃ m ∈ mid, P m := by
  obtain ⟨b,m,a,he,hm,ha⟩ := h
  rcases List.append_eq_append_iff.mp he with ⟨c,-,hc⟩ | ⟨c,-,hc⟩
  · cases c with
    | nil =>
      obtain ⟨rfl,-⟩ := List.cons_eq_cons.mp hc
      exact absurd hm hP
    | cons k c =>
      obtain ⟨-,rfl⟩ := List.cons_eq_cons.mp hc
      exact ⟨m,by simp,hm⟩
  · cases c with
    | nil =>
      obtain ⟨rfl,-⟩ := List.cons_eq_cons.mp hc
      exact absurd hm hP
    | cons k c =>
      obtain ⟨-,rfl⟩ := List.cons_eq_cons.mp hc
      exact absurd rfl (ha (.event (.msixNotify v)) (by simp)).1

lemma Sourced.oncePerUnmask (h : Sourced v log) : OncePerUnmask v log := by
  intro before mid after he
  obtain ⟨m,hm,rfl⟩ := (h _ _ he).1.mem_of_split fun hk => by cases hk
  exact hm

namespace IrqInv

lemma zero (v : Vec) : IrqInv v EnaIrq.zero [] where
  timer h := absurd rfl h
  unmasked h := by cases h
  rxPending h := by cases h
  txPending h := by cases h
  armed h := absurd rfl h
  sourced before after he := by simp at he

/-- The vector keeps its state over marks that do not concern it. -/
lemma append (h : IrqInv v irq log) (hms : ∀ m ∈ ms, m.Keeps v) : IrqInv v irq (log ++ ms) where
  timer := h.timer
  unmasked hu := (h.unmasked hu).append hms
  rxPending hp := (h.rxPending hp).append hms
  txPending hp := (h.txPending hp).append hms
  armed ha := (h.armed ha).append hms
  sourced := h.sourced.append hms

lemma reset (h : IrqInv v irq log) : IrqInv v EnaIrq.zero (log ++ [.event .reset]) where
  timer h := absurd rfl h
  unmasked h := by cases h
  rxPending h := by cases h
  txPending h := by cases h
  armed h := absurd rfl h
  sourced := h.sourced.concat fun he => by cases he

lemma fire (h : IrqInv v irq log) (hu : irq.unmasked = true)
    (hc : Since v (IrqMark.Completes v) log) :
    IrqInv v irq.fire (log ++ [.event (.msixNotify v)]) where
  timer h := absurd rfl h
  unmasked h := by cases h
  rxPending h := by cases h
  txPending h := by cases h
  armed h := absurd rfl h
  sourced := h.sourced.concat fun _ => ⟨h.unmasked hu,hc⟩

/-- The timer of an unmasked vector is armed for a completion. -/
lemma arm (h : IrqInv v irq log) (hu : irq.unmasked = true)
    (hc : Since v (IrqMark.Completes v) log) (timer : Option ℕ) :
    IrqInv v { irq with moderTimer := timer } log :=
  ⟨fun _ => hu,h.unmasked,h.rxPending,h.txPending,fun _ => hc,h.sourced⟩

lemma pend (h : IrqInv v irq log) (hc : Since v (IrqMark.Completes v) log) (isTx : Bool) :
    IrqInv v (irq.pend isTx) log := by
  cases isTx with
  | false => exact ⟨h.timer,h.unmasked,fun _ => hc,h.txPending,h.armed,h.sourced⟩
  | true => exact ⟨h.timer,h.unmasked,h.rxPending,fun _ => hc,h.armed,h.sourced⟩

/-- An unmask write that clears the mask. -/
lemma unmask (h : IrqInv v irq log) (hu : Since v (· = .unmask v) log) {val : UInt32}
    (hval : (irq.unmaskWrite val).unmasked = true) : IrqInv v (irq.unmaskWrite val) log where
  timer _ := hval
  unmasked _ := hu
  rxPending hp := h.rxPending ((unmaskWrite_pending irq val false).symm.trans hp)
  txPending hp := h.txPending ((unmaskWrite_pending irq val true).symm.trans hp)
  armed ha := h.armed (by rwa [unmaskWrite_moderTimer] at ha)
  sourced := h.sourced

lemma mask (h : IrqInv v irq log) {val : UInt32} (hval : (irq.unmaskWrite val).unmasked = false) :
    IrqInv v { irq.unmaskWrite val with moderTimer := none } log where
  timer ha := absurd rfl ha
  unmasked hu := absurd (hval.symm.trans hu) Bool.false_ne_true
  rxPending hp := h.rxPending ((unmaskWrite_pending irq val false).symm.trans hp)
  txPending hp := h.txPending ((unmaskWrite_pending irq val true).symm.trans hp)
  armed ha := absurd rfl ha
  sourced := h.sourced

end IrqInv
end Log

/-- The vector keeps what its state says, over the events that come with the change. -/
def Follows (v : Vec) (log : List IrqMark) (w w' : World) : Prop :=
  ∃ es, w'.trace = w.trace ++ es ∧ IrqInv v (w'.dev.irq v) (log ++ es.map .event)

/-- An event that neither notifies the vector nor resets the device. -/
def Event.Keeps (v : Vec) (e : Event) : Prop := e ≠ .msixNotify v ∧ e ≠ .reset

namespace Follows
variable {u v : Vec} {log : List IrqMark} {w w₁ w' : World}

lemma of_same (h : IrqInv v (w.dev.irq v) log) (hirq : w'.dev.irq v = w.dev.irq v)
    (hadds : Adds (Event.Keeps v) w w') : Follows v log w w' := by
  obtain ⟨es,he,hes⟩ := hadds
  refine ⟨es,he,?_⟩
  rw [hirq]
  refine h.append fun m hm => ?_
  obtain ⟨e,hmem,rfl⟩ := List.mem_map.mp hm
  exact ⟨fun hn => (hes e hmem).1 (IrqMark.event.inj hn),
    fun hr => (hes e hmem).2 (IrqMark.event.inj hr)⟩

/-- Only the vector's state changes. -/
lemma of_irq (h : IrqInv v (w'.dev.irq v) log) (ht : w'.trace = w.trace) : Follows v log w w' :=
  ⟨[],ht.trans (List.append_nil _).symm,by simpa using h⟩

lemma trans {es : List Event} (ht : w₁.trace = w.trace ++ es)
    (h : Follows v (log ++ es.map .event) w₁ w') : Follows v log w w' := by
  obtain ⟨fs,hf,hinv⟩ := h
  refine ⟨es ++ fs,by rw [hf,ht,List.append_assoc],?_⟩
  rw [List.map_append,← List.append_assoc]
  exact hinv

lemma trans_nil (ht : w₁.trace = w.trace) (h : Follows v log w₁ w') : Follows v log w w' := by
  obtain ⟨fs,hf,hinv⟩ := h
  exact ⟨fs,by rw [hf,ht],hinv⟩

lemma fire_of_ne (h : IrqInv v (w.dev.irq v) log) (hne : u ≠ v) :
    Follows v log w (enaIrqFire w u) :=
  of_same h (Function.update_of_ne (Ne.symm hne) _ _)
    (adds_fire w ⟨fun he => hne (Event.msixNotify.inj he),fun he => by cases he⟩)

lemma fire_self (h : IrqInv v (w.dev.irq v) log) (hu : (w.dev.irq v).unmasked = true)
    (hc : Since v (IrqMark.Completes v) log) : Follows v log w (enaIrqFire w v) := by
  refine ⟨[.msixNotify v],rfl,?_⟩
  have hirq : (enaIrqFire w v).dev.irq v = (w.dev.irq v).fire := Function.update_self _ _ _
  rw [hirq]
  exact h.fire hu hc

lemma schedule_of_ne (h : IrqInv v (w.dev.irq v) log) (hne : u ≠ v) (delay : UInt32) :
    Follows v log w (enaIrqSchedule w u delay) := by
  unfold enaIrqSchedule
  split_ifs
  · exact fire_of_ne h hne
  · exact of_same h (Function.update_of_ne (Ne.symm hne) _ _) (.of_eq rfl)

lemma schedule_self (h : IrqInv v (w.dev.irq v) log) (hu : (w.dev.irq v).unmasked = true)
    (hc : Since v (IrqMark.Completes v) log) (delay : UInt32) :
    Follows v log w (enaIrqSchedule w v delay) := by
  unfold enaIrqSchedule
  split_ifs
  · exact fire_self h hu hc
  · refine of_irq ?_ rfl
    change IrqInv v (Function.update w.dev.irq v _ v) log
    rw [Function.update_self]
    exact h.arm hu hc _

/-- A schedule that fires clears the flags, one that does not leaves the mask alone. -/
lemma schedule_txPending (w : World) (v : Vec) (delay : UInt32)
    (h : ((enaIrqSchedule w v delay).dev.irq v).txPending = true) :
    ((enaIrqSchedule w v delay).dev.irq v).unmasked = (w.dev.irq v).unmasked := by
  unfold enaIrqSchedule at h ⊢
  split_ifs at h ⊢
  · change (Function.update w.dev.irq v _ v).txPending = true at h
    rw [Function.update_self] at h
    cases h
  · change (Function.update w.dev.irq v _ v).unmasked = _
    rw [Function.update_self]

/-- With both directions pending the vector is notified once: if the first schedule fires, the
second one finds nothing pending. -/
lemma resume_self (h : IrqInv v (w.dev.irq v) log) (hu : (w.dev.irq v).unmasked = true) :
    Follows v log w (enaIrqResume w v) := by
  unfold enaIrqResume
  dsimp only
  by_cases hrx : (w.dev.irq v).rxPending = true
  · rw [if_pos hrx]
    obtain ⟨es,ht,hinv⟩ := schedule_self h hu (h.rxPending hrx) (w.dev.irq v).rxDelayUs
    by_cases htx : ((enaIrqSchedule w v (w.dev.irq v).rxDelayUs).dev.irq v).txPending = true
    · rw [if_pos htx]
      have hu₁ := (schedule_txPending w v _ htx).trans hu
      exact trans ht (schedule_self hinv hu₁ (hinv.txPending htx) _)
    · rw [if_neg htx]
      exact ⟨es,ht,hinv⟩
  · rw [if_neg hrx]
    by_cases htx : (w.dev.irq v).txPending = true
    · rw [if_pos htx]
      exact schedule_self h hu (h.txPending htx) _
    · rw [if_neg htx]
      exact of_irq h rfl

lemma resume_of_ne (h : IrqInv v (w.dev.irq v) log) (hne : u ≠ v) :
    Follows v log w (enaIrqResume w u) := by
  unfold enaIrqResume
  dsimp only
  split_ifs
  · obtain ⟨es,ht,hinv⟩ := schedule_of_ne h hne (w.dev.irq u).rxDelayUs
    exact trans ht (schedule_of_ne hinv hne _)
  · exact schedule_of_ne h hne _
  · exact schedule_of_ne h hne _
  · exact of_irq h rfl

lemma unmask {c : CqIdx} {val : UInt32} (h : IrqInv v (w.dev.irq v) log)
    (hmark : (w.dev.cq c).used = true → (w.dev.cq c).vec = some v → val &&& bit 30 ≠ 0 →
      Since v (· = .unmask v) log) : Follows v log w (enaCqUnmaskWrite w c val) := by
  unfold enaCqUnmaskWrite
  dsimp only
  split_ifs with hused
  swap
  · exact of_irq h rfl
  split
  · exact of_irq h rfl
  rename_i u hvec
  by_cases hne : u = v
  · subst hne
    have hset : ∀ irq : EnaIrq, (w.setDev (w.dev.setIrq u irq)).dev.irq u = irq :=
      fun irq => Function.update_self _ _ _
    split_ifs with hun
    · have hval : val &&& bit 30 ≠ 0 := by simpa [unmaskWrite_unmasked] using hun
      refine trans_nil rfl (resume_self ?_ ?_)
      · rw [hset]
        exact h.unmask (hmark hused hvec hval) hun
      · rw [hset]
        exact hun
    · refine of_irq ?_ rfl
      rw [hset]
      exact h.mask (by simpa using hun)
  · have hset : ∀ irq : EnaIrq, (w.setDev (w.dev.setIrq u irq)).dev.irq v = w.dev.irq v :=
      fun irq => Function.update_of_ne (Ne.symm hne) _ _
    split_ifs with hun
    · refine trans_nil rfl (resume_of_ne ?_ hne)
      rw [hset]
      exact h
    · exact of_same h (hset _) (.of_eq rfl)

lemma cqIntr {c : CqIdx} (h : IrqInv v (w.dev.irq v) log) (isTx : Bool)
    (hc : (w.dev.cq c).vec = some v → Since v (IrqMark.Completes v) log) :
    Follows v log w (enaCqIntr w c isTx) := by
  have hkeeps : ∀ m ∈ [Event.cqIntr (w.dev.cq c) isTx].map IrqMark.event, m.Keeps v := by
    intro m hm
    cases List.mem_singleton.mp hm
    refine ⟨?_,?_⟩ <;> exact fun he => by cases he
  have hemit : IrqInv v ((w.emit (.cqIntr (w.dev.cq c) isTx)).dev.irq v)
      (log ++ [Event.cqIntr (w.dev.cq c) isTx].map .event) := h.append hkeeps
  unfold enaCqIntr
  dsimp only
  split
  · exact ⟨_,rfl,hemit⟩
  rename_i u hvec
  by_cases hne : u = v
  · subst hne
    have hc' := (hc hvec).append hkeeps
    split_ifs with hun
    · exact trans rfl (schedule_self hemit hun hc' _)
    · refine ⟨_,rfl,?_⟩
      change IrqInv u (Function.update w.dev.irq u _ u) _
      rw [Function.update_self]
      exact hemit.pend hc' isTx
  · split_ifs with hun
    · exact trans rfl (schedule_of_ne hemit hne _)
    · refine ⟨_,rfl,?_⟩
      change IrqInv v (Function.update w.dev.irq u _ v) _
      rw [Function.update_of_ne (Ne.symm hne)]
      exact hemit

end Follows

/-- The log of a run that began with a reset: it has the events since, and the vectors agree with
it. -/
structure LogInv (t₀ : List Event) (w : World) (log : List IrqMark) : Prop where
  trace : w.trace = t₀ ++ .reset :: log.filterMap IrqMark.event?
  irq : ∀ v, v ≠ 0 → IrqInv v (w.dev.irq v) log

section
variable {net : Net} {t₀ : List Event} {w₀ w w' : World} {inp : Input} {log : List IrqMark}

/-- The push that an interrupt is raised for is the last event of the log. -/
lemma LogInv.completes (h : LogInv t₀ w log) {c : CqIdx} {v : Vec} (hp : w.JustPushed c)
    (hv : (w.dev.cq c).vec = some v) : Since v (IrqMark.Completes v) log := by
  obtain ⟨before,dev,addr,data,he,hvec⟩ := hp
  rw [h.trace] at he
  clear h
  induction log using List.reverseRecOn with
  | nil =>
    have hlast := (List.append_inj' he rfl).2
    cases hlast
  | append_singleton log m ih =>
    rw [List.filterMap_append] at he
    cases m with
    | unmask u =>
      have hsame : [IrqMark.unmask u].filterMap IrqMark.event? = [] := rfl
      rw [hsame,List.append_nil] at he
      refine (ih he).append fun m hm => ?_
      cases List.mem_singleton.mp hm
      refine ⟨?_,?_⟩ <;> exact fun he => by cases he
    | event e =>
      have hlast : t₀ ++ .reset :: log.filterMap IrqMark.event? ++ [e] =
          before ++ [.dmaWrite (.cq c) dev addr data] := by
        rw [List.append_assoc,List.cons_append]
        exact he
      cases List.singleton_inj.mp (List.append_inj' hlast rfl).2
      exact since_concat (hvec.trans hv)

lemma quiet_keeps (v : Vec) {e : Event} (h : e.Quiet) : e.Keeps v := by
  refine ⟨?_,?_⟩ <;> exact fun he => by subst he; exact h

lemma Effect.follows (h : Effect w₀ inp w w') (hlog : LogInv t₀ w log)
    (hmark : w = w₀ → ∀ v, unmasks w₀.dev inp = some v → Since v (· = .unmask v) log) {v : Vec}
    (hv : v ≠ 0) : Follows v log w w' := by
  have hinv := hlog.irq v hv
  cases h with
  | quiet hq => exact .of_same hinv (by rw [hq.irq]) (hq.trace.mono fun _ he => quiet_keeps v he)
  | dma site addr data =>
    exact .of_same hinv rfl ⟨[_],rfl,by simp [Event.Keeps]⟩
  | cqIntr c isTx _ hp => exact .cqIntr hinv isTx fun hvec => hlog.completes hp hvec
  | adminIntr =>
    refine .of_same hinv (by rw [dev_adminIntr]) (adds_adminIntr w ⟨?_,fun he => by cases he⟩)
    exact fun he => hv (Event.msixNotify.inj he).symm
  | fire u harmed =>
    by_cases hne : u = v
    · subst hne
      exact .fire_self hinv (hinv.timer harmed) (hinv.armed harmed)
    · exact .fire_of_ne hinv hne
  | unmask c val hinp hw₀ =>
    refine .unmask hinv fun hused hvec hval => hmark hw₀ v ?_
    subst hw₀
    rw [unmasks,hinp]
    simp [hused,hval,hvec]
  | reset => exact ⟨[.reset],rfl,hinv.reset⟩
  | queues _ hr => cases hr <;> exact .of_irq hinv rfl
  | cqAdvance => exact .of_irq hinv rfl
  | sqTail => exact .of_irq hinv rfl
  | sqHead => exact .of_irq hinv rfl
  | sqMeta => exact .of_irq hinv rfl
  | mtu => exact .of_irq hinv rfl
  | llq => exact .of_irq hinv rfl
  | rss => exact .of_irq hinv rfl
  | environment => exact .of_irq hinv rfl

lemma Effect.logInv (h : Effect w₀ inp w w') (hlog : LogInv t₀ w log)
    (hmark : w = w₀ → ∀ v, unmasks w₀.dev inp = some v → Since v (· = .unmask v) log) :
    ∃ es, w'.trace = w.trace ++ es ∧ LogInv t₀ w' (log ++ es.map .event) := by
  obtain ⟨es,he,-⟩ := h.confined
  refine ⟨es,he,?_,fun v hv => ?_⟩
  · rw [he,hlog.trace,List.filterMap_append,List.filterMap_map]
    have hid : es.filterMap (IrqMark.event? ∘ IrqMark.event) = es := by
      rw [show IrqMark.event? ∘ IrqMark.event = some from rfl,List.filterMap_some]
    rw [hid,List.append_assoc,List.cons_append]
  · obtain ⟨fs,hf,hinv⟩ := h.follows hlog hmark hv
    rw [he,List.append_cancel_left_eq] at hf
    exact hf ▸ hinv

lemma Path.logInv (h : Path w₀ inp w₀ w') (hlog : LogInv t₀ w₀ log)
    (hmark : ∀ v, unmasks w₀.dev inp = some v → Since v (· = .unmask v) log) :
    ∃ es, w'.trace = w₀.trace ++ es ∧ LogInv t₀ w' (log ++ es.map .event) := by
  induction h with
  | refl => exact ⟨[],(List.append_nil _).symm,by simpa using hlog⟩
  | tail _ heff ih =>
    obtain ⟨es,he,hinv⟩ := ih
    obtain ⟨fs,hf,hinv'⟩ := heff.logInv hinv fun hw₀ v hv => by
      rw [hw₀,List.self_eq_append_right] at he
      rw [he]
      simpa using hmark v hv
    refine ⟨es ++ fs,by rw [hf,he,List.append_assoc],?_⟩
    rwa [List.map_append,← List.append_assoc]

/-- One step extends the log by its marks. -/
theorem step_logInv (hw : TableInv w.dev ∧ TxIdle none w.dev) (hlog : LogInv t₀ w log)
    (h : step net w inp = .ok w') : LogInv t₀ w' (log ++ stepMarks w w' inp) := by
  obtain ⟨hpath,-⟩ := (step_spec net inp hw.1 hw.2).of_ok h
  have hneutral : ∀ v, ∀ m ∈ (unmasks w.dev inp).toList.map IrqMark.unmask, m.Keeps v := by
    intro v m hm
    obtain ⟨u,-,rfl⟩ := List.mem_map.mp hm
    refine ⟨?_,?_⟩ <;> exact fun he => by cases he
  have hlog₁ : LogInv t₀ w (log ++ (unmasks w.dev inp).toList.map .unmask) := by
    refine ⟨?_,fun v hv => (hlog.irq v hv).append (hneutral v)⟩
    rw [hlog.trace,List.filterMap_append,List.filterMap_map]
    simp [IrqMark.event?,Function.comp_def]
  obtain ⟨es,he,hinv⟩ := Path.logInv hpath hlog₁ fun v hv => by
    rw [hv]
    exact since_concat rfl
  rw [stepMarks,he,List.drop_left,← List.append_assoc]
  exact hinv

theorem run_logInv (inputs : List Input) (hw : TableInv w.dev ∧ TxIdle none w.dev)
    (hlog : LogInv t₀ w log) (h : run net w inputs = .ok w') :
    LogInv t₀ w' (log ++ irqLog net w inputs) := by
  induction inputs generalizing w log with
  | nil =>
    cases h
    simpa [irqLog] using hlog
  | cons inp inputs ih =>
    obtain ⟨w₁,h₁,hrest⟩ := bind_eq_ok.mp h
    have hnext := ih (step_tables hw h₁) (step_logInv hw hlog h₁) hrest
    rw [irqLog,h₁]
    dsimp only
    rwa [← List.append_assoc]

end

/-! Vector 0 belongs to the admin queue: no CQ is bound to it. -/

section
variable {net : Net} {w₀ w w' : World} {inp : Input}

lemma EnaCq.Ok.vec_ne_zero {q : EnaCq} (h : q.Ok) : q.vec ≠ some 0 := by
  unfold EnaCq.vec
  split_ifs with hv
  · intro he
    have hz : q.msixVector.toNat = 0 := congrArg Fin.val (Option.some.inj he)
    rcases h.vector hv.1 with hnone | hio
    · rw [hnone] at hz
      exact absurd hz (by decide)
    · omega
  · exact (Option.some_ne_none _).symm

theorem Effect.vecZero (h : Effect w₀ inp w w') (hw : TableInv w.dev)
    (hz : (w.dev.irq 0).moderTimer = none) : (w'.dev.irq 0).moderTimer = none := by
  cases h with
  | quiet hq => rw [hq.irq]; exact hz
  | cqIntr c isTx hused =>
    rw [(irqOnly_cqIntr w c isTx).irq 0 (hw.cq c hused).vec_ne_zero]
    exact hz
  | adminIntr => rw [dev_adminIntr]; exact hz
  | fire v harmed =>
    have hv : (0 : Vec) ≠ v := fun he => harmed (he ▸ hz)
    have hirq : (enaIrqFire w v).dev.irq 0 = w.dev.irq 0 := Function.update_of_ne hv _ _
    rw [hirq]
    exact hz
  | unmask c val =>
    rw [(irqOnly_unmask w c val).irq 0 fun h => (hw.cq c h.1).vec_ne_zero h.2]
    exact hz
  | reset => rfl
  | queues _ hr => cases hr <;> exact hz
  | dma => exact hz
  | cqAdvance => exact hz
  | sqTail => exact hz
  | sqHead => exact hz
  | sqMeta => exact hz
  | mtu => exact hz
  | llq => exact hz
  | rss => exact hz
  | environment => exact hz

/-- Without the admin queue in play, vector 0 is not notified. -/
theorem Effect.sparesZero (h : Effect w₀ inp w w') (hw : TableInv w.dev)
    (hz : (w.dev.irq 0).moderTimer = none) (hinp : ¬ inp.Control) :
    Adds (· ≠ .msixNotify 0) w w' := by
  cases h with
  | quiet hq => exact hq.trace.mono fun _ he => (quiet_keeps 0 he).1
  | dma => exact ⟨[_],rfl,by simp⟩
  | cqIntr c isTx hused =>
    refine adds_cqIntr w c isTx (by simp) fun v hv he => ?_
    exact (hw.cq c hused).vec_ne_zero (Event.msixNotify.inj he ▸ hv)
  | adminIntr hctl => exact absurd hctl hinp
  | fire v harmed =>
    exact adds_fire w fun he => harmed (Event.msixNotify.inj he ▸ hz)
  | unmask c val =>
    refine adds_unmask w c val fun v hused hv he => ?_
    exact (hw.cq c hused).vec_ne_zero (Event.msixNotify.inj he ▸ hv)
  | reset => exact ⟨[_],rfl,by simp⟩
  | queues => exact .of_eq rfl
  | cqAdvance => exact .of_eq rfl
  | sqTail => exact .of_eq rfl
  | sqHead => exact .of_eq rfl
  | sqMeta => exact .of_eq rfl
  | mtu => exact .of_eq rfl
  | llq => exact .of_eq rfl
  | rss => exact .of_eq rfl
  | environment => exact .of_eq rfl

lemma Path.vecZero (h : Path w₀ inp w w') (hw : TableInv w.dev)
    (hz : (w.dev.irq 0).moderTimer = none) : (w'.dev.irq 0).moderTimer = none := by
  induction h with
  | refl => exact hz
  | tail hpath heff ih => exact heff.vecZero (Path.tableInv hpath hw) ih

lemma Path.sparesZero (h : Path w₀ inp w w') (hw : TableInv w.dev)
    (hz : (w.dev.irq 0).moderTimer = none) (hinp : ¬ inp.Control) :
    Adds (· ≠ .msixNotify 0) w w' := by
  induction h with
  | refl => exact .refl _
  | tail hpath heff ih =>
    exact ih.trans (heff.sparesZero (Path.tableInv hpath hw) (Path.vecZero hpath hw hz) hinp)

/-- Inputs that complete IO or raise IO interrupts: doorbells, frames, unmask writes and timers. -/
def Input.Io (inp : Input) : Prop :=
  inp.doorbell ≠ none ∨ (∃ frame, inp = .receive frame) ∨ inp.unmask ≠ none ∨
    ∃ v, inp = .moderTimer v

lemma step_sparesZero (hw : TableInv w.dev ∧ TxIdle none w.dev)
    (hz : (w.dev.irq 0).moderTimer = none) (hinp : inp.Io) (h : step net w inp = .ok w') :
    Adds (· ≠ .msixNotify 0) w w' := by
  obtain ⟨hpath,-⟩ := (step_spec net inp hw.1 hw.2).of_ok h
  rcases hinp with hdb | ⟨frame,rfl⟩ | hum | ⟨v,rfl⟩
  · exact Path.sparesZero hpath hw.1 hz fun hctl => hdb hctl.1
  · exact Path.sparesZero hpath hw.1 hz fun hctl => hctl.2 frame rfl
  · obtain ⟨⟨c,val⟩,hval⟩ := Option.ne_none_iff_exists'.mp hum
    cases (step_unmask hval).symm.trans h
    refine adds_unmask w c val fun v hused hv he => ?_
    exact (hw.1.cq c hused).vec_ne_zero (Event.msixNotify.inj he ▸ hv)
  · simp only [step] at h
    split_ifs at h with hdue
    · cases h
      refine adds_fire w fun he => ?_
      cases he
      rw [hz] at hdue
      cases hdue
    · cases h
      exact .refl _

/-- Interrupts of IO vectors are auto-masked and never spurious, and vector 0 is none of them. -/
theorem run_interrupts_sourced {inputs : List Input}
    (h : run net (enaDevReset w₀) inputs = .ok w) :
    (∀ v, v ≠ 0 → ((w.dev.irq v).moderTimer ≠ none → (w.dev.irq v).unmasked = true) ∧
      Sourced v (irqLog net (enaDevReset w₀) inputs) ∧
      OncePerUnmask v (irqLog net (enaDevReset w₀) inputs)) ∧
    ∀ inp w', inp.Io → step net w inp = .ok w' → Adds (· ≠ .msixNotify 0) w w' := by
  have hstart : LogInv w₀.trace (enaDevReset w₀) [] := ⟨rfl,fun v _ => .zero v⟩
  have htables₀ : Reachable net (enaDevReset w₀) := ⟨w₀,[],rfl⟩
  have hlog := run_logInv inputs htables₀.tables hstart h
  have hzero : (TableInv w.dev ∧ TxIdle none w.dev) ∧ (w.dev.irq 0).moderTimer = none := by
    refine run_invariant (P := fun w => (TableInv w.dev ∧ TxIdle none w.dev) ∧
      (w.dev.irq 0).moderTimer = none) ?_ ⟨htables₀.tables,rfl⟩ h
    intro w inp w' hw hstep
    obtain ⟨hpath,-⟩ := (step_spec net inp hw.1.1 hw.1.2).of_ok hstep
    exact ⟨step_tables hw.1 hstep,Path.vecZero hpath hw.1.1 hw.2⟩
  refine ⟨fun v hv => ?_,fun inp w' hinp hstep => step_sparesZero hzero.1 hzero.2 hinp hstep⟩
  have hinv := hlog.irq v hv
  exact ⟨hinv.timer,hinv.sourced,hinv.sourced.oncePerUnmask⟩

/-- A frame is received while its vector is masked; the vector fires when it is unmasked. -/
def unmaskedAfterFrame : List Input :=
  driverSetup [createCqCmd,createSqCmd sqIdentityRx] [(0x4000,rxDescBytes)] ++
    [.regWrite regSqDbBase 1,.receive (List.replicate 14 0xff),.regWrite regCqUnmaskBase 0x40000000]

theorem run_interrupts_sourced_unmasked :
    ∃ w, run Net.nonIp freshWorld unmaskedAfterFrame = .ok w ∧ .msixNotify 1 ∈ w.trace ∧
      (w.dev.irq 1).unmasked = false ∧
      Sourced 1 (irqLog Net.nonIp freshWorld unmaskedAfterFrame) := by
  obtain ⟨w,hrun,hw⟩ := exists_of_okAnd
    (p := fun w : World => w.trace.contains (.msixNotify 1) && !(w.dev.irq 1).unmasked)
    (x := run Net.nonIp freshWorld unmaskedAfterFrame) (by decide +kernel)
  simp only [Bool.and_eq_true, List.contains_iff_mem, Bool.not_eq_true'] at hw
  exact ⟨w,hrun,hw.1,hw.2,((run_interrupts_sourced hrun).1 1 (by decide)).2.1⟩

end
end EnaDevice
