import EnaDevice.Control.Acted
import EnaDevice.Rx.Delivery

/-! Steps beside a queue pair: a step that is about other queues leaves an SQ and its CQ alone, and
memory changes only where the trace tells of a write. -/
namespace EnaDevice
open Bytes Result Relation

/-- An event that writes a byte of memory. -/
def Event.covers (x : UInt64) : Event → Prop
  | .dmaWrite _ _ addr data => InRegion addr data.length x
  | _ => False

/-- Memory changed only under the writes of the trace. -/
def Logged (w w' : World) : Prop :=
  ∃ es, w'.trace = w.trace ++ es ∧ w.mem.Agrees (fun x => ∃ e ∈ es, e.covers x) w'.mem

section Log
variable {w₀ w w' w'' : World} {inp : Input} {P : Event → Prop}

lemma Logged.of_mem (ht : Adds P w w') (hm : w'.mem = w.mem) : Logged w w' := by
  obtain ⟨es,he,-⟩ := ht
  exact ⟨es,he,by rw [hm]; exact .refl _⟩

lemma Logged.trans (h : Logged w w') (h' : Logged w' w'') : Logged w w'' := by
  obtain ⟨es,he,hm⟩ := h
  obtain ⟨fs,hf,hm'⟩ := h'
  refine ⟨es ++ fs,by rw [hf,he,List.append_assoc],?_⟩
  exact (hm.mono fun x ⟨e,hmem,hx⟩ => ⟨e,List.mem_append_left _ hmem,hx⟩).trans
    (hm'.mono fun x ⟨e,hmem,hx⟩ => ⟨e,List.mem_append_right _ hmem,hx⟩)

/-- Every effect, unless the guest itself writes. -/
lemma Effect.logged (h : Effect w₀ inp w w') (hno : ∀ mem llq, inp ≠ .guest mem llq) :
    Logged w w' := by
  have htrace := h.confined
  cases h with
  | quiet hq => exact .of_mem htrace hq.mem
  | dma site addr data => exact ⟨_,rfl,.write fun x hx => ⟨_,List.mem_singleton_self _,hx⟩⟩
  | cqIntr c isTx => exact .of_mem htrace (irqOnly_cqIntr w c isTx).mem
  | adminIntr => exact .of_mem htrace (dev_adminIntr_mem w)
  | fire v => exact .of_mem htrace (irqOnly_fire w v).mem
  | unmask c val => exact .of_mem htrace (irqOnly_unmask w c val).mem
  | environment mem llq clock linkUp hmem =>
    exact .of_mem htrace (hmem.resolve_left (hno mem llq))
  | cqAdvance => exact .of_mem htrace rfl
  | reset => exact .of_mem htrace rfl
  | sqTail => exact .of_mem htrace rfl
  | sqHead => exact .of_mem htrace rfl
  | sqMeta => exact .of_mem htrace rfl
  | queues => exact .of_mem htrace rfl
  | mtu => exact .of_mem htrace rfl
  | llq => exact .of_mem htrace rfl
  | rss => exact .of_mem htrace rfl

lemma Path.logged (h : Path w₀ inp w w') (hno : ∀ mem llq, inp ≠ .guest mem llq) :
    Logged w w' := by
  induction h with
  | refl => exact ⟨[],(List.append_nil _).symm,.refl _⟩
  | tail _ heff ih => exact ih.trans (heff.logged hno)

lemma step_logged {net : Net} (hw : TableInv w.dev ∧ TxIdle none w.dev)
    (hno : ∀ mem llq, inp ≠ .guest mem llq) (h : step net w inp = .ok w') : Logged w w' :=
  Path.logged ((step_spec net inp hw.1 hw.2).of_ok h).1 hno

end Log

/-- A command that asks for an SQ to be destroyed. -/
def DestroysSq (i : SqIdx) (cmd : Bytes) : Prop :=
  Opcode.ofCode (u8At cmd 2) = some .destroySq ∧ (le16At cmd 4).toNat = i.val

/-- A step that is not about a queue pair and writes none of the bytes it owns: the device is not
reset, doorbells and frames are for other pairs, no command destroys the SQ, and neither the guest
nor the device writes to the bytes. -/
structure Beside (net : Net) (i : SqIdx) (c : CqIdx) (own : UInt64 → Prop) (w : World) (inp : Input)
    (w' : World) : Prop where
  step : step net w inp = .ok w'
  stays : ¬ inp.Resets
  doorbell : ∀ j, inp.doorbell = some j →
    j ≠ i ∧ ((w.dev.sq j).used = true → (w.dev.sq j).cqIdx.toNat ≠ c.val)
  frame : ∀ frame j d, inp = .receive frame → RxSteered net w.dev frame j d → j ≠ i ∧ d ≠ c
  commands : ∀ cmd, (cmd,AdminStatus.success.code) ∈ newExecs w w' → ¬ DestroysSq i cmd
  guest : ∀ mem llq, inp = .guest mem llq → w.mem.Agrees (fun x => ¬ own x) mem
  writes : ∀ e ∈ w'.trace.drop w.trace.length, ∀ x, e.covers x → ¬ own x

/-- The queue pair and the bytes it owns are as they were. -/
structure Spared (i : SqIdx) (c : CqIdx) (own : UInt64 → Prop) (w w' : World) : Prop where
  tables : TableInv w'.dev ∧ TxIdle none w'.dev
  sq : w'.dev.sq i = w.dev.sq i
  cq : w'.dev.cq c = w.dev.cq c
  macaddr : w'.dev.macaddr = w.dev.macaddr
  mem : w.mem.Agrees (fun x => ¬ own x) w'.mem
  trace : ∃ es, w'.trace = w.trace ++ es

section Spare
variable {net : Net} {i : SqIdx} {c : CqIdx} {own : UInt64 → Prop} {w w' : World} {inp : Input}
  {cmd resp : Bytes} {status : AdminStatus} {s s' : EnaState}

/-- A command leaves a pair in use alone, unless it succeeds in destroying the SQ. -/
lemma Tabled.pair (h : Tabled s cmd status resp s') (hu : (s.sq i).used = true)
    (hc : (s.sq i).cqIdx.toNat = c.val) (hcq : (s.cq c).used = true)
    (hno : status = .success → ¬ DestroysSq i cmd) : s'.sq i = s.sq i ∧ s'.cq c = s.cq c := by
  cases h with
  | refused _ hsq hcq' => exact ⟨congrFun hsq i,congrFun hcq' c⟩
  | other _ hsq hcq' => exact ⟨congrFun hsq i,congrFun hcq' c⟩
  | createCq _ d hfree =>
    have hne : c ≠ d := fun he => Bool.false_ne_true (hfree.symm.trans (he ▸ hcq))
    exact ⟨rfl,Function.update_of_ne hne _ _⟩
  | destroyCq _ d _ hidle =>
    have hne : c ≠ d := fun he => hidle i hu (he ▸ hc)
    exact ⟨rfl,Function.update_of_ne hne _ _⟩
  | createSq _ j hfree =>
    have hne : i ≠ j := fun he => Bool.false_ne_true (hfree.symm.trans (he ▸ hu))
    exact ⟨Function.update_of_ne hne _ _,rfl⟩
  | destroySq hop j hidx =>
    have hne : i ≠ j := fun he => hno rfl ⟨hop,he ▸ hidx⟩
    exact ⟨Function.update_of_ne hne _ _,rfl⟩

/-- The commands of a doorbell one by one. -/
lemma AdminRan.pair (h : AdminRan w w') (hu : (w.dev.sq i).used = true)
    (hc : (w.dev.sq i).cqIdx.toNat = c.val) (hcq : (w.dev.cq c).used = true)
    (hno : ∀ cmd, (cmd,AdminStatus.success.code) ∈ newExecs w w' → ¬ DestroysSq i cmd) :
    w'.dev.sq i = w.dev.sq i ∧ w'.dev.cq c = w.dev.cq c := by
  refine h.preserves_executed
    (M := fun u => u.dev.sq i = w.dev.sq i ∧ u.dev.cq c = w.dev.cq c) hno ⟨rfl,rfl⟩ ?_
    (fun _ hu => hu) fun u hu => ?_
  · rintro r u status resp u₁ ⟨hsq,hcq'⟩ hok hex
    rw [← hsq] at hu hc
    rw [← hcq'] at hcq
    obtain ⟨hsq₁,hcq₁⟩ := (enaAdminExec_tabled hex).pair hu hc hcq hok
    exact ⟨hsq₁.trans hsq,hcq₁.trans hcq'⟩
  · rw [dev_adminIntr]
    exact hu

/-- A frame changes the SQ that it is steered to, and the CQ of that SQ. -/
lemma RxOutcome.sq_of_ne {frame : Bytes} (h : RxOutcome net w frame w')
    (hno : ∀ j d, RxSteered net w.dev frame j d → j ≠ i) : w'.dev.sq i = w.dev.sq i := by
  cases h with
  | ignored => rfl
  | dropped => rfl
  | short => rfl
  | bad hs => exact Function.update_of_ne (hno _ _ hs).symm _ _
  | @delivered j d ds hs =>
    rw [(irqOnly_cqIntr _ d false).dev]
    dsimp only [World.rxTook, World.setSq, World.setDev, EnaState.setSq]
    rw [rxScattered_dev]
    exact Function.update_of_ne (hno j d hs).symm _ _

lemma RxOutcome.cq_of_ne {frame : Bytes} (h : RxOutcome net w frame w')
    (hno : ∀ j d, RxSteered net w.dev frame j d → d ≠ c) : w'.dev.cq c = w.dev.cq c := by
  cases h with
  | ignored => rfl
  | dropped => rfl
  | short => rfl
  | bad => rfl
  | @delivered j d ds hs =>
    rw [(irqOnly_cqIntr _ d false).dev]
    dsimp only [World.rxTook, World.setSq, World.setDev, EnaState.setSq]
    rw [rxScattered_dev]
    exact Function.update_of_ne (hno j d hs).symm _ _

lemma Acted.pair (h : Acted net w inp w') (hu : (w.dev.sq i).used = true)
    (hc : (w.dev.sq i).cqIdx.toNat = c.val) (hcq : (w.dev.cq c).used = true)
    (hp : Beside net i c own w inp w') : w'.dev.sq i = w.dev.sq i ∧ w'.dev.cq c = w.dev.cq c := by
  cases h with
  | rest hsame => exact ⟨congrFun hsame.sq i,congrFun hsame.cq c⟩
  | @txDoorbell _ _ j d hdb hused _ hd hframe =>
    obtain ⟨hj,hcqs⟩ := hp.doorbell j hdb
    have hd : d ≠ c := fun he => hcqs hused (he ▸ hd)
    obtain ⟨_,_,_,hsq⟩ := hframe.sq
    obtain ⟨_,_,hcq'⟩ := hframe.cq
    rw [hsq,hcq']
    exact ⟨Function.update_of_ne hj.symm _ _,Function.update_of_ne hd.symm _ _⟩
  | rxDoorbell hdb => exact ⟨Function.update_of_ne (hp.doorbell _ hdb).1.symm _ _,rfl⟩
  | received hout =>
    exact ⟨hout.sq_of_ne fun j d hs => (hp.frame _ j d rfl hs).1,
      hout.cq_of_ne fun j d hs => (hp.frame _ j d rfl hs).2⟩
  | admin hran => exact hran.pair hu hc hcq hp.commands
  | reset hreset => exact absurd hreset hp.stays

lemma AenqPosted.macaddr (h : AenqPosted w w') : w'.dev.macaddr = w.dev.macaddr := by
  cases h with
  | skipped => rfl
  | posted =>
    rw [dev_adminIntr]
    rfl

lemma Executed.macaddr (h : Executed w cmd (status,resp,w')) : w'.dev.macaddr = w.dev.macaddr := by
  cases h with
  | queues hq => cases hq <;> rfl
  | aenqConfig groups hc =>
    obtain ⟨w₁,timer,hpost,rfl⟩ := hc
    exact hpost.macaddr
  | _ => rfl

/-- The address of the device is fixed. -/
lemma Stepped.macaddr (h : Stepped w inp w') : w'.dev.macaddr = w.dev.macaddr := by
  cases h with
  | io hsame => rw [hsame]
  | devCtlDone =>
    change EnaState.macaddr (if _ then _ else _) = _
    split_ifs <;> rfl
  | stored _ hdev =>
    rw [hdev]
    rfl
  | @admin val _ hran =>
    refine hran.preserves (M := fun u => u.dev.macaddr = w.dev.macaddr) rfl ?_ (fun _ hu => hu) ?_
    · intro r u status resp u₁ hu hex
      have hmac := ((enaAdminExec_spec _ _).of_ok hex).macaddr
      exact hmac.trans hu
    · intro u hu
      rw [dev_adminIntr]
      exact hu
  | keepAlive _ hpost => exact hpost.macaddr
  | link hpost => exact hpost.macaddr
  | _ => rfl

/-- Memory under a step that writes none of the bytes. -/
lemma Beside.mem (h : Beside net i c own w inp w') (hw : TableInv w.dev ∧ TxIdle none w.dev) :
    w.mem.Agrees (fun x => ¬ own x) w'.mem := by
  by_cases hguest : ∃ mem llq, inp = .guest mem llq
  · obtain ⟨mem,llq,rfl⟩ := hguest
    obtain rfl := Except.ok.inj h.step
    exact h.guest mem llq rfl
  · obtain ⟨es,he,hmem⟩ := step_logged hw (fun mem llq hi => hguest ⟨mem,llq,hi⟩) h.step
    refine hmem.mono fun x ⟨e,hmem,hx⟩ => h.writes e ?_ x hx
    rw [he,List.drop_left]
    exact hmem

/-- A step beside a queue pair spares it. -/
theorem Beside.spared (h : Beside net i c own w inp w') (hw : TableInv w.dev ∧ TxIdle none w.dev)
    (hu : (w.dev.sq i).used = true) (hc : (w.dev.sq i).cqIdx.toNat = c.val) :
    Spared i c own w w' := by
  obtain ⟨d,hd,hcq,-⟩ := (hw.1.sq i hu).cq
  obtain rfl : d = c := Fin.ext (hd.symm.trans hc)
  obtain ⟨hsq,hcq'⟩ := (step_acted hw.1 h.step).pair hu hc hcq h
  obtain ⟨es,he,-⟩ := Path.confined ((step_spec net inp hw.1 hw.2).of_ok h.step).1
  exact ⟨step_tables hw h.step,hsq,hcq',(step_stepped hw.1 h.step).macaddr,h.mem hw,es,he⟩

/-- A guest that leaves the bytes alone. -/
lemma Beside.guestWrites (net : Net) (i : SqIdx) (c : CqIdx) {mem : Memory} {llq : ℕ → UInt8}
    (h : w.mem.Agrees (fun x => ¬ own x) mem) :
    Beside net i c own w (.guest mem llq) { w with mem := mem, llq := llq } := by
  have hdrop : w.trace.drop w.trace.length = [] := List.drop_length
  refine ⟨rfl,fun hr => hr,fun _ hj => (by cases hj),fun _ _ _ he => (by cases he),
    fun cmd hmem => ?_,fun _ _ he => ?_,fun e he => ?_⟩
  · rw [newExecs,hdrop] at hmem
    exact absurd hmem List.not_mem_nil
  · cases he
    exact h
  · rw [hdrop] at he
    exact absurd he List.not_mem_nil

/-- Time passes. -/
lemma Beside.ticks (net : Net) (i : SqIdx) (c : CqIdx) (w : World) (ns : ℕ) :
    Beside net i c own w (.tick ns) { w with clock := w.clock + ns } := by
  have hdrop : w.trace.drop w.trace.length = [] := List.drop_length
  refine ⟨rfl,fun hr => hr,fun _ hj => (by cases hj),fun _ _ _ he => (by cases he),
    fun cmd hmem => ?_,fun _ _ he => (by cases he),fun e he => ?_⟩
  · rw [newExecs,hdrop] at hmem
    exact absurd hmem List.not_mem_nil
  · rw [hdrop] at he
    exact absurd he List.not_mem_nil

/-- If no command sets the MTU, it is spared as well. -/
lemma Beside.mtu (h : Beside net i c own w inp w') (hw : TableInv w.dev)
    (hno : ∀ cmd, (cmd,AdminStatus.success.code) ∈ newExecs w w' → ¬ IsSet .mtu cmd) :
    w'.dev.mtu = w.dev.mtu := by
  have hcell := (step_stepped hw h.step).keeps h.stays hno
  exact FeatureValue.mtu.inj (Option.some.inj hcell)

end Spare
end EnaDevice
