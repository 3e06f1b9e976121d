import EnaDevice.Invariant.Tx
import EnaDevice.Invariant.Rx
import EnaDevice.Invariant.Admin

/-! Every step of the device is a sequence of elementary effects, and the invariants hold in every
reachable state. -/
namespace EnaDevice
open Bytes Result Relation

section
variable {w : World}

/-- A change of the device state that no invariant looks at. -/
lemma quiet_path {w₀ : World} {inp : Input} {s : EnaState} (h : SameQueues w.dev s)
    (hirq : s.irq = w.dev.irq) : Path w₀ inp w (w.setDev s) := .single (.quiet (.setDev h hirq))

lemma enaRxDoorbell_eq {i : SqIdx} (h : (w.dev.sq i).isTx = false) :
    enaRxDoorbell w i = .ok (w.emit .flushQueuedPackets) := by
  unfold enaRxDoorbell
  rw [h]
  rfl

/-- A doorbell that returns was ignored, or it set the tail. An RX queue gets no more than that. -/
lemma enaSqDoorbell_cases {net : Net} {w' : World} {i : SqIdx} {val : UInt32}
    (h : enaSqDoorbell net w i val = .ok w') :
    w' = w ∨ (w.dev.sq i).used = true ∧ val.toUInt16 - (w.dev.sq i).head ≤ (w.dev.sq i).depth ∧
      ((w.dev.sq i).isTx = true ∨ (w.dev.sq i).isTx = false ∧
        w' = (w.setSq i { w.dev.sq i with tail := val.toUInt16 }).emit .flushQueuedPackets) := by
  unfold enaSqDoorbell at h
  dsimp only at h
  split_ifs at h with hu hcount htx
  · cases h
    exact .inl rfl
  · cases h
    exact .inl rfl
  · exact .inr ⟨by simpa using hu,UInt16.not_lt.mp hcount,.inl htx⟩
  · have hrx : (w.dev.sq i).isTx = false := by simpa using htx
    rw [enaRxDoorbell_eq (by rw [World.setSq_sq]; exact hrx)] at h
    cases h
    exact .inr ⟨by simpa using hu,UInt16.not_lt.mp hcount,.inr ⟨hrx,rfl⟩⟩

lemma enaSqDoorbell_spec (net : Net) {inp : Input} {i : SqIdx} (val : UInt32)
    (hdb : inp.doorbell = some i) (hw : TableInv w.dev) (hidle : TxIdle none w.dev) :
    Holds Fault.Deliberate (fun w' => Path w inp w w' ∧ TxIdle none w'.dev)
      (enaSqDoorbell net w i val) := by
  unfold enaSqDoorbell
  dsimp only
  refine holds_ite (fun _ => holds_pure ⟨.refl,hidle⟩) fun hu => ?_
  have hu : (w.dev.sq i).used = true := by simpa using hu
  refine holds_ite (fun _ => holds_pure ⟨.refl,hidle⟩) fun hval => ?_
  have htail : Path w inp w (w.setSq i { w.dev.sq i with tail := val.toUInt16 }) :=
    .single (.sqTail i val.toUInt16 hdb (UInt16.not_lt.mp hval))
  have hw₁ := htail.tableInv hw
  have hsq₁ := World.setSq_sq w i { w.dev.sq i with tail := val.toUInt16 }
  refine holds_ite (fun htx => ?_) fun hrx => ?_
  · refine holds_mono (enaTxDoorbell_spec net w hw₁ (by rw [hsq₁]; exact hu)
      (by rw [hsq₁]; exact htx) hdb) ?_
    rintro w' ⟨hpath,hdrained⟩
    have hpath := htail.trans hpath
    refine ⟨hpath,?_⟩
    intro j _ hju hjtx
    by_cases hji : j = i
    · rw [hji]
      exact hdrained
    · have hothers : TxIdle inp.doorbell w'.dev := Path.txIdle hpath fun k _ => hidle k (by simp)
      refine hothers j ?_ hju hjtx
      rw [hdb]
      exact fun he => hji (Option.some.inj he).symm
  · have hrx : (w.dev.sq i).isTx = false := by simpa using hrx
    rw [enaRxDoorbell_eq (by rw [hsq₁]; exact hrx)]
    have hflush : Path w inp w ((w.setSq i { w.dev.sq i with tail := val.toUInt16 }).emit
        .flushQueuedPackets) := htail.tail (.quiet (.emit trivial))
    refine holds_pure ⟨hflush,?_⟩
    refine TxIdle.setSq hidle i fun _ _ htx => ?_
    exact absurd (hrx.symm.trans htx) (by decide)

lemma enaDevCtlWrite_spec {inp : Input} (val : UInt32) (hinp : inp.Configures) :
    Holds Fault.Deliberate (Path w inp w) (enaDevCtlWrite w val) := by
  unfold enaDevCtlWrite
  refine holds_ite (fun _ => holds_throw trivial) fun _ => ?_
  refine holds_ite (fun _ => ?_) fun _ => ?_
  · have hreset : Path w inp w (enaDevReset w) := .single (.reset hinp)
    exact holds_pure (hreset.trans (quiet_path ⟨rfl,rfl,rfl,rfl,rfl,rfl⟩ rfl))
  · refine holds_ite (fun _ => holds_throw trivial) fun _ => ?_
    refine holds_pure (quiet_path ?_ ?_)
    · split_ifs <;> exact ⟨rfl,rfl,rfl,rfl,rfl,rfl⟩
    · split_ifs <;> rfl

lemma enaMmioReadless_path {inp : Input} (req : UInt32) (hinp : inp.Control) :
    Path w inp w (enaMmioReadless (w.setDev (w.dev.setReg regMmioRegRead req)) req) := by
  have hreg : Path w inp w (w.setDev (w.dev.setReg regMmioRegRead req)) :=
    quiet_path ⟨rfl,rfl,rfl,rfl,rfl,rfl⟩ rfl
  unfold enaMmioReadless
  dsimp only
  split_ifs with hskip
  · exact hreg
  · rw [not_or] at hskip
    exact hreg.tail (.dma .mmioResp _ _ hinp ⟨hskip.1,within_of_le _ (by simp)⟩)

/-- Programming a ring aborts on bad capabilities or changes registers and indices only. -/
lemma caps_spec {inp : Input} {val : UInt32} {s : EnaState} (h : SameQueues w.dev s)
    (hirq : s.irq = w.dev.irq) :
    Holds Fault.Deliberate (Path w inp w) (do
      enaCheckQueueCaps val
      return w.setDev s) := by
  unfold enaCheckQueueCaps
  exact holds_bind (holds_check fun _ => trivial) fun _ _ _ => holds_pure (quiet_path h hirq)

theorem enaRegWrite_spec (net : Net) (addr : ℕ) (val : UInt64) (hw : TableInv w.dev)
    (hidle : TxIdle none w.dev) :
    Holds Fault.Deliberate (fun w' => Path w (.regWrite addr val) w w' ∧ TxIdle none w'.dev)
      (enaRegWrite net w addr val) := by
  unfold enaRegWrite
  refine holds_dite (fun hdb => enaSqDoorbell_spec net _ (dif_pos hdb) hw hidle) fun hdb => ?_
  refine holds_dite (fun hum => ?_) fun _ => ?_
  · refine holds_pure ⟨.single (.unmask _ _ (dif_pos hum) rfl),?_⟩
    exact hidle.of_sameQueues (irqOnly_unmask w _ _).sameQueues
  -- everything else concerns no IO queue, so the drained TX queues stay drained
  have hnone : (Input.regWrite addr val).doorbell = none := dif_neg hdb
  have hinp : (Input.regWrite addr val).Control := ⟨hnone,fun _ h => by cases h⟩
  suffices hpath : Holds Fault.Deliberate (Path w (.regWrite addr val) w) _ by
    refine holds_mono hpath fun w' h => ⟨h,?_⟩
    exact hnone ▸ Path.txIdle h (hnone ▸ hidle)
  refine holds_ite (fun _ => holds_throw trivial) fun _ => ?_
  refine holds_ite (fun _ => holds_pure .refl) fun _ => ?_
  refine holds_ite (fun haddr => enaDevCtlWrite_spec _ (.inl haddr)) fun _ => ?_
  refine holds_ite (fun haddr => ?_) fun _ => ?_
  · subst haddr
    exact holds_pure (enaMmioReadless_path _ hinp)
  refine holds_ite (fun haddr => ?_) fun _ => ?_
  · have hreg : Path w (.regWrite addr val) w (w.setDev (w.dev.setReg addr val.toUInt32)) :=
      quiet_path ⟨rfl,rfl,rfl,rfl,rfl,rfl⟩ rfl
    have hcfg : (Input.regWrite addr val).Configures := .inr haddr
    exact holds_mono (enaAdminProcess_spec w hcfg) fun _ h => hreg.trans h
  refine holds_ite (fun _ => caps_spec ⟨rfl,rfl,rfl,rfl,rfl,rfl⟩ rfl) fun _ => ?_
  refine holds_ite (fun _ => caps_spec ⟨rfl,rfl,rfl,rfl,rfl,rfl⟩ rfl) fun _ => ?_
  refine holds_ite (fun _ => caps_spec ⟨rfl,rfl,rfl,rfl,rfl,rfl⟩ rfl) fun _ => ?_
  refine holds_ite (fun _ => holds_pure (quiet_path ⟨rfl,rfl,rfl,rfl,rfl,rfl⟩ rfl)) fun _ => ?_
  refine holds_ite (fun _ => ?_) fun _ => holds_throw trivial
  exact holds_ite (fun _ => holds_throw trivial) fun _ =>
    holds_pure (quiet_path ⟨rfl,rfl,rfl,rfl,rfl,rfl⟩ rfl)

lemma enaKeepAlive_spec {inp : Input} (w : World) (hinp : inp.Control) :
    Holds Fault.Deliberate (Path w inp w)
      (enaKeepAlive (w.setDev { w.dev with keepAliveTimer := none })) := by
  have htimer : Path w inp w (w.setDev { w.dev with keepAliveTimer := none }) :=
    quiet_path ⟨rfl,rfl,rfl,rfl,rfl,rfl⟩ rfl
  unfold enaKeepAlive
  refine holds_bind (enaAenqPost_spec _ _ _ (by simp)) fun w₁ _ h₁ => ?_
  have hpost := htimer.trans (h₁.path hinp)
  exact holds_pure (hpost.trans (quiet_path ⟨rfl,rfl,rfl,rfl,rfl,rfl⟩ rfl))

/-- One step: it aborts on purpose only, it is a sequence of effects, and it drains its TX queue. -/
theorem step_spec (net : Net) (inp : Input) (hw : TableInv w.dev) (hidle : TxIdle none w.dev) :
    Holds Fault.Deliberate (fun w' => Path w inp w w' ∧ TxIdle none w'.dev) (step net w inp) := by
  cases inp with
  | regWrite addr val => exact enaRegWrite_spec net addr val hw hidle
  | receive frame =>
    exact holds_mono (enaRxReceiveIov_spec net frame hw) fun _ h => ⟨h,Path.txIdle h hidle⟩
  | moderTimer v =>
    refine holds_ite (fun hdue => holds_pure ⟨.single (.fire v fun hnone => ?_),?_⟩) fun _ =>
      holds_pure ⟨.refl,hidle⟩
    · rw [hnone] at hdue
      cases hdue
    exact hidle.of_sameQueues (irqOnly_fire w v).sameQueues
  | keepAliveTimer =>
    refine holds_ite (fun _ => ?_) fun _ => holds_pure ⟨.refl,hidle⟩
    refine holds_mono (enaKeepAlive_spec w ⟨rfl,fun _ h => by cases h⟩) fun _ h => ⟨h,?_⟩
    exact Path.txIdle h hidle
  | linkChange up =>
    refine holds_mono (enaPostLinkChange_spec _) fun w' h => ?_
    have hpath : Path w (.linkChange up) w w' :=
      .trans (.single (.environment w.mem w.llq w.clock up (.inr rfl)))
        (h.path ⟨rfl,fun _ h => by cases h⟩)
    exact ⟨hpath,Path.txIdle hpath hidle⟩
  | qdevReset => exact holds_pure ⟨.single (.reset trivial),fun _ _ hu => by cases hu⟩
  | guest mem llq =>
    exact holds_pure ⟨.single (.environment mem llq w.clock w.linkUp (.inl rfl)),hidle⟩
  | tick ns => exact holds_pure ⟨.single (.environment w.mem w.llq _ w.linkUp (.inr rfl)),hidle⟩

end

section
variable {net : Net}

/-- An invariant of every step holds after every run. -/
theorem run_invariant {P : World → Prop}
    (hstep : ∀ w inp w', P w → step net w inp = .ok w' → P w') {w w' : World}
    {inputs : List Input} (hw : P w) (h : run net w inputs = .ok w') : P w' := by
  induction inputs generalizing w with
  | nil =>
    cases h
    exact hw
  | cons inp inputs ih =>
    obtain ⟨w₁,h₁,hrest⟩ := bind_eq_ok.mp h
    exact ih (hstep w inp w₁ hw h₁) hrest

/-- A run that goes on. -/
lemma run_append (net : Net) (w : World) (inputs later : List Input) :
    run net w (inputs ++ later) = run net w inputs >>= fun w => run net w later := by
  induction inputs generalizing w with
  | nil => rfl
  | cons a inputs ih =>
    change (step net w a >>= fun w => run net w (inputs ++ later)) = _
    simp only [ih]
    change _ = (step net w a >>= fun w => run net w inputs) >>= _
    cases step net w a <;> rfl

lemma run_concat (net : Net) (w : World) (inputs : List Input) (inp : Input) :
    run net w (inputs ++ [inp]) = run net w inputs >>= fun w => step net w inp := by
  rw [run_append]
  congr 1
  funext w
  change (step net w inp >>= fun w => run net w []) = step net w inp
  cases step net w inp <;> rfl

lemma take_concat {inputs : List Input} {n : ℕ} {inp : Input} (h : inputs[n]? = some inp) :
    inputs.take (n+1) = inputs.take n ++ [inp] := by
  rw [List.take_add_one,h]
  rfl

lemma step_tables {w w' : World} {inp : Input} (hw : TableInv w.dev ∧ TxIdle none w.dev)
    (h : step net w inp = .ok w') : TableInv w'.dev ∧ TxIdle none w'.dev := by
  obtain ⟨hpath,hidle⟩ := (step_spec net inp hw.1 hw.2).of_ok h
  exact ⟨Path.tableInv hpath hw.1,hidle⟩

lemma reset_tables (w : World) :
    TableInv (enaDevReset w).dev ∧ TxIdle none (enaDevReset w).dev :=
  ⟨tableInv_devReset w.dev,fun _ _ hu => by cases hu⟩

lemma Reachable.of_run {w w' : World} {inputs : List Input} (h : Reachable net w)
    (hrun : run net w inputs = .ok w') : Reachable net w' := by
  obtain ⟨w₀,inputs₀,hrun₀⟩ := h
  refine ⟨w₀,inputs₀ ++ inputs,?_⟩
  rw [run_append,hrun₀]
  exact hrun

lemma Reachable.tables {w : World} (h : Reachable net w) : TableInv w.dev ∧ TxIdle none w.dev := by
  obtain ⟨w₀,inputs,hrun⟩ := h
  exact run_invariant (fun _ _ _ => step_tables) (reset_tables w₀) hrun

end
end EnaDevice
