import EnaDevice.Control.Features

/-! The data side of a step: what it can do to IO queues and counters. Doorbells, frames, admin
commands and resets do something to them, the rest nothing. -/
namespace EnaDevice
open Bytes Result Relation

/-- The statistics of the device. -/
structure Counters where
  txPkts : UInt64
  txBytes : UInt64
  txDrops : UInt64
  rxPkts : UInt64
  rxBytes : UInt64
  rxDrops : UInt64

def EnaState.counters (s : EnaState) : Counters :=
  ⟨s.txPkts,s.txBytes,s.txDrops,s.rxPkts,s.rxBytes,s.rxDrops⟩

/-- Queues and counters are the same. -/
structure SameData (s s' : EnaState) : Prop where
  sq : s'.sq = s.sq
  cq : s'.cq = s.cq
  counters : s'.counters = s.counters

section
variable {net : Net} {w w' : World} {s s' s'' : EnaState} {inp : Input}

lemma SameData.refl (s : EnaState) : SameData s s := ⟨rfl,rfl,rfl⟩

lemma SameData.setReg (s : EnaState) (off : ℕ) (val : UInt32) : SameData s (s.setReg off val) :=
  ⟨rfl,rfl,rfl⟩

lemma IrqOnly.sameData {vs : Vec → Prop} (h : IrqOnly vs w w') : SameData w.dev w'.dev := by
  rw [h.dev]
  exact ⟨rfl,rfl,rfl⟩

lemma AenqPosted.sameData (h : AenqPosted w w') : SameData w.dev w'.dev := by
  cases h with
  | skipped => exact .refl _
  | posted =>
    rw [dev_adminIntr]
    exact ⟨rfl,rfl,rfl⟩

lemma QueueCmd.counters {r : AdminStatus × Bytes × EnaState} (h : QueueCmd s r) :
    r.2.2.counters = s.counters := by
  cases h <;> rfl

/-- Setting a feature leaves the queues alone. -/
lemma FeatureSet.sameData {cmd : Bytes} {r : AdminStatus × Bytes × World} (h : FeatureSet w cmd r) :
    SameData w.dev r.2.2.dev := by
  cases h with
  | aenqConfig _ hc =>
    obtain ⟨w₁,timer,hpost,rfl⟩ := (enaAenqConfig_spec w _).of_ok hc
    have hdata := hpost.sameData
    exact ⟨hdata.sq,hdata.cq,hdata.counters⟩
  | _ => exact ⟨rfl,rfl,rfl⟩

end

/-- What a command does to the queue tables: one slot if it succeeds and is for queues, otherwise
nothing. -/
inductive Tabled (s : EnaState) (cmd : Bytes) : AdminStatus → Bytes → EnaState → Prop
  | refused {status : AdminStatus} {resp : Bytes} {s' : EnaState} (h : status ≠ .success)
    (hsq : s'.sq = s.sq) (hcq : s'.cq = s.cq) : Tabled s cmd status resp s'
  | other {status : AdminStatus} {resp : Bytes} {s' : EnaState}
    (hop : Opcode.ofCode (u8At cmd 2) ∉ [some .createCq,some .destroyCq,some .createSq,
      some .destroySq])
    (hsq : s'.sq = s.sq) (hcq : s'.cq = s.cq) : Tabled s cmd status resp s'
  | createCq (hop : Opcode.ofCode (u8At cmd 2) = some .createCq) (c : CqIdx)
    (hfree : (s.cq c).used = false) :
    Tabled s cmd .success (createCqResp c (CreateCqCmd.ofBytes cmd).cqDepth)
      (s.setCq c (CreateCqCmd.ofBytes cmd).newCq)
  | destroyCq (hop : Opcode.ofCode (u8At cmd 2) = some .destroyCq) (c : CqIdx)
    (hidx : (le16At cmd 4).toNat = c.val)
    (hidle : ∀ i, (s.sq i).used = true → (s.sq i).cqIdx.toNat ≠ c.val) :
    Tabled s cmd .success noResp (s.setCq c { s.cq c with used := false })
  | createSq (hop : Opcode.ofCode (u8At cmd 2) = some .createSq) (i : SqIdx)
    (hfree : (s.sq i).used = false) (hq : EnaSq.Fresh s ((CreateSqCmd.ofBytes cmd).newSq s)) :
    Tabled s cmd .success (createSqResp i (CreateSqCmd.ofBytes cmd).llq)
      (s.setSq i ((CreateSqCmd.ofBytes cmd).newSq s))
  | destroySq (hop : Opcode.ofCode (u8At cmd 2) = some .destroySq) (i : SqIdx)
    (hidx : (le16At cmd 4).toNat = i.val)
    (hdir : (s.sq i).isTx = ((u8At cmd 6 &&& 0xe0) >>> 5 == sqDirectionTx)) :
    Tabled s cmd .success noResp (s.setSq i { s.sq i with used := false })

section
variable {net : Net} {w w' : World} {s : EnaState} {cmd resp : Bytes} {status : AdminStatus}

lemma Refuses.tabled {r : AdminStatus × Bytes × EnaState} (h : Refuses s r) :
    Tabled s cmd r.1 r.2.1 r.2.2 := by
  obtain ⟨status,hne,rfl⟩ := h
  exact .refused hne rfl rfl

/-- Every command that returns does one of these. -/
theorem enaAdminExec_tabled (hexec : enaAdminExec w cmd = .ok (status,resp,w')) :
    Tabled w.dev cmd status resp w'.dev := by
  unfold enaAdminExec at hexec
  split at hexec
  case h_1 hop =>
    obtain ⟨r,hr,he⟩ := bind_eq_ok.mp hexec
    cases he
    rcases (enaCreateSq_cases w.dev cmd).of_ok hr with hno | ⟨i,q,resp,hfree,hq,rfl,rfl,rfl⟩
    · exact hno.tabled
    · exact .createSq hop i hfree hq
  case h_2 hop =>
    cases hexec
    rcases enaDestroySq_cases w.dev cmd with hno | ⟨i,hidx,-,hdir,hr⟩
    · exact hno.tabled
    · rw [hr]
      exact .destroySq hop i hidx hdir
  case h_3 hop =>
    cases hexec
    rcases enaCreateCq_cases w.dev cmd with hno | ⟨c,q,resp,hfree,-,hr,rfl,rfl⟩
    · exact hno.tabled
    · rw [hr]
      exact .createCq hop c hfree
  case h_4 hop =>
    cases hexec
    rcases enaDestroyCq_cases w.dev cmd with hno | ⟨c,hidx,-,hidle,hr⟩
    · exact hno.tabled
    · rw [hr]
      exact .destroyCq hop c hidx hidle
  case h_5 hop =>
    have hdev := enaGetFeature_dev.of_ok hexec
    exact .other (by rw [hop]; decide) (congrArg EnaState.sq hdev) (congrArg EnaState.cq hdev)
  case h_6 hop =>
    have hdata := ((enaSetFeature_cases w cmd).of_ok hexec).sameData
    exact .other (by rw [hop]; decide) hdata.sq hdata.cq
  case h_7 hop =>
    cases hexec
    exact .other (by rw [hop]; decide) rfl rfl
  case h_8 hop =>
    cases hexec
    exact .other (by rw [hop]; decide) rfl rfl

/-- Admin commands do not count. -/
lemma Executed.counters {cmd resp : Bytes} {status : AdminStatus}
    (h : Executed w cmd (status,resp,w')) :
    w'.dev.counters = w.dev.counters := by
  cases h with
  | queues hq => exact hq.counters
  | aenqConfig groups hc =>
    obtain ⟨w₁,timer,hpost,rfl⟩ := hc
    exact hpost.sameData.counters
  | _ => rfl

lemma AdminRan.counters (h : AdminRan w w') : w'.dev.counters = w.dev.counters := by
  refine h.preserves (M := fun u => u.dev.counters = w.dev.counters) rfl
    (fun r u status resp u₁ hu hexec => ?_)
    (fun _ hu => hu) fun u hu => ?_
  · have hcounters := ((enaAdminExec_spec _ _).of_ok hexec).counters
    exact hcounters.trans hu
  · rw [dev_adminIntr]
    exact hu

end

/-- What a step does on the data side, by cases. -/
inductive Acted (net : Net) (w : World) : Input → World → Prop
  | rest {inp : Input} {w' : World} (h : SameData w.dev w'.dev) : Acted net w inp w'
  | txDoorbell {inp : Input} {w' : World} {i : SqIdx} {c : CqIdx} (hdb : inp.doorbell = some i)
    (hu : (w.dev.sq i).used = true) (htx : (w.dev.sq i).isTx = true)
    (hc : (w.dev.sq i).cqIdx.toNat = c.val) (h : TxFrame i c w w') : Acted net w inp w'
  | rxDoorbell {inp : Input} {i : SqIdx} (hdb : inp.doorbell = some i) (tail : UInt16)
    (hu : (w.dev.sq i).used = true) (hrx : (w.dev.sq i).isTx = false)
    (hcount : tail - (w.dev.sq i).head ≤ (w.dev.sq i).depth) :
    Acted net w inp ((w.setSq i { w.dev.sq i with tail := tail }).emit .flushQueuedPackets)
  | received {frame : Bytes} {w' : World} (h : RxOutcome net w frame w') :
    Acted net w (.receive frame) w'
  | admin {val : UInt64} {w' : World}
    (h : AdminRan (w.setDev (w.dev.setReg regAqDb val.toUInt32)) w') :
    Acted net w (.regWrite regAqDb val) w'
  | reset {inp : Input} {w' : World} (hreset : inp.Resets) (h : SameData w.dev.devReset w'.dev) :
    Acted net w inp w'

section
variable {net : Net} {w w' : World} {inp : Input}

lemma enaSqDoorbell_acted {i : SqIdx} (val : UInt32) (hw : TableInv w.dev)
    (hdb : inp.doorbell = some i) :
    Holds (fun _ => True) (Acted net w inp) (enaSqDoorbell net w i val) := by
  refine holds_of_ok fun w' h => ?_
  rcases enaSqDoorbell_cases h with rfl | ⟨hu,hcount,htx | ⟨hrx,rfl⟩⟩
  · exact .rest (.refl _)
  · obtain ⟨c,hc,-⟩ := (hw.sq i hu).cq
    exact .txDoorbell hdb hu htx hc ((enaSqDoorbell_frame net val hw hu htx hc).of_ok h)
  · exact .rxDoorbell hdb val.toUInt16 hu hrx hcount

lemma enaDevCtlWrite_acted (val : UInt64) :
    Holds (fun _ => True) (Acted net w (.regWrite regDevCtl val))
      (enaDevCtlWrite w val.toUInt32) := by
  unfold enaDevCtlWrite
  refine holds_ite (fun _ => holds_throw trivial) fun _ => ?_
  refine holds_ite (fun hreset => holds_pure (.reset ⟨rfl,hreset⟩ ⟨rfl,rfl,rfl⟩)) fun _ => ?_
  refine holds_ite (fun _ => holds_throw trivial) fun _ => holds_pure (.rest ?_)
  dsimp only [World.setDev]
  split_ifs <;> exact ⟨rfl,rfl,rfl⟩

theorem enaRegWrite_acted (addr : ℕ) (val : UInt64) (hw : TableInv w.dev) :
    Holds (fun _ => True) (Acted net w (.regWrite addr val)) (enaRegWrite net w addr val) := by
  have hset : ∀ s, SameData w.dev s → Acted net w (.regWrite addr val) (w.setDev s) := fun _ h =>
    .rest h
  have hcaps : ∀ s, SameData w.dev s → Holds (fun _ => True) (Acted net w (.regWrite addr val)) (do
      enaCheckQueueCaps val.toUInt32
      return w.setDev s) :=
    fun s h => holds_bind (holds_of_ok fun _ _ => trivial) fun _ _ _ => holds_pure (hset s h)
  unfold enaRegWrite
  refine holds_dite (fun hdb => enaSqDoorbell_acted _ hw (dif_pos hdb)) fun _ => ?_
  refine holds_dite (fun _ => holds_pure (.rest (irqOnly_unmask w _ _).sameData)) fun _ => ?_
  refine holds_ite (fun _ => holds_throw trivial) fun _ => ?_
  refine holds_ite (fun _ => holds_pure (.rest (.refl _))) fun _ => ?_
  refine holds_ite (fun haddr => ?_) fun _ => ?_
  · subst haddr
    exact enaDevCtlWrite_acted val
  refine holds_ite (fun _ => holds_pure (.rest ?_)) fun _ => ?_
  · rw [enaMmioReadless_dev]
    exact .setReg _ _ _
  refine holds_ite (fun haddr => ?_) fun _ => ?_
  · subst haddr
    exact holds_of_ok fun _ h => .admin (enaAdminProcess_ran h)
  refine holds_ite (fun _ => hcaps _ ⟨rfl,rfl,rfl⟩) fun _ => ?_
  refine holds_ite (fun _ => hcaps _ ⟨rfl,rfl,rfl⟩) fun _ => ?_
  refine holds_ite (fun _ => hcaps _ ⟨rfl,rfl,rfl⟩) fun _ => ?_
  refine holds_ite (fun _ => holds_pure (hset _ (.setReg _ _ _))) fun _ => ?_
  refine holds_ite (fun _ => ?_) fun _ => holds_throw trivial
  exact holds_ite (fun _ => holds_throw trivial) fun _ => holds_pure (hset _ (.setReg _ _ _))

/-- Every step that does not abort is one of the above. -/
theorem step_acted (hw : TableInv w.dev) (h : step net w inp = .ok w') : Acted net w inp w' := by
  suffices hall : Holds (fun _ => True) (Acted net w inp) (step net w inp) from hall.of_ok h
  cases inp with
  | regWrite addr val => exact enaRegWrite_acted addr val hw
  | receive frame =>
    exact holds_imp (enaRxReceiveIov_outcome net frame hw) (fun _ _ => trivial) fun _ ho =>
      .received ho
  | moderTimer v =>
    exact holds_ite (fun _ => holds_pure (.rest (irqOnly_fire w v).sameData)) fun _ =>
      holds_pure (.rest (.refl _))
  | keepAliveTimer =>
    refine holds_ite (fun _ => ?_) fun _ => holds_pure (.rest (.refl _))
    refine holds_bind (holds_imp (enaAenqPost_spec _ _ _ (by simp)) (fun _ _ => trivial) fun _ =>
      id) ?_
    intro w₁ _ hpost
    have hdata := hpost.sameData
    exact holds_pure (.rest ⟨hdata.sq,hdata.cq,hdata.counters⟩)
  | linkChange up =>
    exact holds_imp (enaPostLinkChange_spec _) (fun _ _ => trivial) fun _ hpost =>
      .rest ⟨hpost.sameData.sq,hpost.sameData.cq,hpost.sameData.counters⟩
  | qdevReset => exact holds_pure (.reset trivial ⟨rfl,rfl,rfl⟩)
  | guest mem llq => exact holds_pure (.rest (.refl _))
  | tick ns => exact holds_pure (.rest (.refl _))

/-- An input that resets leaves the queues and counters of a reset. -/
lemma step_resets (h : step net w inp = .ok w') (hreset : inp.Resets) :
    SameData w.dev.devReset w'.dev := by
  cases inp with
  | qdevReset =>
    cases h
    exact .refl _
  | regWrite addr val =>
    obtain ⟨rfl,hval⟩ := hreset
    change enaDevCtlWrite w val.toUInt32 = .ok w' at h
    unfold enaDevCtlWrite at h
    split_ifs at h
    cases h
    exact ⟨rfl,rfl,rfl⟩
  | _ => exact hreset.elim

end
end EnaDevice
