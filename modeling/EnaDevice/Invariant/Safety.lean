import EnaDevice.Invariant.Step

/-! What holds of every reachable state and of every step from it: the queue tables are well formed,
nothing but a deliberate abort ends the emulation, and every DMA write stays in a region that the
driver granted. -/
namespace EnaDevice
open Bytes Result Relation

/-- A command that creates a CQ of 16 entries of 16 bytes with interrupts on vector 1. -/
def createCqCmd : Bytes := pad 64 ([0,0,3,0,0x20,4] ++ ofLe16 16 ++ ofLe32 1 ++ ofLe32 0x3000)

/-- A command that creates an SQ of 16 entries on CQ 0, of the identity given. -/
def createSqCmd (sqIdentity : UInt8) : Bytes :=
  pad 64 ([1,0,1,0,sqIdentity,0,1,1] ++ ofLe16 0 ++ ofLe16 16 ++ ofLe32 0x4000)

/-- A command that sets the MTU to 1500. -/
def setMtuCmd : Bytes := pad 64 ([0,0,9,0] ++ zeros 12 ++ [0,14,0,0] ++ ofLe32 1500)

/-- A command that enables link-change events. -/
def enableLinkChangeCmd : Bytes :=
  pad 64 ([0,0,9,0] ++ zeros 12 ++ [0,26,0,0] ++ zeros 4 ++ ofLe32 1)

abbrev sqIdentityTx : UInt8 := sqDirectionTx <<< 5
abbrev sqIdentityRx : UInt8 := sqDirectionRx <<< 5

/-- A driver that programs the admin queue and posts commands, with more of its memory. -/
def driverSetup (cmds : List Bytes) (segs : List (UInt64 × Bytes)) : List Input :=
  [.guest (.ofSegments ((0x1000,cmds.flatten)::segs)) fun _ => 0,
    .regWrite regAqBaseLo 0x1000,.regWrite regAqCaps 0x400010,
    .regWrite regAcqBaseLo 0x2000,.regWrite regAcqCaps 0x400010,
    .regWrite regAqDb (UInt64.ofNat cmds.length)]

/-- The device as it comes out of reset. -/
def freshWorld : World := enaDevReset (World.powerOn (fun _ => 2) false)

lemma reachable_of_run {net : Net} {w : World} {inputs : List Input}
    (h : run net freshWorld inputs = .ok w) : Reachable net w := ⟨_,inputs,h⟩

section
variable {net : Net} {w w' : World} {inp : Input}

/-- The queue tables are well formed between steps, and every TX queue is drained. -/
theorem reachable_tables (h : Reachable net w) : TableInv w.dev ∧ TxIdle none w.dev := h.tables

theorem reachable_tables_setup :
    ∃ w, run Net.nonIp freshWorld (driverSetup [createCqCmd,createSqCmd sqIdentityRx] []) = .ok w ∧
      ((w.dev.cq 0).used && (w.dev.sq 0).used) = true ∧ TableInv w.dev ∧ TxIdle none w.dev := by
  obtain ⟨w,hrun,hused⟩ := exists_of_okAnd (p := fun w => (w.dev.cq 0).used && (w.dev.sq 0).used)
    (x := run Net.nonIp freshWorld (driverSetup [createCqCmd,createSqCmd sqIdentityRx] []))
    (by decide +kernel)
  exact ⟨w,hrun,hused,reachable_tables (reachable_of_run hrun)⟩

/-- No input makes an assertion fail, an index leave its array or a divisor vanish. -/
theorem reachable_faults (h : Reachable net w) (f : Fault) (hf : step net w inp = .error f) :
    f.Deliberate := (step_spec net inp h.tables.1 h.tables.2).of_error hf

/-- A TX queue is rung for five slots of zeroes, none of them a last descriptor: the device gives
them up. Ringing it past its depth does nothing, and a write beyond the registers aborts on
purpose. -/
theorem reachable_faults_bar0 :
    ∃ w w', run Net.nonIp freshWorld (driverSetup [createCqCmd,createSqCmd sqIdentityTx] []) =
      .ok w ∧
      step Net.nonIp w (.regWrite regSqDbBase 5) = .ok w' ∧ w'.dev.txDrops = 1 ∧
      step Net.nonIp w' (.regWrite regSqDbBase 100) = .ok w' ∧
      step Net.nonIp w' (.regWrite 0x70 0) = .error (.unsupported (.bar0Offset 0x70)) ∧
      Fault.Deliberate (.unsupported (.bar0Offset 0x70)) := by
  obtain ⟨w,hrun,htest⟩ := exists_of_okAnd
    (p := fun w : World => okAnd (fun w' : World => decide (w'.dev.txDrops = 1 ∧
        (w'.dev.sq 0).used = true ∧
        (100 : UInt64).toUInt32.toUInt16 - (w'.dev.sq 0).head > (w'.dev.sq 0).depth))
      (step Net.nonIp w (.regWrite regSqDbBase 5)))
    (x := run Net.nonIp freshWorld (driverSetup [createCqCmd,createSqCmd sqIdentityTx] []))
    (by decide +kernel)
  obtain ⟨w',hstep,htest⟩ := exists_of_okAnd htest
  obtain ⟨hdrops,hused,hpast⟩ := of_decide_eq_true htest
  have hreach : Reachable Net.nonIp w' := by
    have hone : run Net.nonIp w [.regWrite regSqDbBase 5] = .ok w' := by
      rw [run,hstep]
      rfl
    exact (reachable_of_run hrun).of_run hone
  have hignored : step Net.nonIp w' (.regWrite regSqDbBase 100) = .ok w' := by
    have hdb := enaRegWrite_doorbell Net.nonIp w' 0 100
    refine hdb.trans ?_
    unfold enaSqDoorbell
    dsimp only
    rw [hused,if_neg (by simp),if_pos hpast]
    rfl
  have hfault : step Net.nonIp w' (.regWrite 0x70 0) =
      .error (.unsupported (.bar0Offset 0x70)) := rfl
  exact ⟨w,w',hrun,hstep,hdrops,hignored,hfault,reachable_faults hreach _ hfault⟩

/-- An event that, if it is a DMA write, is one that the input may make and in a granted region. -/
def Event.Confined (w₀ : World) (inp : Input) : Event → Prop
  | .dmaWrite site dev addr data => inp.writes site ∧ Granted w₀ dev addr data.length site
  | _ => True

section Irq
variable {P : Event → Prop}

lemma adds_fire (w : World) {v : Vec} (h : P (.msixNotify v)) : Adds P w (enaIrqFire w v) :=
  ⟨[_],rfl,by simp [h]⟩

lemma adds_adminIntr (w : World) (h : P (.msixNotify 0)) : Adds P w (enaAdminIntr w) := by
  unfold enaAdminIntr
  split_ifs
  · exact .refl w
  · exact .emit h

lemma adds_schedule (w : World) {v : Vec} (delay : UInt32) (h : P (.msixNotify v)) :
    Adds P w (enaIrqSchedule w v delay) := by
  unfold enaIrqSchedule
  split_ifs
  · exact adds_fire w h
  · exact .of_eq rfl

lemma adds_cqIntr (w : World) (c : CqIdx) (isTx : Bool) (hintr : P (.cqIntr (w.dev.cq c) isTx))
    (h : ∀ v, (w.dev.cq c).vec = some v → P (.msixNotify v)) : Adds P w (enaCqIntr w c isTx) := by
  have hemit : Adds P w (w.emit (.cqIntr (w.dev.cq c) isTx)) := .emit hintr
  unfold enaCqIntr
  dsimp only
  split
  · exact hemit
  · rename_i v hv
    split_ifs
    · exact hemit.trans (adds_schedule _ _ (h v hv))
    · exact hemit.trans (.of_eq rfl)

lemma adds_resume (w : World) {v : Vec} (h : P (.msixNotify v)) : Adds P w (enaIrqResume w v) := by
  unfold enaIrqResume
  dsimp only
  split_ifs
  · exact (adds_schedule _ _ h).trans (adds_schedule _ _ h)
  · exact adds_schedule _ _ h
  · exact adds_schedule _ _ h
  · exact .refl w

lemma adds_unmask (w : World) (c : CqIdx) (val : UInt32)
    (h : ∀ v, (w.dev.cq c).used = true → (w.dev.cq c).vec = some v → P (.msixNotify v)) :
    Adds P w (enaCqUnmaskWrite w c val) := by
  unfold enaCqUnmaskWrite
  dsimp only
  split_ifs with hu
  swap
  · exact .refl w
  split
  · exact .refl w
  rename_i v hv
  split_ifs
  · exact Adds.trans (.of_eq rfl) (adds_resume _ (h v hu hv))
  · exact .of_eq rfl

end Irq

lemma Effect.confined {w₀ : World} (h : Effect w₀ inp w w') :
    Adds (Event.Confined w₀ inp) w w' := by
  cases h with
  | quiet hq =>
    refine hq.trace.mono fun e he => ?_
    cases e <;> first | exact trivial | exact absurd he id
  | dma site addr data hsite hgrant =>
      exact ⟨[_],rfl,by simpa [Event.Confined] using ⟨hsite,hgrant⟩⟩
  | cqIntr c isTx => exact adds_cqIntr w c isTx trivial fun _ _ => trivial
  | adminIntr => exact adds_adminIntr w trivial
  | fire v => exact adds_fire w trivial
  | unmask c val => exact adds_unmask w c val fun _ _ _ => trivial
  | reset => exact ⟨[_],rfl,by simp [Event.Confined]⟩
  | cqAdvance => exact .of_eq rfl
  | sqTail => exact .of_eq rfl
  | sqHead => exact .of_eq rfl
  | sqMeta => exact .of_eq rfl
  | queues => exact .of_eq rfl
  | mtu => exact .of_eq rfl
  | llq => exact .of_eq rfl
  | rss => exact .of_eq rfl
  | environment => exact .of_eq rfl

lemma Path.confined {w₀ : World} (h : Path w₀ inp w w') : Adds (Event.Confined w₀ inp) w w' := by
  induction h with
  | refl => exact .refl w
  | tail _ heff ih => exact ih.trans heff.confined

/-- A doorbell of an IO queue writes completions only. -/
lemma Input.writes_doorbell {site : WriteSite} (h : inp.writes site) (hdb : inp.doorbell ≠ none) :
    ∃ c, site = .cq c := by
  cases site with
  | cq c => exact ⟨c,rfl⟩
  | rxBuf i =>
    obtain ⟨frame,rfl⟩ := h
    exact absurd rfl hdb
  | acq => exact absurd h.1 hdb
  | aenq => exact absurd h.1 hdb
  | mmioResp => exact absurd h.1 hdb
  | ctrlBuf cmd => exact absurd h.1 hdb

/-- Some number of commands of an admin batch. -/
def enaAdminSteps (r : AdminRings) : ℕ → World → Except Fault World
  | 0, w => return w
  | n+1, w => do
    let w ← enaAdminStep r w
    enaAdminSteps r n w

/-- A state that a step gets to: its end, or a point between two commands of an admin batch, of
which the next one may abort. -/
inductive Progress (net : Net) (w : World) : Input → World → Prop
  | done {inp : Input} {w' : World} (h : step net w inp = .ok w') : Progress net w inp w'
  | batch {val : UInt64} {n : ℕ} {w' : World} (r : AdminRings) (hr : RingsOk r w.dev)
    (h : enaAdminSteps r n (w.setDev (w.dev.setReg regAqDb val.toUInt32)) = .ok w') :
    Progress net w (.regWrite regAqDb val) w'

lemma enaAdminSteps_path {r : AdminRings} {w₀ : World} (n : ℕ) (hinp : inp.Configures)
    (hr : RingsOk r w.dev) (h : enaAdminSteps r n w = .ok w') : Path w₀ inp w w' := by
  induction n generalizing w with
  | zero =>
    cases h
    exact .refl
  | succ n ih =>
    obtain ⟨w₁,h₁,hrest⟩ := bind_eq_ok.mp h
    have hstep := (enaAdminStep_spec hr).of_ok h₁
    exact (hstep.path hinp hr).trans (ih (hstep.ringsOk hr) hrest)

lemma Progress.path (h : Progress net w inp w') (hw : TableInv w.dev) (hidle : TxIdle none w.dev) :
    Path w inp w w' := by
  cases h with
  | done hs => exact ((step_spec net inp hw hidle).of_ok hs).1
  | @batch val n _ r hr hs =>
    have hreg : Path w (.regWrite regAqDb val) w
        (w.setDev (w.dev.setReg regAqDb val.toUInt32)) := quiet_path ⟨rfl,rfl,rfl,rfl,rfl,rfl⟩ rfl
    exact hreg.trans (enaAdminSteps_path _ (.inr rfl)
      ⟨hr.eq,hr.acqBase,hr.aqDepth,hr.acqDepth⟩ hs)

/-- Every DMA write lies in a region that is granted when it happens, and a doorbell of an IO queue
writes completions only. -/
theorem reachable_writes (h : Reachable net w) (hs : Progress net w inp w') :
    ∃ es, w'.trace = w.trace ++ es ∧
      ∀ site dev addr data, .dmaWrite site dev addr data ∈ es →
        Granted w dev addr data.length site ∧ (inp.doorbell ≠ none → ∃ c, site = .cq c) := by
  obtain ⟨es,he,hconf⟩ := (hs.path h.tables.1 h.tables.2).confined
  refine ⟨es,he,?_⟩
  intro site dev addr data hmem
  obtain ⟨hsite,hgrant⟩ := hconf _ hmem
  exact ⟨hgrant,Input.writes_doorbell hsite⟩

/-- The doorbell for one command, whose completion is written. -/
theorem reachable_writes_setup :
    ∃ w w' es, run Net.nonIp freshWorld ((driverSetup [createCqCmd] []).take 5) = .ok w ∧
      step Net.nonIp w (.regWrite regAqDb 1) = .ok w' ∧ w'.trace = w.trace ++ es ∧ es ≠ [] ∧
      ∀ site dev addr data, .dmaWrite site dev addr data ∈ es →
        Granted w dev addr data.length site ∧
          ((Input.regWrite regAqDb 1).doorbell ≠ none → ∃ c, site = .cq c) := by
  obtain ⟨w,hrun,hnext⟩ := exists_of_okAnd
    (p := fun w : World => okAnd (fun w' : World => decide (w.trace.length < w'.trace.length))
      (step Net.nonIp w (.regWrite regAqDb 1)))
    (x := run Net.nonIp freshWorld ((driverSetup [createCqCmd] []).take 5)) (by decide +kernel)
  obtain ⟨w',hstep,hmore⟩ := exists_of_okAnd hnext
  obtain ⟨es,he,hes⟩ := reachable_writes (reachable_of_run hrun) (.done hstep)
  refine ⟨w,w',es,hrun,hstep,he,?_,hes⟩
  rintro rfl
  rw [List.append_nil] at he
  rw [he,decide_eq_true_eq] at hmore
  exact lt_irrefl _ hmore

end
end EnaDevice
