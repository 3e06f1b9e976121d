import EnaDevice.Lib.Bits
import EnaDevice.Control.Step
import EnaDevice.Invariant.Safety

/-! Coherence of the register file: constants stay, the tail registers show the tails, programmed
rings have a power-of-two depth and the phases follow the laps. -/
namespace EnaDevice
open Bytes Result Relation

/-- The phase is that of the lap, in a ring that the capabilities program. -/
def PhaseOk (caps : UInt32) (depth tail : UInt16) (phase : Bool) : Prop :=
  caps ≠ 0 → (phase = true ↔ tail.toNat/depth.toNat % 2 = 0)

/-- What holds of the registers at any time, also in the middle of admin processing. -/
structure RegsCore (s : EnaState) : Prop where
  version : s.getReg regVersion = regReset (Fin.ofNat 28 (regVersion/4))
  controllerVersion : s.getReg regControllerVersion =
    regReset (Fin.ofNat 28 (regControllerVersion/4))
  caps : s.getReg regCaps = regReset (Fin.ofNat 28 (regCaps/4))
  aenqTail : s.getReg regAenqTail = s.aenqTail.toUInt32
  aqCaps : s.getReg regAqCaps = 0 ∨ CapsOk (s.getReg regAqCaps)
  acqCaps : s.getReg regAcqCaps = 0 ∨ CapsOk (s.getReg regAcqCaps)
  aenqCaps : s.getReg regAenqCaps = 0 ∨ CapsOk (s.getReg regAenqCaps)
  acqPhase : PhaseOk (s.getReg regAcqCaps) (s.capsDepth regAcqCaps) s.acqTail s.acqPhase
  aenqPhase : PhaseOk (s.getReg regAenqCaps) (s.capsDepth regAenqCaps) s.aenqTail s.aenqPhase
  intrMask : s.getReg regIntrMask = 0 ∨ s.getReg regIntrMask = 1
  devSts : s.getReg regDevSts = devStsReady ∨ s.getReg regDevSts = devStsResetInProgress
  devCtl : s.getReg regDevSts = devStsResetInProgress ↔ s.getReg regDevCtl &&& 1 ≠ 0

/-- The register file between steps. -/
structure RegsOk (s : EnaState) : Prop extends RegsCore s where
  acqTail : s.getReg regAcqTail = s.acqTail.toUInt32

/-- The registers that the core speaks about. -/
def coreRegs : List ℕ :=
  [regVersion,regControllerVersion,regCaps,regAenqTail,regAqCaps,regAcqCaps,regAenqCaps,regIntrMask,
    regDevSts,regDevCtl]

section
variable {s s' : EnaState} {w w' : World}

lemma RegsCore.congr (h : RegsCore s) (hreg : ∀ off ∈ coreRegs, s'.getReg off = s.getReg off)
    (hacq : s'.acqTail = s.acqTail) (hacqp : s'.acqPhase = s.acqPhase)
    (haenq : s'.aenqTail = s.aenqTail) (haenqp : s'.aenqPhase = s.aenqPhase) : RegsCore s' := by
  simp only [coreRegs,List.mem_cons,forall_eq_or_imp,List.not_mem_nil,false_implies,implies_true,
    and_true] at hreg
  obtain ⟨h0,h1,h2,h3,h4,h5,h6,h7,h8,h9⟩ := hreg
  obtain ⟨hv,hcv,hc,ht,hq,ha,he,hap,hep,hm,hs,hd⟩ := h
  constructor <;> simp only [EnaState.capsDepth,h0,h1,h2,h3,h4,h5,h6,h7,h8,h9,hacq,hacqp,haenq,
    haenqp] <;>
    assumption

lemma CapsOk.depth {val : UInt32} (h : CapsOk val) :
    (val &&& 0xffff).toUInt16.toNat.isPowerOfTwo := by
  have hlow : (val &&& 0xffff).toNat = val.toNat % 65536 := Bits.low_toNat val (k := 16) (by decide)
  have hdepth : (val &&& 0xffff).toUInt16.toNat = (val &&& 0xffff).toNat := by
    rw [UInt32.toNat_toUInt16,hlow]
    exact Nat.mod_mod _ _
  rw [hdepth]
  exact h.2

/-- The next entry of a programmed ring. -/
lemma PhaseOk.succ {caps : UInt32} {tail : UInt16} {phase : Bool} (hcaps : caps = 0 ∨ CapsOk caps)
    (h : PhaseOk caps (caps &&& 0xffff).toUInt16 tail phase) :
    PhaseOk caps (caps &&& 0xffff).toUInt16 (tail+1)
      (if (tail+1) % (caps &&& 0xffff).toUInt16 = 0 then !phase else phase) := by
  intro hne
  have hnext := Counter.phase_succ (hcaps.resolve_left hne).depth (h hne)
  simp only [← Counter.mod_eq_zero_iff] at hnext
  exact hnext

lemma PhaseOk.zero (caps : UInt32) (depth : UInt16) : PhaseOk caps depth 0 true := by
  intro _
  have hzero : (0 : UInt16).toNat/depth.toNat % 2 = 0 := by
    change 0/depth.toNat % 2 = 0
    rw [Nat.zero_div]
  exact ⟨fun _ => hzero,fun _ => rfl⟩

lemma regsOk_devReset (s : EnaState) : RegsOk s.devReset where
  version := rfl
  controllerVersion := rfl
  caps := rfl
  aenqTail := rfl
  aqCaps := .inl rfl
  acqCaps := .inl rfl
  aenqCaps := .inl rfl
  acqPhase := .zero _ _
  aenqPhase := .zero _ _
  intrMask := .inl rfl
  devSts := .inl rfl
  devCtl := by
    change (1 : UInt32) = 8 ↔ (0 : UInt32) &&& 1 ≠ 0
    decide
  acqTail := rfl

namespace RegsCore

lemma setReg (h : RegsCore s) {addr : ℕ}
    (haddr : ∀ off ∈ coreRegs, Fin.ofNat 28 (off/4) ≠ Fin.ofNat 28 (addr/4)) (val : UInt32) :
    RegsCore (s.setReg addr val) :=
  h.congr (fun off hoff => EnaState.getReg_setReg_of_ne (haddr off hoff) s val) rfl rfl rfl rfl

lemma aenqAdvance (h : RegsCore s) : RegsCore s.aenqAdvance where
  version := h.version
  controllerVersion := h.controllerVersion
  caps := h.caps
  aenqTail := EnaState.getReg_setReg _ _ _
  aqCaps := h.aqCaps
  acqCaps := h.acqCaps
  aenqCaps := h.aenqCaps
  acqPhase := h.acqPhase
  aenqPhase := h.aenqPhase.succ h.aenqCaps
  intrMask := h.intrMask
  devSts := h.devSts
  devCtl := h.devCtl

end RegsCore

lemma AenqPosted.regs (h : AenqPosted w w') (hw : RegsCore w.dev) : RegsCore w'.dev := by
  cases h with
  | skipped => exact hw
  | posted =>
    rw [dev_adminIntr]
    exact hw.aenqAdvance

lemma AenqPosted.regsOk (h : AenqPosted w w') (hw : RegsOk w.dev) : RegsOk w'.dev := by
  refine ⟨h.regs hw.toRegsCore,?_⟩
  have hreg : w'.dev.getReg regAcqTail = w.dev.getReg regAcqTail := h.sameAdmin.reg _ (by decide)
  rw [hreg,h.sameAdmin.acqTail]
  exact hw.acqTail

/-- A command leaves the registers coherent; one that configures AENQ may post an event. -/
lemma Executed.regs {cmd : Bytes} {r : AdminStatus × Bytes × World} (h : Executed w cmd r)
    (hw : RegsCore w.dev) : RegsCore r.2.2.dev := by
  cases h with
  | queues hq => cases hq <;> exact hw.congr (fun _ _ => rfl) rfl rfl rfl rfl
  | aenqConfig groups hc =>
    obtain ⟨w₁,timer,hpost,rfl⟩ := hc
    have hgroups : RegsCore (w.setDev { w.dev with aenqGroups := groups }).dev :=
      hw.congr (fun _ _ => rfl) rfl rfl rfl rfl
    exact (hpost.regs hgroups).congr (fun _ _ => rfl) rfl rfl rfl rfl
  | refused => exact hw
  | reported => exact hw
  | ctrlReported => exact hw
  | hostAttrRefused => exact hw.congr (fun _ _ => rfl) rfl rfl rfl rfl
  | hostAttr => exact hw.congr (fun _ _ => rfl) rfl rfl rfl rfl
  | mtu => exact hw.congr (fun _ _ => rfl) rfl rfl rfl rfl
  | llq => exact hw.congr (fun _ _ => rfl) rfl rfl rfl rfl
  | rss => exact hw.congr (fun _ _ => rfl) rfl rfl rfl rfl

lemma RegsCore.acqPushed {r : AdminRings} {cmd resp : Bytes} {status : AdminStatus}
    (h : RegsCore w.dev) (hr : RingsOk r w.dev) : RegsCore (w.acqPushed r cmd status resp).dev := by
  obtain rfl := hr.eq
  exact { h with acqPhase := h.acqPhase.succ h.acqCaps }

lemma AdminIter.regs {r : AdminRings} (h : AdminIter r w w') (hw : RegsCore w.dev) :
    RegsCore w'.dev := by
  obtain ⟨hr,hstep⟩ := h
  obtain @⟨status,resp,w₁,hex⟩ := (enaAdminStep_spec hr).of_ok hstep
  have htaken : RegsCore w.aqTaken.dev := hw.congr (fun _ _ => rfl) rfl rfl rfl rfl
  have hr₁ : RingsOk r w₁.dev :=
    ⟨hex.sameAdmin.adminRings.trans hr.eq,hr.acqBase,hr.aqDepth,hr.acqDepth⟩
  have hexec : RegsCore (w₁.emit (.adminExec (w.aqCmd r) status.code)).dev := hex.regs htaken
  exact hexec.acqPushed hr₁

lemma AdminRan.regs (h : AdminRan w w') (hw : RegsOk w.dev) : RegsOk w'.dev := by
  cases h with
  | ignored => exact hw
  | @ran r w₁ w₂ _ h htail hintr =>
    have hcore : RegsCore w₁.dev := by
      clear htail hintr
      induction h with
      | refl => exact hw.toRegsCore
      | tail _ hiter ih => exact hiter.regs ih
    have hok : RegsOk w₂.dev := by
      subst htail
      refine ⟨hcore.setReg (by decide) _,EnaState.getReg_setReg _ _ _⟩
    rcases hintr with rfl | rfl
    · exact hok
    · rw [dev_adminIntr]
      exact hok

lemma SameControl.regs (h : SameControl s s') (hs : RegsOk s) : RegsOk s' := by
  unfold SameControl at h
  rw [h]
  exact ⟨hs.toRegsCore.congr (fun _ _ => rfl) rfl rfl rfl rfl,hs.acqTail⟩

/-- The registers that only keep a value. -/
lemma stored_mem {addr : ℕ} (h : storesValue addr ∨ addr = regMmioRegRead) :
    addr ∈ [regMmioRespLo,regMmioRespHi,regAqBaseLo,regAqBaseHi,regAcqBaseLo,regAcqBaseHi,
      regAenqBaseLo,regAenqBaseHi,regAenqHeadDb] ++ [regMmioRegRead] := by
  rw [List.mem_append,List.mem_singleton]
  exact h.imp List.contains_iff_mem.mp id

/-- They are none of those above. -/
lemma stored_ne {addr : ℕ} (h : storesValue addr ∨ addr = regMmioRegRead) :
    ∀ off ∈ regAcqTail::coreRegs, Fin.ofNat 28 (off/4) ≠ Fin.ofNat 28 (addr/4) := by
  have hmem := stored_mem h
  clear h
  revert addr
  decide

lemma RegsOk.setReg (h : RegsOk s) {addr : ℕ}
    (haddr : ∀ off ∈ regAcqTail::coreRegs, Fin.ofNat 28 (off/4) ≠ Fin.ofNat 28 (addr/4))
    (val : UInt32) :
    RegsOk (s.setReg addr val) := by
  refine ⟨h.toRegsCore.setReg (fun off hoff => haddr off (List.mem_cons_of_mem _ hoff)) val,?_⟩
  rw [EnaState.getReg_setReg_of_ne (haddr regAcqTail List.mem_cons_self)]
  exact h.acqTail

/-- The write of 0 to `DEV_CTL` ends a reset that is in progress. -/
lemma RegsOk.devCtlDone (h : RegsOk s) :
    RegsOk (if (s.setReg regDevCtl 0).getReg regDevSts &&& devStsResetInProgress ≠ 0
      then (s.setReg regDevCtl 0).setReg regDevSts devStsReady else s.setReg regDevCtl 0) := by
  have hclear : ¬ (0 : UInt32) &&& 1 ≠ 0 := by decide
  split_ifs with hsts
  · have hready : devStsReady ≠ devStsResetInProgress := by decide
    exact { h with
      devSts := .inl rfl
      devCtl := ⟨fun he => absurd he hready,fun hc => absurd hc hclear⟩ }
  · have hne : s.getReg regDevSts ≠ devStsResetInProgress := by
      intro he
      change ¬ s.getReg regDevSts &&& devStsResetInProgress ≠ 0 at hsts
      rw [he] at hsts
      exact hsts (by decide)
    exact { h with devCtl := ⟨fun he => absurd he hne,fun hc => absurd hc hclear⟩ }

lemma low_bit {val : UInt32} (h : val &&& ~~~1 = 0) : val = 0 ∨ val = 1 := by
  have hhalf := Bits.field_toNat val (k := 31) (l := 1) (by decide) (by decide)
  have hmask : (UInt32.ofNat ((2^31-1)*2^1)) = ~~~1 := by decide
  rw [hmask,h] at hhalf
  have hlt := val.toNat_lt
  change 0 = _ at hhalf
  rcases Nat.lt_or_ge val.toNat 1 with hz | hz
  · exact .inl (UInt32.toNat_inj.mp (by change _ = 0; omega))
  · exact .inr (UInt32.toNat_inj.mp (by change _ = 1; omega))

theorem Stepped.regs {inp : Input} (h : Stepped w inp w') (hw : RegsOk w.dev) : RegsOk w'.dev := by
  cases h with
  | io h => exact h.regs hw
  | reset => exact regsOk_devReset w.dev
  | devCtlReset hval =>
    exact { regsOk_devReset w.dev with
      devSts := .inr rfl
      devCtl := ⟨fun _ => hval,fun _ => rfl⟩ }
  | devCtlDone => exact hw.devCtlDone
  | stored haddr hdev =>
    rw [hdev]
    exact hw.setReg (stored_ne haddr) _
  | @intrMask val hval =>
    exact { hw with intrMask := low_bit hval }
  | aqCaps hval => exact { hw with aqCaps := .inr hval }
  | acqCaps hval =>
    exact { hw with
      acqCaps := .inr hval
      acqPhase := .zero _ _
      acqTail := rfl }
  | aenqCaps hval =>
    exact { hw with
      aenqCaps := .inr hval
      aenqPhase := .zero _ _
      aenqTail := rfl }
  | admin h => exact h.regs (hw.setReg (by decide) _)
  | keepAlive _ h =>
    have hoff : RegsOk (w.setDev { w.dev with keepAliveTimer := none }).dev :=
      ⟨hw.toRegsCore.congr (fun _ _ => rfl) rfl rfl rfl rfl,hw.acqTail⟩
    have hpost := h.regsOk hoff
    exact ⟨hpost.toRegsCore.congr (fun _ _ => rfl) rfl rfl rfl rfl,hpost.acqTail⟩
  | link h => exact h.regsOk hw

theorem Reachable.regs {net : Net} (h : Reachable net w) : RegsOk w.dev := by
  obtain ⟨w₀,inputs,hrun⟩ := h
  have hinv : (TableInv w.dev ∧ TxIdle none w.dev) ∧ RegsOk w.dev :=
    run_invariant (P := fun w => (TableInv w.dev ∧ TxIdle none w.dev) ∧ RegsOk w.dev)
      (fun _ _ _ hw hstep => ⟨step_tables hw.1 hstep,(step_stepped hw.1.1 hstep).regs hw.2⟩)
      ⟨reset_tables w₀,regsOk_devReset w₀.dev⟩ hrun
  exact hinv.2

lemma RegsOk.capsDepth (h : RegsOk s) {off : ℕ} (hoff : off ∈ [regAqCaps,regAcqCaps,regAenqCaps])
    (hne : s.capsDepth off ≠ 0) : (s.capsDepth off).toNat.isPowerOfTwo := by
  have hcaps : s.getReg off = 0 ∨ CapsOk (s.getReg off) := by
    simp only [List.mem_cons,List.not_mem_nil,or_false] at hoff
    rcases hoff with rfl | rfl | rfl
    · exact h.aqCaps
    · exact h.acqCaps
    · exact h.aenqCaps
  rcases hcaps with hz | hok
  · refine absurd ?_ hne
    unfold EnaState.capsDepth
    rw [hz]
    rfl
  · exact hok.depth

/-- The register file is coherent in every reachable state. In particular the depth that an admin or
event ring index is reduced by is a power of two, and no step divides by zero. -/
theorem registers_coherent {net : Net} (h : Reachable net w) :
    RegsOk w.dev ∧
      (∀ off ∈ [regAqCaps,regAcqCaps,regAenqCaps], w.dev.capsDepth off ≠ 0 →
        (w.dev.capsDepth off).toNat.isPowerOfTwo ∧ (w.dev.capsDepth off).toNat ∣ 2^16) ∧
      ∀ inp, step net w inp ≠ .error .divisionByZero := by
  refine ⟨h.regs,fun off hoff hne => ?_,fun inp hdiv => ?_⟩
  · have hpow := h.regs.capsDepth hoff hne
    exact ⟨hpow,Counter.depth_dvd hpow⟩
  · exact (step_spec net inp h.tables.1 h.tables.2).of_error hdiv

/-- After the first command of a driver. -/
theorem registers_coherent_setup :
    ∃ w, run Net.nonIp freshWorld (driverSetup [createCqCmd] []) = .ok w ∧
      w.dev.getReg regAcqTail = 1 ∧ w.dev.capsDepth regAcqCaps = 16 ∧ RegsOk w.dev := by
  obtain ⟨w,hrun,htest⟩ := exists_of_okAnd (p := fun w : World =>
      decide (w.dev.getReg regAcqTail = 1 ∧ w.dev.capsDepth regAcqCaps = 16))
    (x := run Net.nonIp freshWorld (driverSetup [createCqCmd] [])) (by decide +kernel)
  obtain ⟨htail,hdepth⟩ := of_decide_eq_true htest
  exact ⟨w,hrun,htail,hdepth,(registers_coherent (reachable_of_run hrun)).1⟩

end
end EnaDevice
