import EnaDevice.Aenq.Channel

/-! The two reports of dropped packets: the keep-alive event and the basic statistics. Both are
packed records of 64-bit counters in two halves. -/
namespace EnaDevice
open Bytes Result

/-- A counter of a record, from its low and high half. -/
def counterAt (b : Bytes) (off : ℕ) : UInt64 :=
  (le32At b off).toUInt64 ||| ((le32At b (off+4)).toUInt64 <<< 32)

/-- The drops that a report tells of. -/
structure DropReport where
  rxDrops : UInt64
  txDrops : UInt64
  rxOverruns : UInt64
  deriving DecidableEq

/-- `struct ena_admin_aenq_keep_alive_desc` -/
def keepAliveDrops (entry : Bytes) : DropReport :=
  ⟨counterAt entry 16,counterAt entry 24,counterAt entry 32⟩

/-- `struct ena_admin_basic_stats`, in a completion of `GET_STATS`. -/
def basicStatsDrops (entry : Bytes) : DropReport :=
  ⟨counterAt entry 40,counterAt entry 48,counterAt entry 56⟩

section Counters
variable (a b : Bytes) (x : UInt64) (n : ℕ)

lemma counterAt_append_right : counterAt (a ++ b) (a.length + n) = counterAt b n := by
  rw [counterAt,Nat.add_assoc,le32At_append_right,le32At_append_right,counterAt]

/-- The two halves of a counter put together again. -/
lemma counterAt_ofCounter : counterAt (ofCounter x ++ b) 0 = x := by
  have hlo : le32At (ofCounter x ++ b) 0 = x.toUInt32 := by
    rw [ofCounter,List.append_assoc]
    exact le32At_ofLe32 _ _
  have hhi : le32At (ofCounter x ++ b) 4 = (x >>> 32).toUInt32 := by
    rw [ofCounter,List.append_assoc]
    exact (le32At_append_right (ofLe32 x.toUInt32) _ 0).trans (le32At_ofLe32 _ _)
  have hcut : (x >>> 32).toUInt32.toNat = x.toNat/2^32 := by
    have hx := x.toNat_lt
    rw [UInt64.toNat_toUInt32,UInt64.toNat_shiftRight,Nat.shiftRight_eq_div_pow]
    change x.toNat/2^32 % 2^32 = _
    exact Nat.mod_eq_of_lt (by omega)
  apply UInt64.toNat_inj.mp
  rw [counterAt,hlo,hhi,UInt64.toNat_or,UInt64.toNat_shiftLeft,UInt32.toNat_toUInt64,
    UInt32.toNat_toUInt64,hcut,UInt64.toNat_toUInt32]
  exact Bits.join_cut x.toNat_lt

lemma counterAt_skip : counterAt (ofCounter x ++ b) (n+8) = counterAt b n := by
  rw [Nat.add_comm]
  exact counterAt_append_right (ofCounter x) b n

end Counters

section Reports
variable {net : Net} {w w₁ w₂ : World} {cmd entry resp : Bytes}

/-- The statistics tell all three counters. Overruns do not happen, the device counts them as
drops. -/
lemma basicStatsDrops_acqEntry (hop : Opcode.ofCode (u8At cmd 2) = some .getStats)
    (hexec : enaAdminExec w cmd = .ok (.success,resp,w₂)) (cmdId : UInt16) (phase : Bool)
    (sqHead : UInt16) :
    basicStatsDrops (acqEntry cmdId .success phase sqHead resp) =
      ⟨w.dev.rxDrops,w.dev.txDrops,0⟩ := by
  have hresp : resp = ofCounter w.dev.txBytes ++ ofCounter w.dev.txPkts ++
    ofCounter w.dev.rxBytes ++
      ofCounter w.dev.rxPkts ++ ofCounter w.dev.rxDrops ++ ofCounter w.dev.txDrops := by
    unfold enaAdminExec enaGetStats at hexec
    rw [hop] at hexec
    dsimp only at hexec
    split_ifs at hexec <;> cases hexec
    rfl
  have hfields : ∀ n, counterAt (acqEntry cmdId .success phase sqHead resp) (n+40) =
      counterAt (ofCounter w.dev.rxDrops ++ (ofCounter w.dev.txDrops ++ zeros 8)) n := by
    intro n
    have hhead : acqEntry cmdId .success phase sqHead resp =
        (ofLe16 (cmdId &&& 0xfff) ++ [AdminStatus.success.code,if phase then 1 else 0] ++
          ofLe16 0 ++ ofLe16 sqHead ++
          ofCounter w.dev.txBytes ++ ofCounter w.dev.txPkts ++ ofCounter w.dev.rxBytes ++
            ofCounter w.dev.rxPkts) ++
          (ofCounter w.dev.rxDrops ++ (ofCounter w.dev.txDrops ++ zeros 8)) := by
      rw [hresp]
      simp only [acqEntry,pad,List.append_assoc]
      rfl
    rw [hhead,Nat.add_comm]
    exact counterAt_append_right _ _ n
  refine DropReport.mk.injEq _ _ _ _ _ _ ▸ ⟨?_,?_,?_⟩
  · exact (hfields 0).trans (counterAt_ofCounter _ _)
  · exact (hfields 8).trans ((counterAt_skip _ _ 0).trans (counterAt_ofCounter _ _))
  · refine (hfields 16).trans ((counterAt_skip _ _ 8).trans ((counterAt_skip _ _ 0).trans ?_))
    decide

lemma enaAenqPost_entry {group : AenqGroup} {syndrome : UInt16} {data : Bytes}
    (hlen : data.length ≤ 48) (h : enaAenqPost w group syndrome data = .ok w₁)
    (hentry : newAenq w w₁ = [entry]) :
    entry = aenqEntry group syndrome w.dev.aenqPhase w.clockUs data := by
  have hskip : w₁ ≠ w := by
    rintro rfl
    rw [newAenq_self] at hentry
    cases hentry
  by_cases hring : w.dev.aenqBase = 0 ∨ w.dev.aenqDepth = 0
  · unfold enaAenqPost at h
    dsimp only at h
    simp only [check,hlen,decide_true,if_true,ok_bind] at h
    rw [if_pos (or_assoc.mp (.inl hring))] at h
    cases h
    exact absurd rfl hskip
  rw [not_or] at hring
  rw [enaAenqPost_eq hring.1 hring.2 hlen] at h
  split_ifs at h <;> cases h
  · exact absurd rfl hskip
  · rw [newAenq_aenqPosted] at hentry
    exact (List.singleton_inj.mp hentry).symm

/-- A keep-alive event tells the RX drops and leaves the other counters zero. -/
lemma keepAliveDrops_posted (h : step net w .keepAliveTimer = .ok w₁)
    (hentry : newAenq w w₁ = [entry]) :
    keepAliveDrops entry = ⟨w.dev.rxDrops,0,0⟩ := by
  unfold EnaDevice.step at h
  dsimp only at h
  split_ifs at h with hdue
  swap
  · cases h
    rw [newAenq_self] at hentry
    cases hentry
  unfold enaKeepAlive at h
  obtain ⟨w',hpost,hrest⟩ := bind_eq_ok.mp h
  cases hrest
  obtain rfl := enaAenqPost_entry (by simp) hpost hentry
  have hfields : ∀ n, counterAt (aenqEntry .keepAlive 0 w.dev.aenqPhase w.clockUs
      (pad 24 (ofCounter w.dev.rxDrops))) (n+16) =
        counterAt (ofCounter w.dev.rxDrops ++ zeros 40) n := by
    intro n
    have hhead : aenqEntry .keepAlive 0 w.dev.aenqPhase w.clockUs
      (pad 24 (ofCounter w.dev.rxDrops)) =
        (ofLe16 (UInt16.ofNat AenqGroup.keepAlive.code) ++ ofLe16 0 ++
          [if w.dev.aenqPhase then 1 else 0,0,0,0] ++ ofLe32 (UInt32.ofNat w.clockUs) ++
          ofLe32 (UInt32.ofNat (w.clockUs/2^32))) ++ (ofCounter w.dev.rxDrops ++ zeros 40) := by
      simp only [aenqEntry,pad,List.append_assoc]
      rfl
    rw [hhead,Nat.add_comm]
    exact counterAt_append_right _ _ n
  refine DropReport.mk.injEq _ _ _ _ _ _ ▸ ⟨?_,?_,?_⟩
  · exact (hfields 0).trans (counterAt_ofCounter _ _)
  · refine (hfields 8).trans ((counterAt_skip _ _ 0).trans ?_)
    decide
  · refine (hfields 16).trans ((counterAt_skip _ _ 8).trans ?_)
    decide

/-- A keep-alive event and the statistics of the same state always tell the same RX drops and
overruns. They agree altogether exactly if the device has no TX drops to tell of. -/
theorem drop_reports_agree (hpost : step net w .keepAliveTimer = .ok w₁)
    (hentry : newAenq w w₁ = [entry]) (hop : Opcode.ofCode (u8At cmd 2) = some .getStats)
    (hexec : enaAdminExec w cmd = .ok (.success,resp,w₂)) (cmdId : UInt16) (phase : Bool)
    (sqHead : UInt16) :
    let event := keepAliveDrops entry
    let stats := basicStatsDrops (acqEntry cmdId .success phase sqHead resp)
    (event.rxDrops = stats.rxDrops ∧ event.rxOverruns = stats.rxOverruns) ∧
      (event = stats ↔ w.dev.txDrops = 0) := by
  intro event stats
  have hevent : event = ⟨w.dev.rxDrops,0,0⟩ := keepAliveDrops_posted hpost hentry
  have hstats : stats = ⟨w.dev.rxDrops,w.dev.txDrops,0⟩ :=
    basicStatsDrops_acqEntry hop hexec cmdId phase sqHead
  rw [hevent,hstats,DropReport.mk.injEq]
  refine ⟨⟨rfl,rfl⟩,?_,?_⟩
  · rintro ⟨-,htx,-⟩
    exact htx.symm
  · intro htx
    exact ⟨rfl,htx.symm,rfl⟩

def getStatsCmd : Bytes := pad 64 [0,0,11,0]

/-- A command that enables keep-alive events. -/
def enableKeepAliveCmd : Bytes :=
  pad 64 ([0,0,9,0] ++ zeros 12 ++ [0,26,0,0] ++ zeros 4 ++ ofLe32 0x10)

/-- A driver with a TX queue and keep-alive events, one interval later. In between it does
something. -/
def keepAliveSetup (inputs : List Input) : List Input :=
  [.regWrite regAenqBaseLo 0x7000,.regWrite regAenqCaps 0x400010,.regWrite regAenqHeadDb 16] ++
    driverSetup [createCqCmd,createSqCmd sqIdentityTx,enableKeepAliveCmd] [(0x4000,zeros 16)] ++
      inputs ++
    [.tick 1000000000]

/-- An event is posted, and the statistics are read. The TX drops are those given. -/
def tellsDrops (net : Net) (w : World) (txDrops : UInt64) : Bool :=
  okAnd (fun w₁ => okAnd (fun r : AdminStatus × Bytes × World =>
    decide ((newAenq w w₁).length = 1 ∧ r.1 = .success ∧ w.dev.txDrops = txDrops))
      (enaAdminExec w getStatsCmd)) (step net w .keepAliveTimer)

lemma exists_of_tellsDrops {txDrops : UInt64} (h : tellsDrops net w txDrops = true) :
    ∃ w₁ w₂ entry resp, step net w .keepAliveTimer = .ok w₁ ∧ newAenq w w₁ = [entry] ∧
      enaAdminExec w getStatsCmd = .ok (.success,resp,w₂) ∧ w.dev.txDrops = txDrops := by
  obtain ⟨w₁,h₁,hstats⟩ := exists_of_okAnd h
  obtain ⟨⟨status,resp,w₂⟩,h₂,htest⟩ := exists_of_okAnd hstats
  obtain ⟨hone,hok,hdrops⟩ := of_decide_eq_true htest
  obtain ⟨entry,hentry⟩ := List.length_eq_one_iff.mp hone
  obtain rfl : status = .success := hok
  exact ⟨w₁,w₂,entry,resp,h₁,hentry,h₂,hdrops⟩

/-- A frame that no queue takes is counted in both. -/
theorem drop_reports_agree_rx :
    ∃ w w₁ w₂ entry resp, Reachable Net.nonIp w ∧ w.dev.rxDrops = 1 ∧
      step Net.nonIp w .keepAliveTimer = .ok w₁ ∧ newAenq w w₁ = [entry] ∧
      enaAdminExec w getStatsCmd = .ok (.success,resp,w₂) ∧
      keepAliveDrops entry = basicStatsDrops (acqEntry 0 .success true 0 resp) := by
  obtain ⟨w,hrun,htest⟩ := exists_of_okAnd
    (p := fun w : World => decide (w.dev.rxDrops = 1) && tellsDrops Net.nonIp w 0)
    (x := run Net.nonIp freshWorld (keepAliveSetup [.receive (List.replicate 64 0xff)]))
    (by decide +kernel)
  rw [Bool.and_eq_true] at htest
  obtain ⟨w₁,w₂,entry,resp,hpost,hentry,hexec,hdrops⟩ := exists_of_tellsDrops htest.2
  have hagree := drop_reports_agree hpost hentry (by decide) hexec 0 true 0
  exact ⟨w,w₁,w₂,entry,resp,reachable_of_run hrun,of_decide_eq_true htest.1,hpost,hentry,hexec,
    hagree.2.mpr hdrops⟩

/-- A TX burst that is dropped is counted in the statistics, but not in the event. -/
theorem drop_reports_differ :
    ¬ ∀ (net : Net) (w w₁ w₂ : World) (cmd entry resp : Bytes) (cmdId : UInt16) (phase : Bool)
      (sqHead : UInt16),
      Reachable net w → step net w .keepAliveTimer = .ok w₁ → newAenq w w₁ = [entry] →
      Opcode.ofCode (u8At cmd 2) = some .getStats → enaAdminExec w cmd = .ok (.success,resp,w₂) →
      keepAliveDrops entry = basicStatsDrops (acqEntry cmdId .success phase sqHead resp) := by
  intro hall
  obtain ⟨w,hrun,htest⟩ := exists_of_okAnd (p := fun w : World => tellsDrops Net.nonIp w 1)
    (x := run Net.nonIp freshWorld (keepAliveSetup [.regWrite regSqDbBase 1])) (by decide +kernel)
  obtain ⟨w₁,w₂,entry,resp,hpost,hentry,hexec,hdrops⟩ := exists_of_tellsDrops htest
  have hsame := hall _ w w₁ w₂ getStatsCmd entry resp 0 true 0 (reachable_of_run hrun) hpost hentry
    (by decide) hexec
  rw [keepAliveDrops_posted hpost hentry,basicStatsDrops_acqEntry (by decide) hexec,hdrops] at hsame
  have htx : (0 : UInt64) = 1 := congrArg DropReport.txDrops hsame
  exact absurd htx (by decide)

end Reports
end EnaDevice
