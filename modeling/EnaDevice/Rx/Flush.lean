import EnaDevice.Control.Trace

/-! When reception becomes possible. Frames that were refused wait in the net layer until the device
flushes them; the RX doorbell does so, a reset and the end of the last RX queue do not. -/
namespace EnaDevice
open Bytes Result Relation

/-- If reception becomes possible, the held frames are flushed, and nothing changes after that. -/
def Releases (w w' : World) : Prop :=
  enaRxCanReceive w.dev = false → enaRxCanReceive w'.dev = true →
    ∃ w₁ : World, w' = w₁.emit .flushQueuedPackets ∧ ∃ es, w₁.trace = w.trace ++ es

/-- A `DESTROY_SQ` command for the only used RX queue, with the right direction. -/
def DestroysLastRx (s : EnaState) (cmd : Bytes) : Prop :=
  Opcode.ofCode (u8At cmd 2) = some .destroySq ∧ (u8At cmd 6 &&& 0xe0) >>> 5 ≠ sqDirectionTx ∧
    ∃ i : SqIdx, (le16At cmd 4).toNat = i.val ∧ (s.sq i).usedRx = true ∧
    ∀ j, (s.sq j).usedRx = true → j = i

/-- A `CREATE_SQ` command that succeeds and creates an RX queue. -/
def CreatesRx (w : World) (cmd : Bytes) : Prop :=
  Opcode.ofCode (u8At cmd 2) = some .createSq ∧ (CreateSqCmd.ofBytes cmd).isTx = false ∧
    ∃ resp w', enaAdminExec w cmd = .ok (.success,resp,w')

/-- One of the first commands of a batch destroys the last RX queue, and none of those after it
creates one. -/
def EndsRx (r : AdminRings) (w : World) (count : ℕ) : Prop :=
  ∃ n < count, ∃ b, enaAdminSteps r n w = .ok b ∧ DestroysLastRx b.dev (b.aqCmd r) ∧
    ∀ m b', n < m → m < count → enaAdminSteps r m w = .ok b' → ¬ CreatesRx b'.aqTaken (b'.aqCmd r)

section
variable {net : Net} {w w' : World} {s s' : EnaState} {inp : Input} {cmd resp : Bytes}
  {status : AdminStatus}

/-- Reception is possible if a descriptor is posted, or if there is no RX queue at all. -/
lemma canReceive_iff : enaRxCanReceive s = true ↔
    (∃ i, (s.sq i).usedRx = true ∧ (s.sq i).head ≠ (s.sq i).tail) ∨
    ∀ i, (s.sq i).usedRx = false := by
  simp only [enaRxCanReceive,Bool.or_eq_true,Bool.not_eq_true',List.any_eq_true,List.any_eq_false,
    List.mem_finRange,true_and,forall_const,Bool.and_eq_true,bne_iff_ne,Bool.not_eq_true]

lemma canReceive_eq_false_iff : enaRxCanReceive s = false ↔
    (∀ i, (s.sq i).usedRx = true → (s.sq i).head = (s.sq i).tail) ∧
    ∃ i, (s.sq i).usedRx = true := by
  rw [← Bool.not_eq_true,canReceive_iff,not_or,not_exists,not_forall]
  simp only [not_and,not_not,Bool.not_eq_false]

/-- Only RX queues matter. -/
lemma canReceive_congr (hrx : ∀ i, (s'.sq i).usedRx = (s.sq i).usedRx)
    (hidx : ∀ i, (s.sq i).usedRx = true → (s'.sq i).head = (s.sq i).head ∧
    (s'.sq i).tail = (s.sq i).tail) :
    enaRxCanReceive s' = enaRxCanReceive s := by
  rw [Bool.eq_iff_iff,canReceive_iff,canReceive_iff]
  simp only [hrx]
  refine or_congr (exists_congr fun i => and_congr_right fun hi => ?_) Iff.rfl
  rw [(hidx i hi).1,(hidx i hi).2]

lemma canReceive_of_sq (h : s'.sq = s.sq) : enaRxCanReceive s' = enaRxCanReceive s :=
  canReceive_congr (fun i => by rw [h]) fun i _ => by rw [h]; exact ⟨rfl,rfl⟩

lemma releases_of_eq (h : enaRxCanReceive w'.dev = enaRxCanReceive w.dev) : Releases w w' := by
  intro hfalse htrue
  rw [h,hfalse] at htrue
  cases htrue

lemma TxFrame.canReceive {i : SqIdx} {c : CqIdx} (h : TxFrame i c w w')
    (htx : (w.dev.sq i).isTx = true) :
    enaRxCanReceive w'.dev = enaRxCanReceive w.dev := by
  obtain ⟨head,tail,m,hsq⟩ := h.sq
  have hrx : ∀ j, (w'.dev.sq j).usedRx = (w.dev.sq j).usedRx := by
    intro j
    rw [hsq]
    by_cases hj : j = i
    · rw [hj,Function.update_self]
      rfl
    · rw [Function.update_of_ne hj]
  refine canReceive_congr hrx fun j hj => ?_
  have hne : j ≠ i := by
    rintro rfl
    rw [usedRx_iff,htx] at hj
    exact absurd hj.2 (by decide)
  rw [hsq,Function.update_of_ne hne]
  exact ⟨rfl,rfl⟩

/-- Without posted descriptors a frame cannot move a head. -/
lemma RxOutcome.canReceive {frame : Bytes} (h : RxOutcome net w frame w')
    (hno : enaRxCanReceive w.dev = false) :
    enaRxCanReceive w'.dev = false := by
  obtain ⟨hempty,-⟩ := canReceive_eq_false_iff.mp hno
  have havail : ∀ {i c}, RxSteered net w.dev frame i c → (w.dev.sq i).avail = 0 := by
    intro i c hs
    have hused := enaRxSq_used hs.sq
    exact (Counter.sub_toNat_eq_zero_iff _ _).mpr (hempty i ((usedRx_iff _).mpr hused))
  cases h with
  | ignored => exact hno
  | dropped => exact hno
  | short => exact hno
  | bad hs hp hcap hlt =>
    rw [havail hs] at hlt
    exact absurd hlt (Nat.not_lt_zero _)
  | @delivered i c ds hs hp hcap =>
    have hlen := hp.avail
    rw [havail hs,Nat.le_zero,List.length_eq_zero_iff] at hlen
    rw [hlen,rxCapacity_nil] at hcap
    have hmin := hs.accepts.min
    simp only [ethHlen] at hmin
    omega

lemma devReset_canReceive (s : EnaState) : enaRxCanReceive s.devReset = true :=
  canReceive_iff.mpr (.inr fun _ => rfl)

/-- A step that is neither a reset nor an admin doorbell releases held frames. -/
lemma Acted.releases (h : Acted net w inp w') (hadmin : ∀ val, inp ≠ .regWrite regAqDb val)
    (hreset : inp.Resets → enaRxCanReceive w.dev = true) : Releases w w' := by
  cases h with
  | rest hdata => exact releases_of_eq (canReceive_of_sq hdata.sq)
  | txDoorbell _ _ htx _ hframe => exact releases_of_eq (hframe.canReceive htx)
  | rxDoorbell _ tail => exact fun _ _ => ⟨_,rfl,[],(List.append_nil _).symm⟩
  | received hout =>
    intro hno hyes
    rw [hout.canReceive hno] at hyes
    cases hyes
  | admin => exact absurd rfl (hadmin _)
  | reset hr =>
    intro hno
    rw [hreset hr] at hno
    cases hno

/-- A reset ends with its own event. -/
lemma resets_trace (h : step net w inp = .ok w') (hreset : inp.Resets) :
    w'.trace = w.trace ++ [.reset] := by
  cases inp with
  | qdevReset =>
    cases h
    rfl
  | regWrite addr val =>
    obtain ⟨rfl,hval⟩ := hreset
    change enaDevCtlWrite w val.toUInt32 = .ok w' at h
    unfold enaDevCtlWrite at h
    split_ifs at h
    cases h
    rfl
  | _ => exact hreset.elim

lemma not_releases_reset (h : step net w inp = .ok w') (hreset : inp.Resets)
    (hno : enaRxCanReceive w.dev = false) :
    ¬ Releases w w' := by
  intro hrel
  have hyes : enaRxCanReceive w'.dev = true := by
    rw [canReceive_of_sq (step_resets h hreset).sq]
    exact devReset_canReceive _
  obtain ⟨w₁,rfl,-⟩ := hrel hno hyes
  have htrace := resets_trace h hreset
  have hlast := List.append_inj_right' htrace rfl
  cases hlast

/-- Only the end of the last RX queue makes reception possible: a new queue is empty, and the others
stay. -/
lemma Tabled.canReceive (h : Tabled s cmd status resp s') (hno : enaRxCanReceive s = false)
    (hcmd : ¬ DestroysLastRx s cmd) : enaRxCanReceive s' = false := by
  obtain ⟨hempty,i₀,hi₀⟩ := canReceive_eq_false_iff.mp hno
  cases h with
  | refused _ hsq => exact (canReceive_of_sq hsq).trans hno
  | other _ hsq => exact (canReceive_of_sq hsq).trans hno
  | createCq => exact (canReceive_of_sq rfl).trans hno
  | destroyCq => exact (canReceive_of_sq rfl).trans hno
  | createSq _ i hfree hq =>
    have hne : i₀ ≠ i := by
      rintro rfl
      rw [usedRx_iff,hfree] at hi₀
      exact absurd hi₀.1 (by decide)
    refine canReceive_eq_false_iff.mpr ⟨fun j hj => ?_,i₀,?_⟩
    · rcases eq_or_ne j i with rfl | hji
      · rw [EnaState.setSq_sq,hq.head,hq.tail]
      · rw [EnaState.setSq_sq_of_ne _ hji] at hj ⊢
        exact hempty j hj
    · rw [EnaState.setSq_sq_of_ne _ hne]
      exact hi₀
  | destroySq hop i hidx hdir =>
    have hleft : ∃ j, (s.sq j).usedRx = true ∧ j ≠ i := by
      by_contra honly
      have hlast : ∀ j, (s.sq j).usedRx = true → j = i := fun j hj => by_contra fun hne =>
        honly ⟨j,hj,hne⟩
      obtain rfl := hlast i₀ hi₀
      rw [((usedRx_iff _).mp hi₀).2] at hdir
      refine hcmd ⟨hop,fun htx => ?_,i₀,hidx,hi₀,hlast⟩
      rw [htx] at hdir
      exact absurd hdir (by decide)
    obtain ⟨j₀,hj₀,hne⟩ := hleft
    refine canReceive_eq_false_iff.mpr ⟨fun j hj => ?_,j₀,?_⟩
    · rcases eq_or_ne j i with rfl | hji
      · rw [EnaState.setSq_sq] at hj
        exact absurd ((usedRx_iff _).mp hj).1 (by simp)
      · rw [EnaState.setSq_sq_of_ne _ hji] at hj ⊢
        exact hempty j hj
    · rw [EnaState.setSq_sq_of_ne _ hne]
      exact hj₀

/-- The command destroys the queue, and no RX queue is left. -/
lemma enaAdminExec_destroysLastRx (h : enaAdminExec w cmd = .ok (status,resp,w'))
    (hcmd : DestroysLastRx w.dev cmd) :
    w'.trace = w.trace ∧ ∀ i, (w'.dev.sq i).usedRx = false := by
  obtain ⟨hop,hdir,i,hidx,hi,honly⟩ := hcmd
  obtain ⟨hu,hrx⟩ := (usedRx_iff _).mp hi
  have hdestroy : enaDestroySq w.dev cmd =
      (.success,noResp,w.dev.setSq i { w.dev.sq i with used := false }) := by
    have hlt : (le16At cmd 4).toNat < 16 := hidx ▸ i.isLt
    have hfin : (⟨(le16At cmd 4).toNat,hlt⟩ : SqIdx) = i := Fin.ext hidx
    unfold enaDestroySq
    dsimp only
    rw [dif_pos hlt,hfin,if_neg (by simp [hu,hrx,hdir])]
  have hw : w' = w.setDev (w.dev.setSq i { w.dev.sq i with used := false }) := by
    unfold enaAdminExec at h
    rw [hop] at h
    dsimp only at h
    rw [hdestroy] at h
    cases h
    rfl
  refine ⟨by rw [hw]; rfl,fun j => ?_⟩
  rw [← Bool.not_eq_true]
  intro hj
  rw [hw] at hj
  simp only [World.setDev,EnaState.setSq,Function.update_apply] at hj
  split_ifs at hj with hji
  · exact absurd ((usedRx_iff _).mp hj).1 (by simp)
  · exact hji (honly j hj)

lemma not_releases_destroy (h : enaAdminExec w cmd = .ok (status,resp,w'))
    (hcmd : DestroysLastRx w.dev cmd) (hno : enaRxCanReceive w.dev = false) : ¬ Releases w w' := by
  obtain ⟨htrace,hnone⟩ := enaAdminExec_destroysLastRx h hcmd
  intro hrel
  obtain ⟨w₁,he,es,hes⟩ := hrel hno (canReceive_iff.mpr (.inr hnone))
  have hlen := congrArg List.length (htrace.symm.trans (congrArg World.trace he))
  simp only [World.emit,hes,List.length_append,List.length_singleton] at hlen
  omega

/-- Without RX queues, reception stays possible until one is created. -/
lemma Tabled.usedRx (h : Tabled s cmd status resp s') (hnone : ∀ i, (s.sq i).usedRx = false) :
    (∀ i, (s'.sq i).usedRx = false) ∨ status = .success ∧
      Opcode.ofCode (u8At cmd 2) = some .createSq ∧
      (CreateSqCmd.ofBytes cmd).isTx = false ∧ enaRxCanReceive s' = false := by
  have hkeep : s'.sq = s.sq → ∀ i, (s'.sq i).usedRx = false :=
    fun hsq i => by rw [hsq]; exact hnone i
  cases h with
  | refused _ hsq => exact .inl (hkeep hsq)
  | other _ hsq => exact .inl (hkeep hsq)
  | createCq => exact .inl (hkeep rfl)
  | destroyCq => exact .inl (hkeep rfl)
  | createSq hop i hfree hq =>
    cases hrx : (CreateSqCmd.ofBytes cmd).isTx with
    | true =>
      refine .inl fun j => ?_
      rcases eq_or_ne j i with rfl | hji
      · rw [EnaState.setSq_sq,EnaSq.usedRx,CreateSqCmd.newSq,hrx]
        rfl
      · rw [EnaState.setSq_sq_of_ne _ hji]
        exact hnone j
    | false =>
      refine .inr ⟨rfl,hop,rfl,canReceive_eq_false_iff.mpr ⟨fun j hj => ?_,i,?_⟩⟩
      · rcases eq_or_ne j i with rfl | hji
        · rw [EnaState.setSq_sq,hq.head,hq.tail]
        · rw [EnaState.setSq_sq_of_ne _ hji,hnone j] at hj
          cases hj
      · rw [EnaState.setSq_sq,EnaSq.usedRx,CreateSqCmd.newSq,hrx]
        rfl
  | destroySq _ i =>
    refine .inl fun j => ?_
    rcases eq_or_ne j i with rfl | hji
    · rw [EnaState.setSq_sq]
      rfl
    · rw [EnaState.setSq_sq_of_ne _ hji]
      exact hnone j

/-- A successful creation of an RX queue leaves it empty. -/
lemma Tabled.created (h : Tabled s cmd .success resp s') (hnone : ∀ i, (s.sq i).usedRx = false)
    (hop : Opcode.ofCode (u8At cmd 2) = some .createSq)
    (hrx : (CreateSqCmd.ofBytes cmd).isTx = false) :
    enaRxCanReceive s' = false := by
  have hnew : ∃ i, (s'.sq i).usedRx = true := by
    cases h with
    | refused hne => exact absurd rfl hne
    | other hnot =>
      rw [hop] at hnot
      exact absurd hnot (by decide)
    | createCq hop' => exact absurd (hop.symm.trans hop') (by decide)
    | destroyCq hop' => exact absurd (hop.symm.trans hop') (by decide)
    | destroySq hop' => exact absurd (hop.symm.trans hop') (by decide)
    | createSq _ i =>
      refine ⟨i,?_⟩
      rw [EnaState.setSq_sq,EnaSq.usedRx,CreateSqCmd.newSq,hrx]
      rfl
  obtain ⟨i,hi⟩ := hnew
  rcases h.usedRx hnone with hstill | ⟨-,-,-,hno⟩
  · rw [hstill i] at hi
    cases hi
  · exact hno

section Batch
variable {r : AdminRings}

/-- One command of a batch, in a state without RX queues or with nothing posted: what reception
depends on. -/
lemma enaAdminStep_canReceive (hr : RingsOk r w.dev) (hstep : enaAdminStep r w = .ok w') :
    (enaRxCanReceive w.dev = false →
      (enaRxCanReceive w'.dev = false ∧ ¬ DestroysLastRx w.dev (w.aqCmd r)) ∨
        (∀ i, (w'.dev.sq i).usedRx = false) ∧ DestroysLastRx w.dev (w.aqCmd r)) ∧
    ((∀ i, (w.dev.sq i).usedRx = false) →
      (enaRxCanReceive w'.dev = false ∧ CreatesRx w.aqTaken (w.aqCmd r)) ∨
        (∀ i, (w'.dev.sq i).usedRx = false) ∧ ¬ CreatesRx w.aqTaken (w.aqCmd r)) := by
  obtain ⟨status,resp,w₁,hexec,rfl⟩ := AdminIter.exec ⟨hr,hstep⟩
  have htab := enaAdminExec_tabled hexec
  constructor
  · intro hno
    by_cases hcmd : DestroysLastRx w.dev (w.aqCmd r)
    · exact .inr ⟨(enaAdminExec_destroysLastRx hexec hcmd).2,hcmd⟩
    · have htaken : enaRxCanReceive w.aqTaken.dev = false := (canReceive_of_sq rfl).trans hno
      exact .inl ⟨(canReceive_of_sq rfl).trans (htab.canReceive htaken hcmd),hcmd⟩
  · intro hnone
    by_cases hcmd : CreatesRx w.aqTaken (w.aqCmd r)
    · obtain ⟨hop,hrx,resp',w₂,hexec'⟩ := id hcmd
      obtain ⟨rfl,rfl,rfl⟩ := Prod.mk.inj (Except.ok.inj (hexec.symm.trans hexec')) |>.imp_right
        Prod.mk.inj
      exact .inl ⟨(canReceive_of_sq rfl).trans (htab.created hnone hop hrx),hcmd⟩
    · rcases htab.usedRx hnone with hstill | ⟨rfl,hop,hrx,-⟩
      · exact .inr ⟨hstill,hcmd⟩
      · exact absurd ⟨hop,hrx,resp,w₁,hexec⟩ hcmd

/-- Along a batch that starts without posted descriptors, there are none or there is no RX queue;
the latter exactly if the last RX queue was destroyed and none was created since. -/
lemma enaAdminSteps_canReceive (hr : RingsOk r w.dev) (hno : enaRxCanReceive w.dev = false)
    (count : ℕ) (h : enaAdminSteps r count w = .ok w') :
    (enaRxCanReceive w'.dev = false ∧ ¬ EndsRx r w count) ∨
      (∀ i, (w'.dev.sq i).usedRx = false) ∧ EndsRx r w count := by
  induction count generalizing w' with
  | zero =>
    cases h
    exact .inl ⟨hno,fun ⟨_,hn,_⟩ => absurd hn (Nat.not_lt_zero _)⟩
  | succ count ih =>
    rw [enaAdminSteps_concat] at h
    obtain ⟨b,hb,hstep⟩ := bind_eq_ok.mp h
    obtain ⟨hempty,hnone⟩ := enaAdminStep_canReceive (enaAdminSteps_ringsOk hr hb) hstep
    -- what ended before the last command stays ended if that creates nothing
    have hprior : EndsRx r w (count+1) → ¬ DestroysLastRx b.dev (b.aqCmd r) →
        EndsRx r w count ∧ ¬ CreatesRx b.aqTaken (b.aqCmd r) := by
      rintro ⟨n,hn,b',hb',hd,hlater⟩ hlast
      have hlt : n < count := by
        refine lt_of_le_of_ne (Nat.lt_succ_iff.mp hn) ?_
        rintro rfl
        obtain rfl := Except.ok.inj (hb.symm.trans hb')
        exact hlast hd
      exact ⟨⟨n,hlt,b',hb',hd,fun m u hnm hm => hlater m u hnm (Nat.lt_succ_of_lt hm)⟩,
        hlater count b hlt (Nat.lt_succ_self _) hb⟩
    rcases ih hb with ⟨hbno,hends⟩ | ⟨hbnone,n,hn,b',hb',hd,hlater⟩
    · rcases hempty hbno with ⟨hno',hcmd⟩ | ⟨hnone',hcmd⟩
      · exact .inl ⟨hno',fun he => hends (hprior he hcmd).1⟩
      · refine .inr ⟨hnone',count,Nat.lt_succ_self _,b,hb,hcmd,fun m _ hm hm' => ?_⟩
        omega
    · rcases hnone hbnone with ⟨hno',hcreates⟩ | ⟨hnone',hcreates⟩
      · have hlast : ¬ DestroysLastRx b.dev (b.aqCmd r) := fun ⟨_,_,i,_,hi,_⟩ => by
          rw [hbnone i] at hi
          cases hi
        exact .inl ⟨hno',fun he => (hprior he hlast).2 hcreates⟩
      · refine .inr ⟨hnone',n,Nat.lt_succ_of_lt hn,b',hb',hd,fun m u hnm hm hu => ?_⟩
        rcases Nat.lt_succ_iff_lt_or_eq.mp hm with hlt | rfl
        · exact hlater m u hnm hlt hu
        · obtain rfl := Except.ok.inj (hb.symm.trans hu)
          exact hcreates

/-- The doorbell of the admin queue flushes nothing. -/
lemma not_releases_admin {val : UInt64} (h : step net w (.regWrite regAqDb val) = .ok w')
    (hno : enaRxCanReceive w.dev = false) (hyes : enaRxCanReceive w'.dev = true) :
    ¬ Releases w w' := by
  have hran : AdminRan (w.setDev (w.dev.setReg regAqDb val.toUInt32)) w' := enaAdminProcess_ran h
  have hquiet : ControlEvents (· ≠ .flushQueuedPackets) (.regWrite regAqDb val) :=
    ⟨fun _ _ _ _ _ _ => Event.noConfusion,fun _ _ _ _ => Event.noConfusion,
      fun _ => Event.noConfusion,fun _ _ _ _ => Event.noConfusion,fun _ => Event.noConfusion⟩
  obtain ⟨fs,hfs,hnot⟩ := hran.adds hquiet rfl fun _ _ => Event.noConfusion
  intro hrel
  obtain ⟨w₁,rfl,es,hes⟩ := hrel hno hyes
  have htrace : w.trace ++ (es ++ [.flushQueuedPackets]) = w.trace ++ fs := by
    rw [← List.append_assoc,← hes]
    exact hfs
  exact hnot .flushQueuedPackets (List.append_cancel_left htrace ▸ by simp) rfl

end Batch

/-- Held frames are released when reception becomes possible, exactly unless a reset or the end of
the last RX queue makes it possible. A doorbell of the admin queue executes a batch of commands, and
what counts is whether there is no RX queue any more at its end. -/
theorem held_frames_released_iff (h : Reachable net w) :
    (∀ inp w', (∀ val, inp ≠ .regWrite regAqDb val) → step net w inp = .ok w' →
      (Releases w w' ↔ ¬ (inp.Resets ∧ enaRxCanReceive w.dev = false))) ∧
    (∀ b cmd status resp w', enaAdminExec b cmd = .ok (status,resp,w') →
      (Releases b w' ↔ ¬ (DestroysLastRx b.dev cmd ∧ enaRxCanReceive b.dev = false))) ∧
    ∀ val w', step net w (.regWrite regAqDb val) = .ok w' →
      let rung := w.setDev (w.dev.setReg regAqDb val.toUInt32)
      (Releases w w' ↔
        ¬ (EndsRx w.dev.adminRings rung (aqBatch rung) ∧ enaRxCanReceive w.dev = false)) := by
  have hw := h.tables.1
  refine ⟨?_,?_,?_⟩
  · intro inp w' hadmin hs
    constructor
    · rintro hrel ⟨hreset,hno⟩
      exact not_releases_reset hs hreset hno hrel
    · intro hcond
      refine (step_acted hw hs).releases hadmin fun hreset => ?_
      by_contra hno
      exact hcond ⟨hreset,by simpa using hno⟩
  · intro b cmd status resp w' hexec
    constructor
    · rintro hrel ⟨hcmd,hno⟩
      exact not_releases_destroy hexec hcmd hno hrel
    · intro hcond hno hyes
      have hstays := (enaAdminExec_tabled hexec).canReceive hno fun hcmd => hcond ⟨hcmd,hno⟩
      rw [hstays] at hyes
      cases hyes
  · intro val w' hs rung
    obtain ⟨hrings,w₁,hsteps,hsq⟩ := enaAdminProcess_steps (w := rung) hs
    have hafter : enaRxCanReceive w'.dev = enaRxCanReceive w₁.dev := canReceive_of_sq hsq
    -- a batch without commands leaves the queues as they are
    have hbatch : enaRxCanReceive w.dev = false →
        (enaRxCanReceive w'.dev = false ∧ ¬ EndsRx w.dev.adminRings rung (aqBatch rung)) ∨
          enaRxCanReceive w'.dev = true ∧ EndsRx w.dev.adminRings rung (aqBatch rung) := by
      intro hno
      have hno' : enaRxCanReceive rung.dev = false := (canReceive_of_sq rfl).trans hno
      rcases Nat.eq_zero_or_pos (aqBatch rung) with hzero | hpos
      · rw [hzero] at hsteps ⊢
        cases hsteps
        exact .inl ⟨hafter.trans hno',fun ⟨_,hn,_⟩ => absurd hn (Nat.not_lt_zero _)⟩
      · rw [hafter]
        rcases enaAdminSteps_canReceive (hrings hpos) hno' _ hsteps with hstill | ⟨hnone,hends⟩
        · exact .inl hstill
        · exact .inr ⟨canReceive_iff.mpr (.inr hnone),hends⟩
    constructor
    · rintro hrel ⟨hends,hno⟩
      rcases hbatch hno with ⟨-,hnot⟩ | ⟨hyes,-⟩
      · exact hnot hends
      · exact not_releases_admin hs hno hyes hrel
    · intro hcond hno hyes
      rcases hbatch hno with ⟨hstill,-⟩ | ⟨-,hends⟩
      · rw [hstill] at hyes
        cases hyes
      · exact absurd ⟨hends,hno⟩ hcond

/-- A command that destroys RX queue 0. -/
def destroyRxCmd : Bytes := pad 64 ([0,0,2,0] ++ ofLe16 0 ++ [sqIdentityRx,0])

/-- The doorbell of an RX queue releases what was held. -/
theorem held_frames_released_doorbell :
    ∃ w w', run Net.nonIp freshWorld (driverSetup [createCqCmd,createSqCmd sqIdentityRx] []) =
      .ok w ∧
      step Net.nonIp w (.regWrite regSqDbBase 1) = .ok w' ∧ enaRxCanReceive w.dev = false ∧
      enaRxCanReceive w'.dev = true ∧ Releases w w' := by
  obtain ⟨w,hrun,htest⟩ := exists_of_okAnd
    (p := fun w : World => !enaRxCanReceive w.dev &&
      okAnd (fun w' : World => enaRxCanReceive w'.dev)
      (step Net.nonIp w (.regWrite regSqDbBase 1)))
    (x := run Net.nonIp freshWorld (driverSetup [createCqCmd,createSqCmd sqIdentityRx] []))
    (by decide +kernel)
  rw [Bool.and_eq_true,Bool.not_eq_true'] at htest
  obtain ⟨w',hstep,hyes⟩ := exists_of_okAnd htest.2
  obtain ⟨hsteps,-,-⟩ := held_frames_released_iff (reachable_of_run hrun)
  have hother : ∀ val, Input.regWrite regSqDbBase 1 ≠ .regWrite regAqDb val :=
    fun val he => absurd (Input.regWrite.inj he).1 (by decide)
  have hno : ¬ ((Input.regWrite regSqDbBase 1).Resets ∧ enaRxCanReceive w.dev = false) :=
    fun hc => absurd hc.1.1 (by decide)
  exact ⟨w,w',hrun,hstep,htest.1,hyes,(hsteps _ w' hother hstep).mpr hno⟩

/-- Destroying the only RX queue, or resetting the device, makes reception possible without a
flush. -/
theorem held_frames_not_released :
    ∃ w resp w₁ w₂, Reachable Net.nonIp w ∧ enaRxCanReceive w.dev = false ∧
      enaAdminExec w destroyRxCmd = .ok (.success,resp,w₁) ∧ enaRxCanReceive w₁.dev = true ∧
      ¬ Releases w w₁ ∧
      step Net.nonIp w .qdevReset = .ok w₂ ∧ enaRxCanReceive w₂.dev = true ∧ ¬ Releases w w₂ := by
  obtain ⟨w,hrun,htest⟩ := exists_of_okAnd
    (p := fun w : World => !enaRxCanReceive w.dev &&
      decide ((w.dev.sq 0).usedRx = true ∧ ∀ j, (w.dev.sq j).usedRx = true → j = 0) &&
      okAnd (fun r : AdminStatus × Bytes × World =>
        decide (r.1 = .success) && enaRxCanReceive r.2.2.dev)
        (enaAdminExec w destroyRxCmd))
    (x := run Net.nonIp freshWorld (driverSetup [createCqCmd,createSqCmd sqIdentityRx] []))
    (by decide +kernel)
  rw [Bool.and_eq_true,Bool.and_eq_true,Bool.not_eq_true',decide_eq_true_iff] at htest
  obtain ⟨⟨hno,hone⟩,hexec⟩ := htest
  obtain ⟨⟨status,resp,w₁⟩,hexec,hafter⟩ := exists_of_okAnd hexec
  rw [Bool.and_eq_true,decide_eq_true_iff] at hafter
  obtain ⟨rfl,hyes⟩ := hafter
  have hreset : ¬ Releases w (enaDevReset w) :=
    not_releases_reset (show step Net.nonIp w .qdevReset = .ok (enaDevReset w) from rfl) trivial hno
  refine ⟨w,resp,w₁,enaDevReset w,reachable_of_run hrun,hno,hexec,hyes,
    not_releases_destroy hexec ⟨by decide,by decide,0,by decide,hone⟩ hno,rfl,devReset_canReceive _,
    hreset⟩

end
end EnaDevice
