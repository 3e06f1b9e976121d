import EnaDevice.Driver.Bringup

/-! Admin commands as remote calls: `ena_admin_cmd` returns what executing the command in the device
gives, and none of its assertions can fail, however many commands came before. -/
namespace EnaDevice.Driver
open Bytes Result PhaseRing

section One
variable {r : AdminRings} {w : World}

/-- The world after the one command of a doorbell was completed, and with the interrupt for it. -/
def World.settled (w : World) (r : AdminRings) (cmd : Bytes) (status : AdminStatus) (resp : Bytes) :
    World :=
  let w := (w.emit (.adminExec cmd status.code)).acqPushed r cmd status resp
  w.setDev (w.dev.setReg regAcqTail w.dev.acqTail.toUInt32)

def World.oneDone (w : World) (r : AdminRings) (cmd : Bytes) (status : AdminStatus) (resp : Bytes) :
    World :=
  enaAdminIntr (World.settled w r cmd status resp)

/-- A doorbell for a single command. -/
lemma enaAdminProcess_one (hr : r.Ok) (hrings : w.dev.adminRings = r)
    (htail : (w.dev.getReg regAqDb).toUInt16 = w.dev.aqHead + 1) :
    enaAdminProcess w = enaAdminExec w.aqTaken (w.aqCmd r) >>= fun x =>
      .ok (World.oneDone x.2.2 r (w.aqCmd r) x.1 x.2.1) := by
  have hok := hr.ringsOk hrings
  have hone : (w.dev.aqHead + 1 - w.dev.aqHead).toNat = 1 := by
    rw [show w.dev.aqHead + 1 - w.dev.aqHead = 1 by grind]
    rfl
  have hpos := Counter.depth_pos hr.aqDepth
  have hne : w.dev.aqHead ≠ w.dev.aqHead + 1 := by
    intro he
    rw [← he] at hone
    simp at hone
  have hstep : enaAdminStep r w = enaAdminExec w.aqTaken (w.aqCmd r) >>= fun x =>
      .ok ((x.2.2.emit (.adminExec (w.aqCmd r) x.1.code)).acqPushed r (w.aqCmd r) x.1 x.2.1) := by
    unfold enaAdminStep
    rw [modDepth_of_ne_zero hok.aqDepth,ok_bind]
    refine bind_congr_ok fun x _ => ?_
    exact enaAcqPush_eq _ _ _ _ hok.acqDepth
  unfold enaAdminProcess
  rw [hrings,htail]
  dsimp only
  rw [if_neg (by simp [hr.aqBase,hr.acqBase,hok.aqDepth,hok.acqDepth]),if_neg (by
    rw [gt_iff_lt,UInt16.not_lt,UInt16.le_iff_toNat_le,hone]
    exact hpos),hone,enaAdminLoop,if_neg hne,hstep]
  cases hex : enaAdminExec w.aqTaken (w.aqCmd r) with
  | error f => rfl
  | ok x =>
    obtain ⟨status,resp,w₁⟩ := x
    have hsame := ((enaAdminExec_spec w.aqTaken (w.aqCmd r)).of_ok hex).sameAdmin
    have hhead : w₁.dev.aqHead = w.dev.aqHead + 1 := hsame.aqHead
    simp only [ok_bind]
    rw [enaAdminLoop,if_pos (by exact hhead),pure_eq_ok,ok_bind,if_pos hne]
    rfl

end One

/-- The command as it goes into the AQ. -/
def Session.entry (s : Session) (cmd : Bytes) : Bytes :=
  aqEntry (s.d.aqTail % enaTestAqDepth) ((s.d.aqTail/enaTestAqDepth) &&& 1 = 0) cmd

/-- The world in which the device executes it. -/
def Session.called (s : Session) (cmd : Bytes) : World :=
  { s.w with
    mem := s.w.mem.write (s.d.aq + (s.d.aqTail % enaTestAqDepth).toUInt64*64) (s.entry cmd)
    dev := { s.w.dev.setReg regAqDb (s.d.aqTail + 1).toUInt32 with aqHead := s.w.dev.aqHead + 1 } }

/-- Its completion. -/
def Session.completion (s : Session) (status : AdminStatus) (resp : Bytes) : Bytes :=
  acqEntry (s.d.aqTail % enaTestAqDepth) status s.w.dev.acqPhase (s.w.dev.aqHead + 1) resp

/-- The session when `ena_admin_cmd` returns. -/
def Session.returned (s : Session) (cmd : Bytes) (status : AdminStatus) (resp : Bytes) (w : World) :
    Session where
  d := { s.d with
    aqTail := s.d.aqTail + 1
    acqHead := s.d.acqHead + 1
    acqPhase := if (s.d.acqHead + 1) % enaTestAqDepth = 0 then !s.d.acqPhase else s.d.acqPhase }
  w := World.oneDone w (rings s.d) (s.entry cmd) status resp

lemma entry_opcode (s : Session) (cmd : Bytes) : u8At (s.entry cmd) 2 = u8At cmd 2 := rfl

/-- Only a command that reports a feature has the device write to a buffer. -/
lemma ctrlClear_entry {cmd : Bytes} (h : Opcode.ofCode (u8At cmd 2) ≠ some .getFeature)
    (r : AdminRings) (s : Session) : CtrlClear r (s.entry cmd) := by
  intro hop
  rw [entry_opcode] at hop
  exact absurd hop h

/-- Driver and device agree on the commands so far, and none is under way. -/
structure Ready (s : Session) (log : List (Bytes × UInt8)) : Prop where
  ok : (rings s.d).Ok
  core : ∃ posted comps, AdminCore (rings s.d) s.w posted log comps ∧ posted.length = log.length ∧
    ∀ cmd ∈ posted, CtrlClear (rings s.d) cmd
  aqTail : s.d.aqTail = UInt16.ofNat log.length
  acqHead : At 32 s.d.acqHead s.d.acqPhase log.length

lemma aqEntry_length (cmdId : UInt16) (phase : Bool) {cmd : Bytes} (h : cmd.length ≤ 64) :
    (aqEntry cmdId phase cmd).length = 64 := by
  simp [aqEntry,pad_length 64 cmd h]

lemma aqEntry_id (cmdId : UInt16) (phase : Bool) (cmd : Bytes) :
    le16At (aqEntry cmdId phase cmd) 0 = cmdId := by
  rw [aqEntry,List.append_assoc,le16At_ofLe16]

section Call
variable {s : Session} {log : List (Bytes × UInt8)} {cmd : Bytes}

/-- The exchange with the command in its slot. -/
lemma Ready.posted (h : Ready s log) (hcmd : cmd.length ≤ 64)
    (hctrl : CtrlClear (rings s.d) (s.entry cmd)) :
    ∃ posted comps, AdminCore (rings s.d) { s.w with mem := (s.called cmd).mem }
      (posted ++ [s.entry cmd]) log
      comps ∧ posted.length = log.length ∧
      ∀ c ∈ posted ++ [s.entry cmd], CtrlClear (rings s.d) c := by
  obtain ⟨posted,comps,hcore,hlen,hclear⟩ := h.core
  have hworld : ({ s.w with mem := (s.called cmd).mem } : World) =
      s.w.aqPosted (rings s.d) posted.length (s.entry cmd) := by
    rw [World.aqPosted,← slot_index h.ok.aqDepth (hlen ▸ h.aqTail)]
    rfl
  refine ⟨posted,comps,?_,hlen,?_⟩
  · rw [hworld]
    apply hcore.post h.ok (aqEntry_length _ _ hcmd) hlen.ge
    rw [hlen]
    exact Nat.lt_add_of_pos_right (Counter.depth_pos h.ok.aqDepth)
  · intro c hc
    rcases List.mem_append.mp hc with hold | hnew
    · exact hclear c hold
    · rwa [List.mem_singleton.mp hnew]

lemma Ready.aqHead (h : Ready s log) : s.w.dev.aqHead = s.d.aqTail := by
  obtain ⟨posted,comps,hcore,-,-⟩ := h.core
  exact hcore.aqHead.trans h.aqTail.symm

lemma Ready.acqTail (h : Ready s log) : s.w.dev.acqTail = s.d.acqHead ∧
    s.w.dev.acqPhase = s.d.acqPhase := by
  obtain ⟨posted,comps,hcore,-,-⟩ := h.core
  have hacq := hcore.acq
  rw [hcore.length] at hacq
  exact ⟨hacq.idx.trans h.acqHead.idx.symm,hacq.phase.trans h.acqHead.phase.symm⟩

/-- The doorbell of a call executes the one command. -/
lemma Ready.doorbell (h : Ready s log) (net : Net) (hcmd : cmd.length ≤ 64)
    (hctrl : CtrlClear (rings s.d) (s.entry cmd)) :
    step net { s.w with mem := (s.called cmd).mem }
      (.regWrite regAqDb (s.d.aqTail + 1).toUInt32.toUInt64) =
      enaAdminExec (s.called cmd) (s.entry cmd) >>= fun x =>
        .ok (World.oneDone x.2.2 (rings s.d) (s.entry cmd) x.1 x.2.1) := by
  obtain ⟨posted,comps,hcore,hlen,-⟩ := h.posted hcmd hctrl
  have hdb := hcore.idle h.ok (setReg_aqDb_idle _ (s.d.aqTail + 1).toUInt32)
  have hnext := hdb.aqCmd h.ok (by rw [List.length_append,hlen]; exact Nat.lt_succ_self _)
  rw [← hlen,List.getElem?_concat_length,Option.some_inj] at hnext
  rw [step_aqDb,UInt32.toUInt32_toUInt64,enaAdminProcess_one h.ok hdb.rings,← hnext]
  · rfl
  · have hval : ((s.w.dev.setReg regAqDb (s.d.aqTail + 1).toUInt32).getReg regAqDb).toUInt16 =
        s.d.aqTail + 1 := by
      rw [EnaState.getReg_setReg,UInt16.toUInt16_toUInt32]
    exact hval.trans (congrArg (· + 1) h.aqHead.symm)

/-- What the device did in between: one command, with its status. -/
lemma Ready.newExecs (h : Ready s log) (hctrl : CtrlClear (rings s.d) (s.entry cmd))
    {status : AdminStatus} {resp : Bytes} {w : World}
    (hex : enaAdminExec (s.called cmd) (s.entry cmd) = .ok (status,resp,w)) :
    EnaDevice.newExecs { s.w with mem := (s.called cmd).mem }
      (World.oneDone w (rings s.d) (s.entry cmd) status resp) = [(s.entry cmd,status.code)] := by
  obtain ⟨posted,comps,hcore,-,-⟩ := h.core
  have hexec := (enaAdminExec_spec (s.called cmd) (s.entry cmd)).of_ok hex
  obtain ⟨es,htrace,hes⟩ := (hexec.undisturbed hctrl hcore.aenq).execs
  obtain ⟨fs,hintr,hfs⟩ := newExecs_adminIntr
    (World.settled w (rings s.d) (s.entry cmd) status resp)
  have hsettled : (World.settled w (rings s.d) (s.entry cmd) status resp).trace =
      w.trace ++ [.adminExec (s.entry cmd) status.code] ++ [.dmaWrite .acq _ _ _] := rfl
  have hall := hintr.trans (congrArg (· ++ fs) (hsettled.trans (by rw [htrace])))
  simp only [List.append_assoc] at hall
  refine (newExecs_of_trace hall).trans ?_
  rw [List.filterMap_append,hes,List.filterMap_append,List.filterMap_append,hfs]
  rfl

/-- What executing the command leaves of the exchange: the next slot of the ACQ holds its
completion, and driver and device are ready for the next command. -/
lemma Ready.executed (h : Ready s log) (net : Net) (hcmd : cmd.length ≤ 64)
    (hctrl : CtrlClear (rings s.d) (s.entry cmd)) {status : AdminStatus} {resp : Bytes} {w : World}
    (hex : enaAdminExec (s.called cmd) (s.entry cmd) = .ok (status,resp,w)) :
    Ready (s.returned cmd status resp w) (log ++ [(s.entry cmd,status.code)]) := by
  obtain ⟨posted,comps,hcore,hlen,hclear⟩ := h.posted hcmd hctrl
  have hstep := h.doorbell net hcmd hctrl
  rw [hex,ok_bind] at hstep
  have hdepth : (posted ++ [s.entry cmd]).length = log.length + 1 := by
    rw [List.length_append,hlen]
    rfl
  have hnext : s.d.aqTail + 1 = UInt16.ofNat (log.length + 1) := by
    rw [h.aqTail,UInt16.ofNat_add]
    rfl
  have hval : (s.d.aqTail + 1).toUInt32.toUInt64.toUInt32.toUInt16 =
      UInt16.ofNat (log.length + 1) := by
    rw [UInt32.toUInt32_toUInt64,UInt16.toUInt16_toUInt32,hnext]
  obtain ⟨ps,-,hcore',-⟩ := hcore.doorbell h.ok hclear (Nat.le_succ _) hdepth.ge
    (Nat.add_le_add_left (Counter.depth_pos h.ok.aqDepth) _) hval hstep
  rw [h.newExecs hctrl hex] at hcore'
  refine ⟨h.ok,⟨_,_,hcore',?_,hclear⟩,?_,?_⟩
  · rw [hdepth,List.length_append]
    rfl
  · rw [List.length_append]
    exact hnext
  · rw [List.length_append]
    have hsucc := At.succ (d := enaTestAqDepth) ⟨5,rfl⟩ h.acqHead
    simp only [← Counter.mod_eq_zero_iff] at hsucc
    exact hsucc

/-- The completion is where the driver looks for it. -/
lemma Ready.completed (h : Ready s log) {status : AdminStatus} {resp : Bytes}
    {w : World} (hex : enaAdminExec (s.called cmd) (s.entry cmd) = .ok (status,resp,w)) :
    (World.oneDone w (rings s.d) (s.entry cmd) status resp).mem.bytesAt
      (s.d.acq + (s.d.acqHead % enaTestAqDepth).toUInt64*64) 64 = s.completion status resp := by
  have hexec := (enaAdminExec_spec (s.called cmd) (s.entry cmd)).of_ok hex
  have hsame := hexec.sameAdmin
  have htail : w.dev.acqTail = s.d.acqHead := hsame.acqTail.trans h.acqTail.1
  have hphase : w.dev.acqPhase = s.w.dev.acqPhase := hsame.acqPhase
  have hhead : w.dev.aqHead = s.w.dev.aqHead + 1 := hsame.aqHead
  have hmem : (World.settled w (rings s.d) (s.entry cmd) status resp).mem =
      w.mem.write (s.d.acq + (w.dev.acqTail % enaTestAqDepth).toUInt64*64)
        (acqEntry (le16At (s.entry cmd) 0) status w.dev.acqPhase w.dev.aqHead resp) := rfl
  have hlen : (s.completion status resp).length = 64 := acqEntry_length _ _ _ _ hexec.resp_length
  rw [World.oneDone,dev_adminIntr_mem,hmem,htail,hphase,hhead,Session.entry,aqEntry_id,
    ← Session.completion,← hlen]
  exact Memory.bytesAt_write_self _ _ (by rw [hlen]; norm_num)

/-- The wait for a completion that is there already. -/
lemma enaAdminAwait_eq (q : Qtest) {t : Session} {comp : Bytes} {cmdId : UInt16}
    (hlook : t.w.mem.bytesAt (t.d.acq + (t.d.acqHead % enaTestAqDepth).toUInt64*64) 64 = comp)
    (hphase : phaseBit comp = t.d.acqPhase) (hid : le16At comp 0 &&& 0xfff = cmdId) (respLen : ℕ) :
    enaAdminAwait q t cmdId respLen = .ok (u8At comp 2,comp.take respLen,
      { t with d := { t.d with
        acqHead := t.d.acqHead + 1
        acqPhase :=
          if (t.d.acqHead + 1) % enaTestAqDepth = 0 then !t.d.acqPhase else t.d.acqPhase } }) := by
  have hfound : (u8At comp 3 &&& 1 != 0) = t.d.acqPhase := hphase
  unfold enaAdminAwait
  rw [pollLoop_found q 1000 (by
    rw [qtestMemread,hlook]
    exact decide_eq_true hfound),ok_bind]
  dsimp only
  rw [qtestMemread,hlook,decide_eq_true hfound,gAssert_true,ok_bind,decide_eq_true hid,gAssert_true,
    ok_bind]
  rfl

/-- A command id survives the mask of its field. -/
lemma cmdId_masked (tail : UInt16) : tail % enaTestAqDepth &&& 0xfff = tail % enaTestAqDepth := by
  apply UInt16.toNat_inj.mp
  have hlt : (tail % enaTestAqDepth).toNat < 2^12 := by
    rw [UInt16.toNat_mod]
    exact (Nat.mod_lt _ (by decide)).trans (by decide)
  rw [UInt16.toNat_and]
  exact (Nat.and_two_pow_sub_one_eq_mod _ 12).trans (Nat.mod_eq_of_lt hlt)

/-- A call returns what executing its command gives; if the device aborts, so does the test. -/
lemma Ready.call (h : Ready s log) (q : Qtest) (hcmd : cmd.length ≤ 64)
    (hctrl : CtrlClear (rings s.d) (s.entry cmd)) {respLen : ℕ} (hresp : respLen ≤ 64) :
    (∀ f, enaAdminExec (s.called cmd) (s.entry cmd) = .error f →
      enaAdminCmd q s cmd respLen = .error (.device f)) ∧
    ∀ status resp w, enaAdminExec (s.called cmd) (s.entry cmd) = .ok (status,resp,w) →
      enaAdminCmd q s cmd respLen =
        .ok (status.code,(s.completion status resp).take respLen,s.returned cmd status resp w) := by
  have hdb := h.doorbell q.net hcmd hctrl
  have hstart : enaAdminCmd q s cmd respLen = (Session.stepped
      ⟨{ s.d with aqTail := s.d.aqTail + 1 },{ s.w with mem := (s.called cmd).mem }⟩
      (enaAdminExec (s.called cmd) (s.entry cmd) >>= fun x =>
        .ok (World.oneDone x.2.2 (rings s.d) (s.entry cmd) x.1 x.2.1)) >>= fun t =>
      enaAdminAwait q t (s.d.aqTail % enaTestAqDepth) respLen) := by
    rw [← hdb]
    unfold enaAdminCmd
    dsimp only
    rw [decide_eq_true hcmd,gAssert_true,ok_bind,decide_eq_true hresp,gAssert_true,ok_bind]
    rfl
  refine ⟨fun f hf => ?_,fun status resp w hw => ?_⟩
  · rw [hstart,hf]
    rfl
  · rw [hstart,hw,ok_bind]
    change enaAdminAwait q _ _ _ = _
    rw [enaAdminAwait_eq q (h.completed hw)]
    · rfl
    · exact (acqEntry_phase _ _ _ _ _).trans h.acqTail.2
    · have hid : le16At (s.completion status resp) 0 = s.d.aqTail % enaTestAqDepth &&& 0xfff :=
        le16At_ofLe16 _ _
      rw [hid,cmdId_masked,cmdId_masked]

end Call
lemma Ready.of_start {s : Session}
    (h : AdminChannel.Start (rings s.d) ⟨s.w,⟨s.d.acqHead,s.d.acqPhase⟩,[],0,[],[]⟩)
    (htail : s.d.aqTail = 0) :
    Ready s [] := by
  have hinv := h.inv
  obtain ⟨comps,hcore,-,-⟩ := hinv.core
  exact ⟨h.ok,⟨[],comps,hcore,rfl,hinv.ctrl⟩,htail,hinv.head⟩

/-- The part of the driver that admin commands use is the same. -/
structure SameAdminDriver (d d' : QEna) : Prop where
  aq : d'.aq = d.aq
  acq : d'.acq = d.acq
  aqTail : d'.aqTail = d.aqTail
  acqHead : d'.acqHead = d.acqHead
  acqPhase : d'.acqPhase = d.acqPhase

lemma Ready.idle {s s' : Session} {log : List (Bytes × UInt8)} (h : Ready s log)
    (hd : SameAdminDriver s.d s'.d) (hw : Idle (rings s.d) s.w s'.w) : Ready s' log := by
  have hrings : rings s'.d = rings s.d := by rw [rings,rings,hd.aq,hd.acq]
  obtain ⟨posted,comps,hcore,hlen,hclear⟩ := h.core
  refine ⟨?_,⟨posted,comps,?_,hlen,?_⟩,hd.aqTail.trans h.aqTail,?_⟩
  · rw [hrings]
    exact h.ok
  · rw [hrings]
    exact hcore.idle h.ok hw
  · rw [hrings]
    exact hclear
  · rw [hd.acqHead,hd.acqPhase]
    exact h.acqHead

/-- Sessions after bring-up: calls that returned, with the commands and statuses so far, and between
them anything that leaves the admin queue alone. -/
inductive Calls (q : Qtest) : Session → List (Bytes × UInt8) → Prop
  | bringup {s s' : Session} {aq acq aenq : UInt64} (hresp : s.d.mmioResp ≠ 0)
    (halloc : Allocated s.w.mem aq acq aenq) (h : enaBringup q s aq acq aenq = .ok s') :
    Calls q s' []
  | call {s s' : Session} {log : List (Bytes × UInt8)} {cmd resp : Bytes} {respLen : ℕ}
    {status : UInt8} (h : Calls q s log) (hctrl : CtrlClear (rings s.d) (s.entry cmd))
    (hc : enaAdminCmd q s cmd respLen = .ok (status,resp,s')) :
    Calls q s' (log ++ [(s.entry cmd,status)])
  | other {s s' : Session} {log : List (Bytes × UInt8)} (h : Calls q s log)
    (hd : SameAdminDriver s.d s'.d) (hw : Idle (rings s.d) s.w s'.w) : Calls q s' log

/-- A call that returned had sizes within the records of the queues. -/
lemma sizes_of_ok {q : Qtest} {s : Session} {cmd : Bytes} {respLen : ℕ}
    {x : UInt8 × Bytes × Session} (h : enaAdminCmd q s cmd respLen = .ok x) : cmd.length ≤ 64 ∧
    respLen ≤ 64 := by
  unfold enaAdminCmd at h
  obtain ⟨_,hcmd,h⟩ := bind_eq_ok.mp h
  obtain ⟨_,hresp,-⟩ := bind_eq_ok.mp h
  exact ⟨of_decide_eq_true (eq_true_of_gAssert hcmd),of_decide_eq_true (eq_true_of_gAssert hresp)⟩

lemma Calls.ready {q : Qtest} {s : Session} {log : List (Bytes × UInt8)} (h : Calls q s log) :
    Ready s log := by
  induction h with
  | bringup hresp halloc h =>
    obtain ⟨s₁,hbring,halloc₁,-⟩ := enaBringup_eq q hresp halloc
    cases h.symm.trans hbring
    exact .of_start (broughtUp_adminStart halloc₁) rfl
  | @call s s' log cmd resp respLen status h hctrl hc ih =>
    obtain ⟨hcmd,hresp⟩ := sizes_of_ok hc
    obtain ⟨herr,hret⟩ := ih.call q hcmd hctrl hresp
    cases hex : enaAdminExec (s.called cmd) (s.entry cmd) with
    | error f =>
      rw [herr f hex] at hc
      cases hc
    | ok x =>
      obtain ⟨st,rs,w⟩ := x
      rw [hret st rs w hex] at hc
      cases hc
      exact ih.executed q.net hcmd hctrl hex
  | other h hd hw ih => exact ih.idle hd hw

/-- In every session after bring-up a call returns what executing its command gives, after exactly
that one execution, and aborts only where the device ends the emulation on purpose. -/
theorem admin_call_executes (q : Qtest) {s : Session} {log : List (Bytes × UInt8)}
    (h : Calls q s log) {cmd : Bytes} (hcmd : cmd.length ≤ 64)
    (hctrl : CtrlClear (rings s.d) (s.entry cmd)) {respLen : ℕ} (hresp : respLen ≤ 64) :
    (∀ f, enaAdminExec (s.called cmd) (s.entry cmd) = .error f →
      f.Deliberate ∧ enaAdminCmd q s cmd respLen = .error (.device f)) ∧
    ∀ status resp w, enaAdminExec (s.called cmd) (s.entry cmd) = .ok (status,resp,w) →
      enaAdminCmd q s cmd respLen =
        .ok (status.code,(s.completion status resp).take respLen,s.returned cmd status resp w) ∧
      newExecs { s.w with mem := (s.called cmd).mem } (s.returned cmd status resp w).w =
        [(s.entry cmd,status.code)] := by
  obtain ⟨herr,hret⟩ := h.ready.call q hcmd hctrl hresp
  refine ⟨fun f hf => ⟨?_,herr f hf⟩,fun status resp w hw => ⟨hret status resp w hw,?_⟩⟩
  · exact (enaAdminExec_spec _ _).of_error hf
  · exact h.ready.newExecs hctrl hw

/-- Any number of calls that create CQs, as long as there are any left and after that. -/
lemma exists_createCqCalls (n : ℕ) : ∃ s log, Calls plainQtest s log ∧ log.length = n := by
  induction n with
  | zero =>
    obtain ⟨s₁,hbring,-⟩ := enaBringup_eq plainQtest (s := ⟨newDriver,freshWorld⟩)
      (by decide) allocated_fresh
    exact ⟨_,[],.bringup (by decide) allocated_fresh hbring,rfl⟩
  | succ n ih =>
    obtain ⟨s,log,hcalls,hlen⟩ := ih
    have hctrl : CtrlClear (rings s.d) (s.entry createCqCmd) :=
      ctrlClear_entry (by decide : Opcode.ofCode (u8At createCqCmd 2) ≠ some .getFeature) _ _
    have hcall := (hcalls.ready.call plainQtest (by decide : createCqCmd.length ≤ 64) hctrl
      (le_refl 64)).2 _ _ _ rfl
    refine ⟨_,_,hcalls.call hctrl hcall,?_⟩
    rw [List.length_append,hlen]
    rfl

/-- The 41st call, past the end of the admin rings. -/
theorem admin_call_executes_wrapped :
    ∃ s log status resp w, Calls plainQtest s log ∧ log.length = 40 ∧
      enaAdminExec (s.called createCqCmd) (s.entry createCqCmd) = .ok (status,resp,w) ∧
      enaAdminCmd plainQtest s createCqCmd 64 =
        .ok (status.code,(s.completion status resp).take 64,s.returned createCqCmd status resp w) ∧
      newExecs { s.w with mem := (s.called createCqCmd).mem }
        (s.returned createCqCmd status resp w).w =
        [(s.entry createCqCmd,status.code)] := by
  obtain ⟨s,log,hcalls,hlen⟩ := exists_createCqCalls 40
  have hcmd : createCqCmd.length ≤ 64 := by decide
  have hop : Opcode.ofCode (u8At createCqCmd 2) ≠ some .getFeature := by decide
  have hexec := (admin_call_executes plainQtest hcalls hcmd (ctrlClear_entry hop _ _)
    (le_refl 64)).2 _ _ _ rfl
  exact ⟨s,log,_,_,_,hcalls,hlen,rfl,hexec⟩

end EnaDevice.Driver
