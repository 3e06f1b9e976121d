import EnaDevice.Invariant.Safety
import EnaDevice.Lib.PhaseRing

/-! The admin queue between driver and device: commands are executed once and in order, and the
driver reads their completions in the same order, found by phase bit. -/
namespace EnaDevice
open Bytes Result PhaseRing

/-- A command that was executed, with its status code. -/
def Event.exec : Event → Option (Bytes × UInt8)
  | .adminExec cmd status => some (cmd,status)
  | _ => none

/-- What a step of the device executed. -/
def newExecs (w w' : World) : List (Bytes × UInt8) :=
  (w'.trace.drop w.trace.length).filterMap Event.exec

lemma newExecs_of_trace {w w' : World} {es : List Event} (h : w'.trace = w.trace ++ es) :
    newExecs w w' = es.filterMap Event.exec := by rw [newExecs,h,List.drop_left]

namespace AdminRings

def aqBytes (r : AdminRings) : ℕ := r.aqDepth.toNat*64
def acqBytes (r : AdminRings) : ℕ := r.acqDepth.toNat*64

/-- A region that neither of the two rings overlaps. -/
def Clear (r : AdminRings) (addr : UInt64) (len : ℕ) : Prop :=
  Apart r.aqBase r.aqBytes addr len ∧ Apart r.acqBase r.acqBytes addr len

lemma Clear.mono {r : AdminRings} {a b : UInt64} {n m : ℕ} (h : r.Clear b m) (hw : Within a n b m) :
    r.Clear a n := ⟨h.1.mono (fun _ hx => hx) hw,h.2.mono (fun _ hx => hx) hw⟩

/-- Two rings of power-of-two depths that do not overlap. -/
structure Ok (r : AdminRings) : Prop where
  aqBase : r.aqBase ≠ 0
  acqBase : r.acqBase ≠ 0
  aqDepth : r.aqDepth.toNat.isPowerOfTwo
  acqDepth : r.acqDepth.toNat.isPowerOfTwo
  apart : Apart r.aqBase r.aqBytes r.acqBase r.acqBytes

lemma Ok.aqBytes_le {r : AdminRings} (_ : r.Ok) : r.aqDepth.toNat*64 ≤ 2^64 := by
  have hlt := r.aqDepth.toNat_lt
  omega

lemma Ok.acqBytes_le {r : AdminRings} (_ : r.Ok) : r.acqDepth.toNat*64 ≤ 2^64 := by
  have hlt := r.acqDepth.toNat_lt
  omega

lemma Ok.ringsOk {r : AdminRings} (h : r.Ok) {s : EnaState} (hs : s.adminRings = r) :
    RingsOk r s where
  eq := hs
  acqBase := h.acqBase
  aqDepth hz := by
    have hp := Counter.depth_pos h.aqDepth
    rw [hz] at hp
    exact absurd hp (by decide)
  acqDepth hz := by
    have hp := Counter.depth_pos h.acqDepth
    rw [hz] at hp
    exact absurd hp (by decide)

end AdminRings

/-- The control buffer that a command may have filled does not overlap the rings. -/
def CtrlClear (r : AdminRings) (cmd : Bytes) : Prop :=
  Opcode.ofCode (u8At cmd 2) = some .getFeature → r.Clear (enaMemAddr cmd 8) (le32At cmd 4).toNat

/-- Neither does the AENQ, if there is one. -/
def AenqClear (r : AdminRings) (s : EnaState) : Prop :=
  s.aenqBase ≠ 0 → r.Clear s.aenqBase ((s.capsDepth regAenqCaps).toNat*64)

/-- The address of a slot that a 16-bit index gives. -/
lemma slot_index {d idx : UInt16} {n : ℕ} (hd : d.toNat.isPowerOfTwo) (h : idx = UInt16.ofNat n) :
    (idx % d).toUInt64*64 = UInt64.ofNat (n % d.toNat*64) := by
  have hlt := Nat.mod_lt n (Counter.depth_pos hd)
  have hmax := d.toNat_lt
  have hslot : (idx % d).toNat = n % d.toNat := by
    rw [UInt16.toNat_mod,h,UInt16.toNat_ofNat']
    exact Counter.wrap_mod hd n
  apply UInt64.toNat_inj.mp
  rw [UInt64.toNat_mul,UInt16.toNat_toUInt64,hslot,UInt64.toNat_ofNat']
  rfl

/-- The slots of the two rings hold the same, and the AQ can be read as before. -/
structure SameRings (r : AdminRings) (m m' : Memory) : Prop where
  aq : ∀ k < r.aqDepth.toNat, m'.slot r.aqBase 64 k = m.slot r.aqBase 64 k
  acq : ∀ k < r.acqDepth.toNat, m'.slot r.acqBase 64 k = m.slot r.acqBase 64 k
  readable : m.ringOk r.aqBase 64 r.aqDepth.toNat → m'.ringOk r.aqBase 64 r.aqDepth.toNat

namespace SameRings
variable {r : AdminRings} {m m' m'' : Memory}

lemma refl (m : Memory) : SameRings r m m := ⟨fun _ _ => rfl,fun _ _ => rfl,id⟩

lemma write (m : Memory) {addr : UInt64} {data : Bytes} (h : r.Clear addr data.length) :
    SameRings r m (m.write addr data) :=
  ⟨fun _ hk => m.slot_write_of_apart h.1 hk,fun _ hk => m.slot_write_of_apart h.2 hk,id⟩

end SameRings

section Exec
variable {r : AdminRings} {w w' : World} {cmd : Bytes}

lemma aenqSlot_within (s : EnaState) (h : s.capsDepth regAenqCaps ≠ 0) :
    Within s.aenqSlot 64 s.aenqBase ((s.capsDepth regAenqCaps).toNat*64) := by
  have hpos : 0 < (s.capsDepth regAenqCaps).toNat :=
    Nat.pos_of_ne_zero fun hz => h (UInt16.toNat_inj.mp hz)
  have hlt := Nat.mod_lt s.aenqTail.toNat hpos
  have hmax := (s.capsDepth regAenqCaps).toNat_lt
  apply within_add
  rw [UInt64.toNat_mul,UInt16.toNat_toUInt64,UInt16.toNat_mod]
  change _ % (s.capsDepth regAenqCaps).toNat*64 % 2^64 + 64 ≤ _
  omega

lemma dev_adminIntr_mem (w : World) : (enaAdminIntr w).mem = w.mem := by
  unfold enaAdminIntr
  split_ifs <;> rfl

lemma newExecs_adminIntr (w : World) : ∃ es, (enaAdminIntr w).trace = w.trace ++ es ∧
    es.filterMap Event.exec = [] := by
  unfold enaAdminIntr
  split_ifs
  · exact ⟨[],by simp,rfl⟩
  · exact ⟨[.msixNotify 0],rfl,rfl⟩

/-- What executing a command leaves alone: the rings and the record of executed commands. -/
structure Undisturbed (r : AdminRings) (w w' : World) : Prop where
  rings : SameRings r w.mem w'.mem
  execs : ∃ es, w'.trace = w.trace ++ es ∧ es.filterMap Event.exec = []

lemma Undisturbed.of_same (hm : w'.mem = w.mem) (ht : w'.trace = w.trace) : Undisturbed r w w' :=
  ⟨by rw [hm]; exact .refl _,[],by rw [ht,List.append_nil],rfl⟩

lemma AenqPosted.undisturbed (h : AenqPosted w w') (hclear : AenqClear r w.dev) :
    Undisturbed r w w' := by
  cases h with
  | skipped => exact .of_same rfl rfl
  | posted entry hlen hbase hdepth =>
    obtain ⟨es,he,hes⟩ := newExecs_adminIntr ((enaDmaWrite w .aenq w.dev.aenqSlot entry).setDev
      w.dev.aenqAdvance)
    refine ⟨?_,_::es,he.trans (List.append_assoc _ _ _),hes⟩
    rw [dev_adminIntr_mem]
    exact .write w.mem ((hclear hbase).mono (by rw [hlen]; exact aenqSlot_within w.dev hdepth))

theorem Executed.undisturbed {status : AdminStatus} {resp : Bytes}
    (h : Executed w cmd (status,resp,w')) (hctrl : CtrlClear r cmd)
    (haenq : AenqClear r w.dev) : Undisturbed r w w' := by
  cases h with
  | ctrlReported _ data _ hop _ hlen =>
    exact ⟨.write w.mem ((hctrl hop).mono (within_of_le _ hlen)),[_],rfl,rfl⟩
  | aenqConfig groups hc =>
    obtain ⟨w₁,timer,hpost,rfl⟩ := hc
    have hkeep := hpost.undisturbed haenq
    exact ⟨hkeep.rings,hkeep.execs⟩
  | refused => exact .of_same rfl rfl
  | queues => exact .of_same rfl rfl
  | reported => exact .of_same rfl rfl
  | hostAttrRefused => exact .of_same rfl rfl
  | hostAttr => exact .of_same rfl rfl
  | mtu => exact .of_same rfl rfl
  | llq => exact .of_same rfl rfl
  | rss => exact .of_same rfl rfl

end Exec

/-- A completion belongs to a command: it carries its id and status, and its number as SQ head. -/
structure CompletesCmd (e : Bytes) (c : Bytes × UInt8) (k : ℕ) : Prop where
  commandId : le16At e 0 = le16At c.1 0 &&& 0xfff
  status : u8At e 2 = c.2
  sqHead : le16At e 6 = UInt16.ofNat k

/-- The device's side: the commands still to be executed are in the AQ, and the ACQ holds the last
lap of completions of those in the log. -/
structure AdminCore (r : AdminRings) (w : World) (posted : List Bytes) (log : List (Bytes × UInt8))
    (comps : List Bytes) : Prop where
  rings : w.dev.adminRings = r
  aqHead : w.dev.aqHead = UInt16.ofNat log.length
  acq : At r.acqDepth.toNat w.dev.acqTail w.dev.acqPhase comps.length
  readable : w.mem.ringOk r.aqBase 64 r.aqDepth.toNat
  cmds : ∀ j cmd, posted[j]? = some cmd → log.length ≤ j →
    w.mem.slot r.aqBase 64 (j % r.aqDepth.toNat) = cmd
  contents : Contents r.acqDepth.toNat phaseBit (w.mem.slot r.acqBase 64) comps
  length : comps.length = log.length
  entries : ∀ j e, comps[j]? = some e → ∃ c, log[j]? = some c ∧ CompletesCmd e c (j+1)
  order : log.map Prod.fst = posted.take log.length
  aenq : AenqClear r w.dev

section Entry
variable (cmdId : UInt16) (status : AdminStatus) (phase : Bool) (sqHead : UInt16) (resp : Bytes)

lemma acqEntry_phase : phaseBit (acqEntry cmdId status phase sqHead resp) = phase := by
  have hbyte : u8At (acqEntry cmdId status phase sqHead resp) 3 = if phase then 1 else 0 := rfl
  rw [phaseBit,hbyte]
  cases phase <;> rfl

lemma acqEntry_completes (cmd : Bytes) (k : ℕ) :
    CompletesCmd (acqEntry (le16At cmd 0) status phase (UInt16.ofNat k) resp) (cmd,status.code) k :=
  ⟨le16At_ofLe16 _ [],rfl,le16At_ofLe16 _ []⟩

end Entry

lemma SameAdmin.aenq {s s' : EnaState} (h : SameAdmin s s') :
    s'.aenqBase = s.aenqBase ∧ s'.capsDepth regAenqCaps = s.capsDepth regAenqCaps := by
  have hlo := h.reg (Fin.ofNat 28 (regAenqBaseLo/4)) (by decide)
  have hhi := h.reg (Fin.ofNat 28 (regAenqBaseHi/4)) (by decide)
  have hcaps := h.reg (Fin.ofNat 28 (regAenqCaps/4)) (by decide)
  simp only [EnaState.aenqBase, EnaState.regPair, EnaState.capsDepth, EnaState.getReg, hlo, hhi,
    hcaps,and_self]

lemma AenqClear.of_same {r : AdminRings} {s s' : EnaState} (h : AenqClear r s)
    (hs : SameAdmin s s') :
    AenqClear r s' := by
  unfold AenqClear
  rw [hs.aenq.1,hs.aenq.2]
  exact h

lemma getElem?_concat_cases {α : Type} {l : List α} {a b : α} {j : ℕ}
    (h : (l ++ [a])[j]? = some b) :
    l[j]? = some b ∨ (j = l.length ∧ b = a) := by
  rcases Nat.lt_trichotomy j l.length with hlt | rfl | hgt
  · rw [List.getElem?_append_left hlt] at h
    exact .inl h
  · rw [List.getElem?_concat_length] at h
    exact .inr ⟨rfl,(Option.some_inj.mp h).symm⟩
  · rw [List.getElem?_eq_none (by simpa using hgt)] at h
    cases h

section Step
variable {r : AdminRings} {w w' : World} {posted : List Bytes} {log : List (Bytes × UInt8)}
  {comps : List Bytes}

/-- The command that the device fetches next is the next one that was posted. -/
lemma AdminCore.aqCmd (h : AdminCore r w posted log comps) (hr : r.Ok)
    (hmore : log.length < posted.length) : posted[log.length]? = some (w.aqCmd r) := by
  have hslot := Nat.mod_lt log.length (Counter.depth_pos hr.aqDepth)
  have hcmd := h.cmds log.length _ (List.getElem?_eq_getElem hmore) le_rfl
  rw [List.getElem?_eq_getElem hmore,← hcmd,World.aqCmd,enaDmaRead,slot_index hr.aqDepth h.aqHead,
    Memory.read_slot h.readable hslot]

/-- One command: executed, logged and completed. -/
theorem AdminCore.step (h : AdminCore r w posted log comps) (hr : r.Ok)
    (hmore : log.length < posted.length) (hctrl : ∀ cmd ∈ posted, CtrlClear r cmd)
    (hs : AdminStepped r w w') :
    ∃ c e, AdminCore r w' posted (log ++ [c]) (comps ++ [e]) ∧
      ∃ es, w'.trace = w.trace ++ es ∧ es.filterMap Event.exec = [c] := by
  have hnext := h.aqCmd hr hmore
  obtain @⟨status,resp,w₁,hex⟩ := hs
  have hmem := hctrl _ (List.mem_of_getElem? hnext)
  have haenq : AenqClear r w.aqTaken.dev := h.aenq
  have hkeep := hex.undisturbed hmem haenq
  have hsame := hex.sameAdmin
  obtain ⟨es,htrace,hes⟩ := hkeep.execs
  have hacq : At r.acqDepth.toNat w₁.dev.acqTail w₁.dev.acqPhase comps.length := by
    have ht : w₁.dev.acqTail = w.dev.acqTail := hsame.acqTail
    have hp : w₁.dev.acqPhase = w.dev.acqPhase := hsame.acqPhase
    rw [ht,hp]
    exact h.acq
  have hhead : w₁.dev.aqHead = UInt16.ofNat (log.length+1) := by
    have ha : w₁.dev.aqHead = w.dev.aqHead + 1 := hsame.aqHead
    rw [ha,h.aqHead,UInt16.ofNat_add]
    rfl
  have hslot := Nat.mod_lt comps.length (Counter.depth_pos hr.acqDepth)
  have hlen := acqEntry_length (le16At (w.aqCmd r) 0) status w₁.dev.acqPhase w₁.dev.aqHead
    hex.resp_length
  -- the completion goes to the next slot of the ACQ
  have hwrite : ((w₁.emit (.adminExec (w.aqCmd r) status.code)).acqPushed r
    (w.aqCmd r) status resp).mem =
      w₁.mem.write (r.acqBase + UInt64.ofNat (comps.length % r.acqDepth.toNat*64))
        (acqEntry (le16At (w.aqCmd r) 0) status w₁.dev.acqPhase w₁.dev.aqHead resp) := by
    rw [← slot_index hr.acqDepth hacq.idx]
    rfl
  have hlog : ((w₁.emit (.adminExec (w.aqCmd r) status.code)).acqPushed r (w.aqCmd r) status
      resp).trace = (w₁.trace ++ [.adminExec (w.aqCmd r) status.code]) ++ [.dmaWrite .acq _ _ _] :=
        rfl
  rw [htrace,List.append_assoc,List.append_assoc] at hlog
  refine ⟨(w.aqCmd r,status.code),
    acqEntry (le16At (w.aqCmd r) 0) status w₁.dev.acqPhase w₁.dev.aqHead resp,
    ⟨?_,?_,?_,?_,?_,?_,?_,?_,?_,?_⟩,_,hlog,?_⟩
  · exact hsame.adminRings.trans h.rings
  · rw [List.length_append,List.length_singleton]
    exact hhead
  · rw [List.length_append,List.length_singleton]
    have hsucc := hacq.succ hr.acqDepth
    simp only [← Counter.mod_eq_zero_iff] at hsucc
    exact hsucc
  · rw [hwrite]
    exact hkeep.rings.readable h.readable
  · intro j cmd hj hle
    rw [List.length_append,List.length_singleton] at hle
    have hk := Nat.mod_lt j (Counter.depth_pos hr.aqDepth)
    have hfar : Apart r.aqBase (r.aqDepth.toNat*64)
        (r.acqBase + UInt64.ofNat (comps.length % r.acqDepth.toNat*64))
        (acqEntry (le16At (w.aqCmd r) 0) status w₁.dev.acqPhase w₁.dev.aqHead resp).length := by
      rw [hlen]
      exact hr.apart.mono (fun _ hx => hx) (Memory.slot_within _ hslot)
    rw [hwrite,Memory.slot_write_of_apart _ hfar hk,hkeep.rings.aq _ hk]
    exact h.cmds j cmd hj (by omega)
  · rw [hwrite]
    refine Contents.push (h.contents.congr (Counter.depth_pos hr.acqDepth) hkeep.rings.acq)
      (Counter.depth_pos hr.acqDepth) ?_ ?_ ?_
    · rw [acqEntry_phase]
      exact hacq.phase
    · exact Memory.slot_write_self _ _ hlen (by norm_num)
    · intro k hk hne
      exact Memory.slot_write_of_ne _ _ hlen hr.acqBytes_le hk hslot hne
  · rw [List.length_append,List.length_append,h.length]
    rfl
  · intro j e hj
    rcases getElem?_concat_cases hj with hold | ⟨rfl,rfl⟩
    · obtain ⟨c,hc,hcomp⟩ := h.entries j e hold
      have hlt := (List.getElem?_eq_some_iff.mp hc).1
      exact ⟨c,by rw [List.getElem?_append_left hlt,hc],hcomp⟩
    · refine ⟨_,by rw [h.length,List.getElem?_concat_length],?_⟩
      rw [h.length,hhead]
      exact acqEntry_completes _ _ _ _ _
  · rw [List.map_append,h.order,List.length_append,List.length_singleton,List.take_add_one,hnext]
    rfl
  · have hclear : AenqClear r w₁.dev := haenq.of_same hsame
    exact hclear
  · rw [List.filterMap_append,hes]
    rfl

/-- What else leaves the exchange as it is. -/
structure Idle (r : AdminRings) (w w' : World) : Prop where
  rings : w'.dev.adminRings = w.dev.adminRings
  aqHead : w'.dev.aqHead = w.dev.aqHead
  acqTail : w'.dev.acqTail = w.dev.acqTail
  acqPhase : w'.dev.acqPhase = w.dev.acqPhase
  same : SameRings r w.mem w'.mem
  aenq : AenqClear r w.dev → AenqClear r w'.dev

lemma AdminCore.idle (h : AdminCore r w posted log comps) (hr : r.Ok) (hi : Idle r w w') :
    AdminCore r w' posted log comps where
  rings := hi.rings.trans h.rings
  aqHead := hi.aqHead.trans h.aqHead
  acq := by
    rw [hi.acqTail,hi.acqPhase]
    exact h.acq
  readable := hi.same.readable h.readable
  cmds j cmd hj hle := by
    rw [hi.same.aq _ (Nat.mod_lt j (Counter.depth_pos hr.aqDepth))]
    exact h.cmds j cmd hj hle
  contents := h.contents.congr (Counter.depth_pos hr.acqDepth) hi.same.acq
  length := h.length
  entries := h.entries
  order := h.order
  aenq := hi.aenq h.aenq

/-- A batch of commands, one after the other. -/
theorem AdminCore.loop {tail : UInt16} (n : ℕ) (h : AdminCore r w posted log comps) (hr : r.Ok)
    (hctrl : ∀ cmd ∈ posted, CtrlClear r cmd) (hn : (tail - w.dev.aqHead).toNat = n)
    (hmore : log.length + n ≤ posted.length) (hrun : enaAdminLoop r tail n w = .ok w') :
    ∃ cs ps, cs.length = n ∧ AdminCore r w' posted (log ++ cs) (comps ++ ps) ∧
      ∃ es, w'.trace = w.trace ++ es ∧ es.filterMap Event.exec = cs := by
  induction n generalizing w log comps with
  | zero =>
    rw [enaAdminLoop,if_pos ((Counter.sub_toNat_eq_zero_iff _ _).mp hn)] at hrun
    cases hrun
    exact ⟨[],[],rfl,by simpa using h,[],by simp,rfl⟩
  | succ n ih =>
    have hne : w.dev.aqHead ≠ tail := fun he => by
      rw [← Counter.sub_toNat_eq_zero_iff] at he
      omega
    rw [enaAdminLoop,if_neg hne] at hrun
    obtain ⟨w₁,h₁,hrest⟩ := bind_eq_ok.mp hrun
    have hstep := (enaAdminStep_spec (hr.ringsOk h.rings)).of_ok h₁
    obtain ⟨c,e,hcore,es,he,hes⟩ := h.step hr (by omega) hctrl hstep
    have hdist : (tail - w₁.dev.aqHead).toNat = n := by
      have hsub := Counter.sub_add_toNat tail w.dev.aqHead 1 (by omega)
      rw [hstep.aqHead]
      exact hsub.trans (by omega)
    obtain ⟨cs,ps,hlen,hcore',es',he',hes'⟩ := ih hcore hdist
      (by rw [List.length_append,List.length_singleton]; omega) hrest
    refine ⟨c::cs,e::ps,by rw [List.length_cons,hlen],?_,es ++ es',?_,?_⟩
    · simpa using hcore'
    · rw [he',he,List.append_assoc]
    · rw [List.filterMap_append,hes,hes']
      rfl

lemma adminIntr_idle (w : World) (hw : w'.mem = w.mem) (hdev : w'.dev = w.dev) : Idle r w w' := by
  refine ⟨?_,?_,?_,?_,by rw [hw]; exact .refl _,?_⟩ <;> rw [hdev]
  exact id

/-- `ACQ_TAIL` is no part of what the rings are read from. -/
lemma setReg_acqTail_idle (w : World) (val : UInt32) :
    Idle r w (w.setDev (w.dev.setReg regAcqTail val)) :=
  ⟨rfl,rfl,rfl,rfl,.refl _,id⟩

/-- Nor is `AQ_DB`. -/
lemma setReg_aqDb_idle (w : World) (val : UInt32) :
    Idle r w (w.setDev (w.dev.setReg regAqDb val)) :=
  ⟨rfl,rfl,rfl,rfl,.refl _,id⟩

/-- An AQ doorbell stores its value and processes the queue. -/
lemma step_aqDb (net : Net) (w : World) (val : UInt64) : step net w (.regWrite regAqDb val) =
    enaAdminProcess (w.setDev (w.dev.setReg regAqDb val.toUInt32)) := rfl

/-- A doorbell for all commands up to the `m`-th. -/
theorem AdminCore.doorbell {net : Net} {val : UInt64} {m : ℕ} (h : AdminCore r w posted log comps)
    (hr : r.Ok) (hctrl : ∀ cmd ∈ posted, CtrlClear r cmd) (hm : log.length ≤ m)
    (hm' : m ≤ posted.length) (hdepth : m ≤ log.length + r.aqDepth.toNat)
    (hval : val.toUInt32.toUInt16 = UInt16.ofNat m)
    (hrun : EnaDevice.step net w (.regWrite regAqDb val) = .ok w') :
    ∃ ps, (newExecs w w').length = m - log.length ∧
      AdminCore r w' posted (log ++ newExecs w w') (comps ++ ps) ∧
      w'.dev.getReg regAcqTail = (UInt16.ofNat m).toUInt32 := by
  have hdb := h.idle hr (setReg_aqDb_idle w val.toUInt32)
  rw [step_aqDb] at hrun
  generalize hw₀ : w.setDev (w.dev.setReg regAqDb val.toUInt32) = w₀ at hrun hdb
  have htrace₀ : w₀.trace = w.trace := by rw [← hw₀]; rfl
  have htail : (w₀.dev.getReg regAqDb).toUInt16 = UInt16.ofNat m := by
    rw [← hw₀]
    change ((w.dev.setReg regAqDb val.toUInt32).getReg regAqDb).toUInt16 = _
    rw [EnaState.getReg_setReg,hval]
  have hdist : (UInt16.ofNat m - w₀.dev.aqHead).toNat = m - log.length := by
    have hlt := r.aqDepth.toNat_lt
    have hpow := Counter.exists_laps hr.aqDepth
    rw [hdb.aqHead,Counter.ofNat_sub_toNat hm (by omega)]
  have hrings := hr.ringsOk hdb.rings
  unfold enaAdminProcess at hrun
  rw [hdb.rings,htail] at hrun
  rw [if_neg (by simp [hr.aqBase,hr.acqBase,hrings.aqDepth,hrings.acqDepth]),if_neg (by
    rw [gt_iff_lt,UInt16.not_lt,UInt16.le_iff_toNat_le,hdist]
    omega)] at hrun
  obtain ⟨w₁,h₁,hrest⟩ := bind_eq_ok.mp hrun
  obtain ⟨cs,ps,hlen,hcore,es,he,hes⟩ := hdb.loop _ hr hctrl rfl (by omega) h₁
  have hnum : (log ++ cs).length = m := by
    rw [List.length_append,hlen,hdist]
    omega
  -- what follows the loop is the register and perhaps the interrupt
  generalize hw₂ : w₁.setDev (w₁.dev.setReg regAcqTail w₁.dev.acqTail.toUInt32) = w₂ at hrest
  have hcore₂ := hcore.idle hr (setReg_acqTail_idle w₁ w₁.dev.acqTail.toUInt32)
  rw [hw₂] at hcore₂
  have hreg : w₂.dev.getReg regAcqTail = (UInt16.ofNat m).toUInt32 := by
    rw [← hw₂]
    change (w₁.dev.setReg regAcqTail w₁.dev.acqTail.toUInt32).getReg regAcqTail = _
    rw [EnaState.getReg_setReg,hcore.acq.idx,hcore.length,hnum]
  have hfinal : w'.mem = w₂.mem ∧ w'.dev = w₂.dev ∧ ∃ es', w'.trace = w₂.trace ++ es' ∧
      es'.filterMap Event.exec = [] := by
    dsimp only at hrest
    split_ifs at hrest
    · cases hrest
      exact ⟨dev_adminIntr_mem w₂,dev_adminIntr w₂,newExecs_adminIntr w₂⟩
    · cases hrest
      exact ⟨rfl,rfl,[],by simp,rfl⟩
  obtain ⟨hmem,hdev,es',he',hes'⟩ := hfinal
  have htrace : w'.trace = w.trace ++ (es ++ es') := by
    rw [he',← hw₂,← List.append_assoc,← htrace₀,← he]
    rfl
  have hnew : newExecs w w' = cs := by
    rw [newExecs_of_trace htrace,List.filterMap_append,hes,hes',List.append_nil]
  rw [hnew]
  refine ⟨ps,by rw [hlen,hdist],hcore₂.idle hr (adminIntr_idle w₂ hmem hdev),?_⟩
  rw [hdev]
  exact hreg

/-- A doorbell further ahead than the AQ is deep only leaves its value in the register. -/
lemma step_aqDb_ignored (net : Net) {val : UInt64}
    (hval : w.dev.capsDepth regAqCaps < val.toUInt32.toUInt16 - w.dev.aqHead) :
    EnaDevice.step net w (.regWrite regAqDb val) =
      .ok (w.setDev (w.dev.setReg regAqDb val.toUInt32)) := by
  rw [step_aqDb]
  unfold enaAdminProcess
  have hrings : (w.setDev (w.dev.setReg regAqDb val.toUInt32)).dev.adminRings = w.dev.adminRings :=
    rfl
  have htail : ((w.setDev (w.dev.setReg regAqDb val.toUInt32)).dev.getReg regAqDb) = val.toUInt32 :=
    EnaState.getReg_setReg _ _ _
  rw [hrings,htail]
  have hfar : val.toUInt32.toUInt16 - (w.setDev (w.dev.setReg regAqDb val.toUInt32)).dev.aqHead >
      w.dev.adminRings.aqDepth := hval
  dsimp only
  rw [if_pos hfar]
  split_ifs <;> rfl

/-- The next doorbell finds everything as if the ignored one had not been rung. -/
lemma step_aqDb_again (net : Net) (w : World) (val : UInt32) (val' : UInt64) :
    EnaDevice.step net (w.setDev (w.dev.setReg regAqDb val)) (.regWrite regAqDb val') =
      EnaDevice.step net w (.regWrite regAqDb val') := by
  rw [step_aqDb,step_aqDb]
  congr 1
  simp only [World.setDev, EnaState.setReg, Function.update_idem]

end Step

/-- A poll as `ena_admin_cmd` does it: the entry at the head of the ACQ, if it is new. -/
def acqPoll (m : Memory) (r : AdminRings) (d : RingDriver) : Option (Bytes × RingDriver) :=
  let entry := m.bytesAt (r.acqBase + (d.head % r.acqDepth).toUInt64*64) 64
  if phaseBit entry = d.phase then
    some (entry,⟨d.head + 1,if (d.head + 1) % r.acqDepth = 0 then !d.phase else d.phase⟩)
  else none

/-- The driver writes its `n`-th command to the AQ. -/
def World.aqPosted (w : World) (r : AdminRings) (n : ℕ) (cmd : Bytes) : World :=
  { w with mem := w.mem.write (r.aqBase + UInt64.ofNat (n % r.aqDepth.toNat*64)) cmd }

/-- A new command goes to a slot that no command waits in. -/
lemma AdminCore.post {r : AdminRings} {w : World} {posted comps : List Bytes}
    {log : List (Bytes × UInt8)} {cmd : Bytes} (h : AdminCore r w posted log comps) (hr : r.Ok)
    (hlen : cmd.length = 64) (hlog : log.length ≤ posted.length)
    (haq : posted.length < log.length + r.aqDepth.toNat) :
    AdminCore r (w.aqPosted r posted.length cmd) (posted ++ [cmd]) log comps := by
  have hpos := Counter.depth_pos hr.aqDepth
  have hslot := Nat.mod_lt posted.length hpos
  refine ⟨h.rings,h.aqHead,h.acq,h.readable,?_,?_,h.length,h.entries,?_,h.aenq⟩
  · intro j e hj hle
    rcases getElem?_concat_cases hj with hold | ⟨rfl,rfl⟩
    · have hlt := (List.getElem?_eq_some_iff.mp hold).1
      -- less than a lap apart, so in different slots
      have hne : j % r.aqDepth.toNat ≠ posted.length % r.aqDepth.toNat := by
        intro hmod
        have hdvd := (Nat.modEq_iff_dvd' hlt.le).mp hmod
        have hlap := Nat.le_of_dvd (by omega) hdvd
        omega
      rw [World.aqPosted,Memory.slot_write_of_ne _ _ hlen hr.aqBytes_le
        (Nat.mod_lt j hpos) hslot hne]
      exact h.cmds j e hold hle
    · exact Memory.slot_write_self _ _ hlen (by norm_num)
  · refine h.contents.congr (Counter.depth_pos hr.acqDepth) fun k hk => ?_
    refine Memory.slot_write_of_apart _ ?_ hk
    rw [hlen]
    exact hr.apart.symm.mono (fun _ hx => hx) (Memory.slot_within _ hslot)
  · rw [List.take_append_of_le_length hlog]
    exact h.order

/-- A device and a driver at the admin queue: the commands posted, how many of them were announced
by doorbells, the commands executed with their status, and the completions read. -/
structure AdminChannel where
  w : World
  driver : RingDriver
  posted : List Bytes
  announced : ℕ
  executed : List (Bytes × UInt8)
  polled : List Bytes

namespace AdminChannel

/-- The rings are programmed, the ACQ has no phase bit set, the AQ can be read. -/
structure Start (r : AdminRings) (s : AdminChannel) : Prop where
  ok : r.Ok
  rings : s.w.dev.adminRings = r
  aqHead : s.w.dev.aqHead = 0
  acqTail : s.w.dev.acqTail = 0
  acqPhase : s.w.dev.acqPhase = true
  acqTailReg : s.w.dev.getReg regAcqTail = 0
  clear : ∀ k < r.acqDepth.toNat, phaseBit (s.w.mem.slot r.acqBase 64 k) = false
  readable : s.w.mem.ringOk r.aqBase 64 r.aqDepth.toNat
  aenq : AenqClear r s.w.dev
  driver : s.driver = ⟨0,true⟩
  posted : s.posted = []
  announced : s.announced = 0
  executed : s.executed = []
  polled : s.polled = []

inductive Step (net : Net) (r : AdminRings) (s : AdminChannel) : AdminChannel → Prop
  /-- The driver writes a command, while the AQ has room and the ACQ will have. -/
  | post {cmd : Bytes} (hlen : cmd.length = 64) (hctrl : CtrlClear r cmd)
    (haq : s.posted.length < s.executed.length + r.aqDepth.toNat)
    (hacq : s.posted.length < s.polled.length + r.acqDepth.toNat) :
    Step net r s { s with
      w := s.w.aqPosted r s.posted.length cmd, posted := s.posted ++ [cmd] }
  /-- A doorbell for any number of the posted commands. -/
  | doorbell {val : UInt64} {m : ℕ} {w' : World} (hm : s.announced ≤ m) (hm' : m ≤ s.posted.length)
    (hval : val.toUInt32.toUInt16 = UInt16.ofNat m)
    (h : step net s.w (.regWrite regAqDb val) = .ok w') :
    Step net r s { s with
      w := w', announced := m, executed := s.executed ++ newExecs s.w w' }
  /-- A doorbell past the depth of the AQ. -/
  | wildDoorbell {val : UInt64} {w' : World}
    (hval : r.aqDepth < val.toUInt32.toUInt16 - s.w.dev.aqHead)
    (h : step net s.w (.regWrite regAqDb val) = .ok w') :
    Step net r s { s with w := w', executed := s.executed ++ newExecs s.w w' }
  | poll {entry : Bytes} {d : RingDriver} (h : acqPoll s.w.mem r s.driver = some (entry,d)) :
    Step net r s { s with driver := d, polled := s.polled ++ [entry] }
  /-- Anything else that leaves the admin queue alone. -/
  | other {w' : World} (h : Idle r s.w w')
    (hreg : w'.dev.getReg regAcqTail = s.w.dev.getReg regAcqTail) : Step net r s { s with w := w' }

inductive Run (net : Net) (r : AdminRings) : AdminChannel → Prop
  | start {s : AdminChannel} (h : Start r s) : Run net r s
  | step {s s' : AdminChannel} (h : Run net r s) (hs : Step net r s s') : Run net r s'

/-- Both sides of the exchange. -/
structure Inv (r : AdminRings) (s : AdminChannel) : Prop where
  ok : r.Ok
  core : ∃ comps, AdminCore r s.w s.posted s.executed comps ∧
    s.polled = comps.take s.polled.length ∧ s.polled.length ≤ comps.length
  head : At r.acqDepth.toNat s.driver.head s.driver.phase s.polled.length
  ctrl : ∀ cmd ∈ s.posted, CtrlClear r cmd
  announced : s.announced = s.executed.length
  executed : s.executed.length ≤ s.posted.length
  aqRoom : s.posted.length ≤ s.executed.length + r.aqDepth.toNat
  acqRoom : s.posted.length ≤ s.polled.length + r.acqDepth.toNat
  acqTailReg : s.w.dev.getReg regAcqTail = (UInt16.ofNat s.executed.length).toUInt32

variable {net : Net} {r : AdminRings} {s s' : AdminChannel}

lemma Start.inv (h : Start r s) : Inv r s := by
  have hpos := Counter.depth_pos h.ok.acqDepth
  refine ⟨h.ok,⟨[],⟨h.rings,?_,?_,h.readable,?_,.empty h.clear,?_,?_,?_,h.aenq⟩,?_,?_⟩,?_,?_,?_,?_,
    ?_,?_,?_⟩ <;> simp only [h.posted, h.announced, h.executed, h.polled, h.driver, h.aqHead,
      h.acqTail,h.acqPhase, h.acqTailReg]
  · rfl
  · exact At.zero _ hpos
  · intro j cmd hj
    simp at hj
  · rfl
  · intro j e hj
    simp at hj
  · rfl
  · rfl
  · exact le_rfl
  · exact At.zero _ hpos
  · intro cmd hm
    simp at hm
  · rfl
  · exact le_rfl
  · exact Nat.zero_le _
  · exact Nat.zero_le _
  · rfl

/-- A poll reads the next completion, or finds that all were read. -/
lemma Inv.poll_iff (h : Inv r s) {comps : List Bytes}
    (hcore : AdminCore r s.w s.posted s.executed comps) (hle : s.polled.length ≤ comps.length) :
    (acqPoll s.w.mem r s.driver = none ↔ s.polled.length = comps.length) ∧
      ∀ entry d, acqPoll s.w.mem r s.driver = some (entry,d) →
        comps[s.polled.length]? = some entry ∧
          At r.acqDepth.toNat d.head d.phase (s.polled.length+1) := by
  have hroom : comps.length ≤ s.polled.length + r.acqDepth.toNat := by
    have hexec := h.executed
    have hacq := h.acqRoom
    rw [hcore.length]
    omega
  have hslot : s.w.mem.bytesAt (r.acqBase + (s.driver.head % r.acqDepth).toUInt64*64) 64 =
      s.w.mem.slot r.acqBase 64 (s.polled.length % r.acqDepth.toNat) := by
    rw [slot_index h.ok.acqDepth h.head.idx]
    rfl
  unfold acqPoll
  dsimp only
  rw [hslot]
  obtain ⟨hnone,hsome⟩ := hcore.contents.poll_iff
    (Counter.depth_pos h.ok.acqDepth) hle hroom h.head.phase
  refine ⟨hnone.trans eq_comm,fun entry d he => ?_⟩
  obtain ⟨hread,rfl⟩ := hsome entry d he
  have hsucc := h.head.succ h.ok.acqDepth
  simp only [← Counter.mod_eq_zero_iff] at hsucc
  exact ⟨hread,hsucc⟩

theorem Step.inv (hs : Step net r s s') (h : Inv r s) : Inv r s' := by
  obtain ⟨comps,hcore,hpolled,hle⟩ := h.core
  have hexec := h.executed
  have haqRoom := h.aqRoom
  cases hs with
  | @post cmd hlen hctrl haq hacq =>
    refine ⟨h.ok,⟨comps,hcore.post h.ok hlen h.executed haq,hpolled,hle⟩,h.head,?_,h.announced,?_,
      ?_,?_,h.acqTailReg⟩
    · intro e he
      rcases List.mem_append.mp he with hm | hm
      · exact h.ctrl e hm
      · rwa [List.mem_singleton.mp hm]
    all_goals
      rw [List.length_append,List.length_singleton]
      dsimp only
      omega
  | @doorbell val m w' hm hm' hval hstep =>
    rw [h.announced] at hm
    obtain ⟨ps,hlen,hcore',hreg⟩ := hcore.doorbell h.ok h.ctrl hm hm' (by omega) hval hstep
    have hnum : (s.executed ++ newExecs s.w w').length = m := by
      rw [List.length_append,hlen]
      omega
    refine ⟨h.ok,⟨comps ++ ps,hcore',?_,?_⟩,h.head,h.ctrl,hnum.symm,?_,?_,h.acqRoom,?_⟩
    · rw [List.take_append_of_le_length hle]
      exact hpolled
    · rw [List.length_append]
      exact hle.trans (Nat.le_add_right _ _)
    · rw [hnum]
      exact hm'
    · rw [hnum]
      dsimp only
      omega
    · rw [hnum]
      exact hreg
  | @wildDoorbell val w' hval hstep =>
    have hdepth : s.w.dev.capsDepth regAqCaps = r.aqDepth := congrArg AdminRings.aqDepth hcore.rings
    rw [step_aqDb_ignored net (by rw [hdepth]; exact hval)] at hstep
    cases hstep
    have htrace : (s.w.setDev (s.w.dev.setReg regAqDb val.toUInt32)).trace = s.w.trace ++ [] :=
      (List.append_nil _).symm
    have hnone : newExecs s.w (s.w.setDev (s.w.dev.setReg regAqDb val.toUInt32)) = [] :=
      newExecs_of_trace htrace
    rw [hnone,List.append_nil]
    exact ⟨h.ok,⟨comps,hcore.idle h.ok (setReg_aqDb_idle _ _),hpolled,hle⟩,h.head,h.ctrl,
      h.announced,h.executed,h.aqRoom,h.acqRoom,h.acqTailReg⟩
  | @poll entry d hp =>
    obtain ⟨hnext,hat⟩ := (h.poll_iff hcore hle).2 entry d hp
    have hlt := (List.getElem?_eq_some_iff.mp hnext).1
    refine ⟨h.ok,⟨comps,hcore,?_,?_⟩,?_,h.ctrl,h.announced,h.executed,h.aqRoom,?_,h.acqTailReg⟩
    · rw [List.length_append,List.length_singleton,List.take_add_one,hnext,← hpolled]
      rfl
    · rw [List.length_append]
      exact hlt
    · rw [List.length_append]
      exact hat
    · have hacqRoom := h.acqRoom
      rw [List.length_append]
      dsimp only
      omega
  | other hidle hreg =>
    exact ⟨h.ok,⟨comps,hcore.idle h.ok hidle,hpolled,hle⟩,h.head,h.ctrl,h.announced,h.executed,
      h.aqRoom,h.acqRoom,hreg.trans h.acqTailReg⟩

lemma Run.inv (h : Run net r s) : Inv r s := by
  induction h with
  | start hs => exact hs.inv
  | step _ hs ih => exact hs.inv ih

/-- Commands are executed exactly once and in order, the driver reads their completions in that
order, and a doorbell past the depth of the AQ leaves no mark but its value. -/
theorem run_exactly_once (h : Run net r s) :
    s.executed.map Prod.fst = s.posted.take s.announced ∧ s.executed.length = s.announced ∧
      (∀ k e, s.polled[k]? = some e →
        ∃ c, s.posted[k]? = some c.1 ∧ s.executed[k]? = some c ∧ CompletesCmd e c (k+1)) ∧
      (acqPoll s.w.mem r s.driver = none ↔ s.polled.length = s.executed.length) ∧
      s.w.dev.getReg regAcqTail = (UInt16.ofNat s.executed.length).toUInt32 ∧
      ∀ val : UInt64, r.aqDepth < val.toUInt32.toUInt16 - s.w.dev.aqHead →
        step net s.w (.regWrite regAqDb val) =
          .ok (s.w.setDev (s.w.dev.setReg regAqDb val.toUInt32)) ∧
        ∀ val', step net (s.w.setDev (s.w.dev.setReg regAqDb val.toUInt32))
          (.regWrite regAqDb val') =
          step net s.w (.regWrite regAqDb val') := by
  have hinv := h.inv
  obtain ⟨comps,hcore,hpolled,hle⟩ := hinv.core
  refine ⟨?_,hinv.announced.symm,?_,?_,hinv.acqTailReg,?_⟩
  · rw [hinv.announced]
    exact hcore.order
  · intro k e hk
    have hlt := (List.getElem?_eq_some_iff.mp hk).1
    rw [hpolled,List.getElem?_take_of_lt hlt] at hk
    obtain ⟨c,hc,hcomp⟩ := hcore.entries k e hk
    have hlog := (List.getElem?_eq_some_iff.mp hc).1
    refine ⟨c,?_,hc,hcomp⟩
    have hcmd := congrArg (fun l => l[k]?) hcore.order
    simp only [List.getElem?_map, hc, Option.map_some, List.getElem?_take_of_lt hlog] at hcmd
    exact hcmd.symm
  · rw [(hinv.poll_iff hcore hle).1,hcore.length]
  · intro val hval
    have hdepth : s.w.dev.capsDepth regAqCaps = r.aqDepth := congrArg AdminRings.aqDepth hcore.rings
    exact ⟨step_aqDb_ignored net (by rw [hdepth]; exact hval),step_aqDb_again net s.w _⟩

/-- The rings that `driverSetup` programs. -/
def setupRings : AdminRings := ⟨0x1000,0x2000,16,16⟩

lemma setupRings_ok : setupRings.Ok where
  aqBase := by decide
  acqBase := by decide
  aqDepth := ⟨4,rfl⟩
  acqDepth := ⟨4,rfl⟩
  apart := by
    intro x hx hx'
    have hlt := x.toNat_lt
    have hx : (2^64 - 0x1000 + x.toNat) % 2^64 < 1024 := UInt64.toNat_sub x 0x1000 ▸ hx
    have hx' : (2^64 - 0x2000 + x.toNat) % 2^64 < 1024 := UInt64.toNat_sub x 0x2000 ▸ hx'
    omega

/-- A command that destroys an SQ which does not exist. -/
def destroyNoSqCmd : Bytes := pad 64 [0,0,2,0,7,0,sqIdentityTx]

/-- Two commands are announced together, the second of which fails. One completion is read, a third
command is announced, and the other completions are read. -/
theorem run_exactly_once_three :
    ∃ s, Run Net.nonIp setupRings s ∧ s.polled.length = 3 ∧
      s.posted = [createCqCmd,destroyNoSqCmd,setMtuCmd] ∧ s.executed.map Prod.snd = [0,5,0] ∧
      s.executed.map Prod.fst = s.posted.take s.announced ∧ s.executed.length = s.announced ∧
      (∀ k e, s.polled[k]? = some e →
        ∃ c, s.posted[k]? = some c.1 ∧ s.executed[k]? = some c ∧ CompletesCmd e c (k+1)) ∧
      (acqPoll s.w.mem setupRings s.driver = none ↔ s.polled.length = s.executed.length) ∧
      s.w.dev.getReg regAcqTail = (UInt16.ofNat s.executed.length).toUInt32 ∧
      ∀ val : UInt64, setupRings.aqDepth < val.toUInt32.toUInt16 - s.w.dev.aqHead →
        step Net.nonIp s.w (.regWrite regAqDb val) =
          .ok (s.w.setDev (s.w.dev.setReg regAqDb val.toUInt32)) ∧
        ∀ val', step Net.nonIp (s.w.setDev (s.w.dev.setReg regAqDb val.toUInt32))
            (.regWrite regAqDb val') = step Net.nonIp s.w (.regWrite regAqDb val') := by
  obtain ⟨w,-,hw⟩ := exists_of_okAnd
    (p := fun w : World => w.dev.adminRings == setupRings && w.dev.aqHead == 0 &&
      w.dev.acqTail == 0 && w.dev.acqPhase && w.dev.getReg regAcqTail == 0 && w.dev.aenqBase == 0 &&
      (List.range 16).all (fun k => !phaseBit (w.mem.slot 0x2000 64 k)) &&
      (List.range 16).all (fun k => w.mem.okAt (0x1000 + UInt64.ofNat (k*64)) 64) &&
      okAnd (fun w₁ : World => (acqPoll w₁.mem setupRings ⟨0,true⟩).any
        (fun e => e.2.head == 1 && e.2.phase) &&
          okAnd (fun w₂ : World =>
              (acqPoll w₂.mem setupRings ⟨1,true⟩).any (fun e => e.2.head == 2 && e.2.phase) &&
              (acqPoll w₂.mem setupRings ⟨2,true⟩).isSome &&
              ((newExecs ((w.aqPosted setupRings 0 createCqCmd).aqPosted setupRings 1
                destroyNoSqCmd) w₁ ++
                newExecs (w₁.aqPosted setupRings 2 setMtuCmd) w₂).map Prod.snd == [0,5,0]))
            (step Net.nonIp (w₁.aqPosted setupRings 2 setMtuCmd) (.regWrite regAqDb 3)))
        (step Net.nonIp ((w.aqPosted setupRings 0 createCqCmd).aqPosted setupRings 1 destroyNoSqCmd)
          (.regWrite regAqDb 2)))
    (x := run Net.nonIp freshWorld ((driverSetup [] []).take 5)) (by decide +kernel)
  simp only [Bool.and_eq_true, beq_iff_eq, List.all_eq_true, List.mem_range,
    Bool.not_eq_true'] at hw
  obtain ⟨⟨⟨⟨⟨⟨⟨⟨hrings,haq⟩,hacq⟩,hphase⟩,hreg⟩,haenq⟩,hclear⟩,hread⟩,hnext⟩ := hw
  obtain ⟨w₁,hstep₁,hnext⟩ := exists_of_okAnd hnext
  rw [Bool.and_eq_true] at hnext
  obtain ⟨hpoll₁,hnext⟩ := hnext
  obtain ⟨w₂,hstep₂,hnext⟩ := exists_of_okAnd hnext
  simp only [Bool.and_eq_true, beq_iff_eq] at hnext
  obtain ⟨⟨hpoll₂,hpoll₃⟩,hstatus⟩ := hnext
  obtain ⟨⟨e₁,⟨_,_⟩⟩,hpoll₁,hd₁⟩ := (Option.any_eq_true _ _).mp hpoll₁
  obtain ⟨⟨e₂,⟨_,_⟩⟩,hpoll₂,hd₂⟩ := (Option.any_eq_true _ _).mp hpoll₂
  obtain ⟨⟨e₃,d₃⟩,hpoll₃⟩ := Option.isSome_iff_exists.mp hpoll₃
  simp only [Bool.and_eq_true, beq_iff_eq] at hd₁ hd₂
  obtain ⟨⟨rfl,rfl⟩,⟨rfl,rfl⟩⟩ := And.intro hd₁ hd₂
  have hstart : Run Net.nonIp setupRings ⟨w,⟨0,true⟩,[],0,[],[]⟩ :=
    .start ⟨setupRings_ok,hrings,haq,hacq,hphase,hreg,hclear,hread,fun hne => absurd haenq hne,rfl,
      rfl,rfl,rfl,rfl⟩
  have hposted := (hstart.step (@Step.post _ _ _ createCqCmd rfl (fun hop => absurd hop (by decide))
    (show 0 < 0 + 16 by decide) (show 0 < 0 + 16 by decide))).step
      (@Step.post _ _ _ destroyNoSqCmd rfl (fun hop => absurd hop (by decide))
        (show 1 < 0 + 16 by decide) (show 1 < 0 + 16 by decide))
  let execs₁ := newExecs ((w.aqPosted setupRings 0 createCqCmd).aqPosted setupRings 1
    destroyNoSqCmd) w₁
  have hrung : Run Net.nonIp setupRings
      ⟨w₁,⟨0,true⟩,[createCqCmd,destroyNoSqCmd],2,execs₁,[]⟩ :=
    hposted.step (@Step.doorbell _ _ _ 2 2 w₁ (Nat.zero_le _) le_rfl rfl hstep₁)
  have hexecs : execs₁.length = 2 := hrung.inv.announced.symm
  have hpolled : Run Net.nonIp setupRings
      ⟨w₁,⟨1,true⟩,[createCqCmd,destroyNoSqCmd],2,execs₁,[e₁]⟩ := hrung.step (.poll hpoll₁)
  -- the second slot is free before its completion is read: the AQ has room for the third command
  have hposted₂ := hpolled.step (@Step.post _ _ _ setMtuCmd rfl (fun hop => absurd hop (by decide))
    (show 2 < execs₁.length + 16 by rw [hexecs]; decide) (show 2 < 1 + 16 by decide))
  have hrung₂ := hposted₂.step (@Step.doorbell _ _ _ 3 3 w₂
    (show 2 ≤ 3 by decide) le_rfl rfl hstep₂)
  have hlast := (hrung₂.step (.poll hpoll₂)).step (.poll hpoll₃)
  exact ⟨_,hlast,rfl,rfl,hstatus,run_exactly_once hlast⟩

/-- A command that has the RSS key written over the second slot of the AQ. -/
def getKeyCmd : Bytes := pad 64 ([0,0,8,4] ++ ofLe32 48 ++ ofLe32 0x1040 ++ ofLe32 0 ++ [0,10])

/-- The driver posts two commands, and the first overwrites the second: the device does not execute
the commands that were posted. -/
theorem ctrlOverAq_not_posted :
    ∃ w, run Net.nonIp freshWorld (driverSetup [getKeyCmd,createCqCmd] []) = .ok w ∧
      ((w.trace.filterMap Event.exec).map Prod.fst).length = 2 ∧
      (w.trace.filterMap Event.exec).map Prod.fst ≠ [getKeyCmd,createCqCmd] := by
  obtain ⟨w,hrun,hw⟩ := exists_of_okAnd
    (p := fun w : World => ((w.trace.filterMap Event.exec).map Prod.fst).length == 2 &&
      (w.trace.filterMap Event.exec).map Prod.fst != [getKeyCmd,createCqCmd])
    (x := run Net.nonIp freshWorld (driverSetup [getKeyCmd,createCqCmd] [])) (by decide +kernel)
  rw [Bool.and_eq_true,beq_iff_eq,bne_iff_ne] at hw
  exact ⟨w,hrun,hw.1,hw.2⟩

end AdminChannel
end EnaDevice
