import EnaDevice.Aenq.Channel
import EnaDevice.Control.Trace

/-! The credit of the event queue. A write of `AENQ_CAPS` starts a ring, and a write of
`AENQ_HEAD_DB` says how far the device may go in it. The device keeps to that on every ring that
does not find an old position in the doorbell register. -/
namespace EnaDevice
open Bytes Result Relation

/-- A ring as the driver accounts for it: its depth, the entries written since the capabilities
were, if the head doorbell was written since then, and up to which entry it granted. -/
structure AenqCredit where
  depth : UInt16
  entries : ℕ
  rung : Bool
  granted : ℕ

namespace AenqCredit

/-- There is no ring after a reset. -/
def idle : AenqCredit := ⟨0,0,false,0⟩

def start (caps : UInt32) : AenqCredit := ⟨(caps &&& 0xffff).toUInt16,0,false,0⟩

/-- The doorbell counts entries modulo `2^16`. A position past the depth grants nothing new. -/
def ring (r : AenqCredit) (head : UInt16) : AenqCredit :=
  let credit := head - UInt16.ofNat r.entries
  { r with
    rung := true
    granted := if credit ≤ r.depth then r.entries + credit.toNat else r.entries }

/-- What the driver does to the ring. -/
def told (r : AenqCredit) : Input → AenqCredit
  | .qdevReset => idle
  | .regWrite addr val =>
    if addr = regDevCtl ∧ val.toUInt32 &&& 1 ≠ 0 then idle
    else if addr = regAenqCaps then start val.toUInt32
    else if addr = regAenqHeadDb then r.ring val.toUInt32.toUInt16
    else r
  | _ => r

def posted (r : AenqCredit) (n : ℕ) : AenqCredit := { r with entries := r.entries + n }

/-- Runs of the device from a reset, with the account of its ring. The condition holds before each
step. -/
inductive Run (net : Net) (P : World → Input → Prop) : World → AenqCredit → Prop
  | reset (w : World) : Run net P (enaDevReset w) idle
  | step {w w' : World} {inp : Input} {r : AenqCredit} (h : Run net P w r) (hp : P w inp)
    (hs : EnaDevice.step net w inp = .ok w') :
    Run net P w' ((r.told inp).posted (newAenq w w').length)

/-- A new ring does not find credit in the doorbell register. -/
def NoStaleHead (w : World) (inp : Input) : Prop :=
  ∀ val, inp = .regWrite regAenqCaps val →
    w.dev.aenqHeadDb = 0 ∨ w.dev.aenqHeadDb > (val.toUInt32 &&& 0xffff).toUInt16

/-- The registers of the device hold the account. -/
structure Backed (s : EnaState) (r : AenqCredit) : Prop where
  depth : s.aenqDepth = r.depth
  tail : s.aenqTail = UInt16.ofNat r.entries
  bound : r.entries ≤ r.granted
  unrung : r.rung = false → r.granted = 0
  credit : r.depth ≠ 0 → s.aenqHeadDb - s.aenqTail ≤ r.depth →
    r.granted = r.entries + (s.aenqHeadDb - s.aenqTail).toNat

end AenqCredit

/-- Entries are posted on the ring that there is, as many as the head doorbell allows. -/
structure Spends (w w' : World) (posts : List Bytes) : Prop where
  trace : ∃ es, w'.trace = w.trace ++ es ∧ es.filterMap Event.aenqPost = posts
  depth : w'.dev.aenqDepth = w.dev.aenqDepth
  headDb : w'.dev.aenqHeadDb = w.dev.aenqHeadDb
  tail : w'.dev.aenqTail = w.dev.aenqTail + UInt16.ofNat posts.length
  credit : posts ≠ [] → w.dev.aenqDepth ≠ 0 ∧ w.dev.aenqHeadDb - w.dev.aenqTail ≤ w.dev.aenqDepth ∧
    posts.length ≤ (w.dev.aenqHeadDb - w.dev.aenqTail).toNat

/-- Events that are no AENQ entries. -/
def Event.NoPost (e : Event) : Prop := e.aenqPost = none

namespace Spends
variable {w w' w'' : World} {posts posts' : List Bytes}

lemma newAenq_eq (h : Spends w w' posts) : newAenq w w' = posts := by
  obtain ⟨es,he,hposts⟩ := h.trace
  rw [newAenq_of_trace es he,hposts]

lemma of_adds (h : Adds Event.NoPost w w') (hdepth : w'.dev.aenqDepth = w.dev.aenqDepth)
    (hhead : w'.dev.aenqHeadDb = w.dev.aenqHeadDb) (htail : w'.dev.aenqTail = w.dev.aenqTail) :
    Spends w w' [] := by
  obtain ⟨es,he,hno⟩ := h
  refine ⟨⟨es,he,List.filterMap_eq_nil_iff.mpr hno⟩,hdepth,hhead,?_,fun hne => absurd rfl hne⟩
  rw [htail]
  exact (UInt16.add_zero _).symm

lemma of_sameControl (h : Adds Event.NoPost w w') (hs : SameControl w.dev w'.dev) :
    Spends w w' [] := by
  unfold SameControl at hs
  refine of_adds h ?_ ?_ ?_ <;> rw [hs] <;> rfl

lemma trans (h : Spends w w' posts) (h' : Spends w' w'' posts') :
    Spends w w'' (posts ++ posts') := by
  obtain ⟨es,he,hes⟩ := h.trace
  obtain ⟨es',he',hes'⟩ := h'.trace
  refine ⟨⟨es ++ es',by rw [he',he,List.append_assoc],by rw [List.filterMap_append,hes,hes']⟩,
    h'.depth.trans h.depth,h'.headDb.trans h.headDb,?_,fun hne => ?_⟩
  · rw [h'.tail,h.tail,List.length_append,UInt16.ofNat_add,UInt16.add_assoc]
  by_cases hnil : posts' = []
  · subst hnil
    rw [List.append_nil] at hne ⊢
    exact h.credit hne
  obtain ⟨hdepth,hpast,hle⟩ := h'.credit hnil
  by_cases hfirst : posts = []
  · subst hfirst
    have htail : w'.dev.aenqTail = w.dev.aenqTail := h.tail.trans (UInt16.add_zero _)
    rw [h.depth,h.headDb,htail] at hpast
    rw [h.headDb,htail] at hle
    exact ⟨h.depth ▸ hdepth,hpast,hle⟩
  -- the entries of the first part have used up their share of the credit
  obtain ⟨hdepth₁,hpast₁,hle₁⟩ := h.credit hfirst
  rw [h.headDb,h.tail,Counter.sub_add_toNat _ _ _ hle₁] at hle
  refine ⟨hdepth₁,hpast₁,?_⟩
  rw [List.length_append]
  omega

end Spends

section Step
variable {net : Net} {w w' : World} {inp : Input}

lemma AenqPosted.spends (h : AenqPosted w w') : ∃ posts, Spends w w' posts := by
  cases h with
  | skipped => exact ⟨[],.of_adds (.refl w) rfl rfl rfl⟩
  | posted entry hlen hbase hdepth hpast hfull =>
    have hdev : (enaAdminIntr ((enaDmaWrite w .aenq w.dev.aenqSlot entry).setDev
      w.dev.aenqAdvance)).dev =
        w.dev.aenqAdvance := dev_adminIntr _
    have hintr : ∃ es, (w.aenqPosted entry).trace = w.trace ++
      (.dmaWrite .aenq w.dev w.dev.aenqSlot entry :: es) ∧
        es.filterMap Event.aenqPost = [] := by
      unfold World.aenqPosted enaAdminIntr
      split_ifs
      · exact ⟨[],rfl,rfl⟩
      · exact ⟨[.msixNotify 0],List.append_assoc _ _ _,rfl⟩
    obtain ⟨es,he,hes⟩ := hintr
    refine ⟨[entry],⟨_,he,congrArg (entry :: ·) hes⟩,?_,?_,?_,
      fun _ => ⟨hdepth,UInt16.not_lt.mp hpast,?_⟩⟩
    · rw [hdev]
      rfl
    · rw [hdev]
      rfl
    · rw [hdev]
      rfl
    · exact Nat.pos_of_ne_zero fun hz => hfull ((Counter.sub_toNat_eq_zero_iff _ _).mp hz).symm

lemma QueueCmd.spends {status : AdminStatus} {resp : Bytes} {s : EnaState}
    (h : QueueCmd w.dev (status,resp,s)) : Spends w (w.setDev s) [] := by
  have htrace : ∀ s, Adds Event.NoPost w (w.setDev s) := fun _ => .of_eq rfl
  cases h <;> exact .of_adds (htrace _) rfl rfl rfl

/-- A command posts an event only if it configures the queue. -/
lemma Executed.spends {cmd resp : Bytes} {status : AdminStatus}
    (h : Executed w cmd (status,resp,w')) :
    ∃ posts, Spends w w' posts := by
  have hset : ∀ s, Adds Event.NoPost w (w.setDev s) := fun _ => .of_eq rfl
  cases h with
  | refused => exact ⟨[],.of_adds (.refl w) rfl rfl rfl⟩
  | queues hq => exact ⟨[],hq.spends⟩
  | reported => exact ⟨[],.of_adds (.refl w) rfl rfl rfl⟩
  | ctrlReported resp data =>
    have hdata : Adds Event.NoPost w (enaDmaWrite w (.ctrlBuf cmd) (enaMemAddr cmd 8) data) :=
      .emit rfl
    exact ⟨[],.of_adds hdata rfl rfl rfl⟩
  | aenqConfig groups hc =>
    obtain ⟨w₁,timer,hpost,rfl⟩ := hc
    have hbefore : Spends w (w.setDev { w.dev with aenqGroups := groups }) [] :=
      .of_adds (hset _) rfl rfl rfl
    have hafter : Spends w₁ (w₁.setDev { w₁.dev with keepAliveTimer := timer }) [] :=
      .of_adds (.of_eq rfl) rfl rfl rfl
    obtain ⟨posts,hposts⟩ := hpost.spends
    exact ⟨_,(hbefore.trans hposts).trans hafter⟩
  | _ => exact ⟨[],.of_adds (hset _) rfl rfl rfl⟩

lemma spends_adminIntr (w : World) : Spends w (enaAdminIntr w) [] := by
  refine .of_adds (adds_adminIntr w rfl) ?_ ?_ ?_ <;> rw [dev_adminIntr]

lemma AdminRan.spends (h : AdminRan w w') : ∃ posts, Spends w w' posts := by
  refine h.preserves (M := fun u => ∃ posts, Spends w u posts)
    ⟨[],.of_adds (.refl w) rfl rfl rfl⟩ ?_ ?_ ?_
  · rintro r u status resp u₁ ⟨posts,hposts⟩ hexec
    obtain ⟨posts',hposts'⟩ := ((enaAdminExec_spec _ _).of_ok hexec).spends
    have htaken : Spends u u.aqTaken [] := .of_adds (.of_eq rfl) rfl rfl rfl
    have hemit : Adds Event.NoPost u₁ (u₁.emit (.adminExec (u.aqCmd r) status.code)) := .emit rfl
    have hanswer : Adds Event.NoPost (u₁.emit (.adminExec (u.aqCmd r) status.code))
        ((u₁.emit (.adminExec (u.aqCmd r) status.code)).acqPushed r (u.aqCmd r) status resp) :=
      ⟨[_],rfl,by simp [Event.NoPost,Event.aenqPost]⟩
    have hpushed : Spends u₁
        ((u₁.emit (.adminExec (u.aqCmd r) status.code)).acqPushed r (u.aqCmd r) status resp) [] :=
      .of_adds (hemit.trans hanswer) rfl rfl rfl
    exact ⟨_,hposts.trans ((htaken.trans hposts').trans hpushed)⟩
  · rintro u ⟨posts,hposts⟩
    exact ⟨_,hposts.trans (.of_adds (.of_eq rfl) rfl rfl rfl)⟩
  · rintro u ⟨posts,hposts⟩
    exact ⟨_,hposts.trans (spends_adminIntr u)⟩

/-- Other inputs post nothing. -/
lemma step_noPost (hw : TableInv w.dev ∧ TxIdle none w.dev) (hinp : ¬ inp.Posts)
    (h : step net w inp = .ok w') : Adds Event.NoPost w w' := by
  by_cases hctl : inp.Control
  · refine step_control_adds hctl ⟨fun site _ _ _ _ haenq => ?_,fun hp => absurd hp hinp,
      fun _ => rfl,fun _ _ _ _ => rfl,fun _ => rfl⟩ h
    cases site with
    | aenq => exact absurd rfl haenq
    | _ => rfl
  · refine (Path.confined (Progress.path (.done h) hw.1 hw.2)).mono fun e he => ?_
    cases e with
    | dmaWrite site =>
      cases site with
      | aenq => exact absurd he.1 hctl
      | _ => rfl
    | _ => rfl

/-- An input that posts keeps within the credit. -/
lemma step_posts_spends (hinp : inp.Posts) (h : step net w inp = .ok w') :
    ∃ posts, Spends w w' posts := by
  cases inp with
  | regWrite addr val =>
    obtain rfl : addr = regAqDb := hinp
    obtain ⟨posts,hposts⟩ := (enaAdminProcess_ran h).spends
    have hreg : Spends w (w.setDev (w.dev.setReg regAqDb val.toUInt32)) [] :=
      .of_adds (.of_eq rfl) rfl rfl rfl
    exact ⟨_,hreg.trans hposts⟩
  | keepAliveTimer =>
    suffices hall : Holds (fun _ => True) (fun w' => ∃ posts, Spends w w' posts)
        (step net w .keepAliveTimer) from hall.of_ok h
    have hnone : Spends w w [] := .of_adds (.refl w) rfl rfl rfl
    have hbefore : Spends w (w.setDev { w.dev with keepAliveTimer := none }) [] :=
      .of_adds (.of_eq rfl) rfl rfl rfl
    refine holds_ite (fun _ => ?_) fun _ => holds_pure ⟨[],hnone⟩
    refine holds_bind (holds_imp (enaAenqPost_spec _ _ _ (by simp)) (fun _ _ => trivial) fun _ =>
      id) ?_
    intro w₁ _ hpost
    have hafter : Spends w₁ (w₁.setDev { w₁.dev with
        keepAliveTimer := some (w₁.clockMs + enaKeepAliveIntervalMs) }) [] :=
          .of_adds (.of_eq rfl) rfl rfl rfl
    obtain ⟨posts,hposts⟩ := hpost.spends
    exact holds_pure ⟨_,(hbefore.trans hposts).trans hafter⟩
  | linkChange up =>
    obtain ⟨posts,hposts⟩ := ((enaPostLinkChange_spec { w with linkUp := up }).of_ok h).spends
    have hbefore : Spends w { w with linkUp := up } [] := .of_adds (.of_eq rfl) rfl rfl rfl
    exact ⟨_,hbefore.trans hposts⟩
  | _ => exact hinp.elim

lemma stored_ne_headDb {addr : ℕ} (h : storesValue addr ∨ addr = regMmioRegRead)
    (hhead : addr ≠ regAenqHeadDb) :
    Fin.ofNat 28 (regAenqHeadDb/4) ≠ Fin.ofNat 28 (addr/4) := by
  have hmem := stored_mem h
  clear h
  revert hhead
  revert addr
  decide

/-- Nothing else touches the queue, unless it starts a ring or rings the doorbell. -/
lemma step_other_spends (hw : TableInv w.dev ∧ TxIdle none w.dev) (hinp : ¬ inp.Posts)
    (hreset : ¬ inp.Resets) (hcaps : ∀ val, inp ≠ .regWrite regAenqCaps val)
    (hhead : ∀ val, inp ≠ .regWrite regAenqHeadDb val) (h : step net w inp = .ok w') :
    Spends w w' [] := by
  have hno := step_noPost hw hinp h
  cases step_stepped hw.1 h with
  | io hs => exact .of_sameControl hno hs
  | reset => exact absurd trivial hreset
  | devCtlReset hval => exact absurd ⟨rfl,hval⟩ hreset
  | devCtlDone =>
    split_ifs at hno ⊢ <;> exact .of_adds hno rfl rfl rfl
  | @stored addr val _ haddr hdev =>
    have hdb := stored_ne_headDb haddr fun he => hhead val (by rw [he])
    have hcaps := stored_ne haddr regAenqCaps (by decide)
    refine .of_adds hno ?_ ?_ ?_ <;> rw [hdev]
    · rw [EnaState.aenqDepth,EnaState.capsDepth,EnaState.getReg_setReg_of_ne hcaps]
      rfl
    · rw [EnaState.aenqHeadDb,EnaState.getReg_setReg_of_ne hdb]
    · rfl
  | intrMask => exact .of_adds hno rfl rfl rfl
  | aqCaps => exact .of_adds hno rfl rfl rfl
  | acqCaps => exact .of_adds hno rfl rfl rfl
  | @aenqCaps val => exact absurd rfl (hcaps val)
  | admin => exact absurd rfl hinp
  | keepAlive => exact absurd trivial hinp
  | link => exact absurd trivial hinp

end Step

namespace AenqCredit
variable {net : Net} {w w' : World} {inp : Input} {r : AenqCredit}

lemma posted_zero (r : AenqCredit) : r.posted 0 = r := rfl

/-- What is posted within the credit stays backed. -/
lemma Backed.spends {posts : List Bytes} (h : Backed w.dev r) (hs : Spends w w' posts) :
    Backed w'.dev (r.posted posts.length) := by
  have htail : w'.dev.aenqTail = UInt16.ofNat (r.entries + posts.length) := by
    rw [hs.tail,h.tail,UInt16.ofNat_add]
  have hused : r.entries + posts.length ≤ r.granted := by
    by_cases hnil : posts = []
    · rw [hnil]
      exact h.bound
    · obtain ⟨hdepth,hpast,hle⟩ := hs.credit hnil
      rw [h.depth] at hdepth hpast
      rw [h.credit hdepth hpast]
      exact Nat.add_le_add_left hle _
  refine ⟨hs.depth.trans h.depth,htail,hused,h.unrung,fun hdepth hle => ?_⟩
  change r.granted = r.entries + posts.length + _
  by_cases hnil : posts = []
  · subst hnil
    have hsame : w'.dev.aenqTail = w.dev.aenqTail := hs.tail.trans (UInt16.add_zero _)
    rw [hs.headDb,hsame] at hle ⊢
    exact h.credit hdepth hle
  · obtain ⟨-,hpast,hposts⟩ := hs.credit hnil
    rw [h.depth] at hpast
    have hcredit := h.credit hdepth hpast
    rw [hs.headDb,hs.tail,Counter.sub_add_toNat _ _ _ hposts]
    omega

lemma devReset_aenqDepth (s : EnaState) : s.devReset.aenqDepth = 0 := by
  change ((0 : UInt32) &&& 0xffff).toUInt16 = 0
  decide

lemma Backed.idle {s : EnaState} (hdepth : s.aenqDepth = 0) (htail : s.aenqTail = 0) :
    Backed s idle :=
  ⟨hdepth,htail,le_rfl,fun _ => rfl,fun h => absurd rfl h⟩

/-- A new ring, on which the doorbell register grants nothing. -/
lemma Backed.caps {val : UInt64} (hstale : NoStaleHead w (.regWrite regAenqCaps val))
    (hs : EnaDevice.step net w (.regWrite regAenqCaps val) = .ok w') :
    Backed w'.dev (start val.toUInt32) := by
  change (enaCheckQueueCaps val.toUInt32 >>= _) = _ at hs
  obtain ⟨_,-,hw⟩ := bind_eq_ok.mp hs
  cases hw
  refine ⟨?_,rfl,le_rfl,fun _ => rfl,fun _ hle => ?_⟩
  · change ((({ w.dev.setReg regAenqCaps val.toUInt32 with aenqTail := 0, aenqPhase := true }.setReg
      regAenqTail 0).getReg regAenqCaps) &&& 0xffff).toUInt16 = _
    rfl
  · change w.dev.aenqHeadDb - 0 ≤ (val.toUInt32 &&& 0xffff).toUInt16 at hle
    change 0 = 0 + (w.dev.aenqHeadDb - 0).toNat
    rw [UInt16.sub_zero] at hle ⊢
    rcases hstale val rfl with hzero | hpast
    · rw [hzero]
      rfl
    · exact absurd hle (UInt16.not_le.mpr hpast)

/-- The doorbell grants what it says. -/
lemma Backed.ring {val : UInt64} (h : Backed w.dev r)
    (hs : EnaDevice.step net w (.regWrite regAenqHeadDb val) = .ok w') :
    Backed w'.dev (r.ring val.toUInt32.toUInt16) := by
  obtain rfl : w' = w.setDev (w.dev.setReg regAenqHeadDb val.toUInt32) := (Except.ok.inj hs).symm
  have hhead : (w.dev.setReg regAenqHeadDb val.toUInt32).aenqHeadDb = val.toUInt32.toUInt16 := rfl
  refine ⟨h.depth,h.tail,?_,nofun,fun hdepth hle => ?_⟩
  · change r.entries ≤ if _ then _ else _
    split_ifs
    · exact Nat.le_add_right _ _
    · exact le_rfl
  · change (w.dev.setReg regAenqHeadDb val.toUInt32).aenqHeadDb - w.dev.aenqTail ≤ r.depth at hle
    rw [hhead,h.tail] at hle
    change (if _ then _ else _) = r.entries +
      ((w.dev.setReg regAenqHeadDb val.toUInt32).aenqHeadDb - w.dev.aenqTail).toNat
    rw [if_pos hle,hhead,h.tail]

lemma Backed.resets (hreset : inp.Resets) (hs : EnaDevice.step net w inp = .ok w') :
    Backed w'.dev AenqCredit.idle ∧ r.told inp = AenqCredit.idle := by
  cases inp with
  | qdevReset =>
    cases hs
    exact ⟨.idle (devReset_aenqDepth _) rfl,rfl⟩
  | regWrite addr val =>
    refine ⟨?_,if_pos hreset⟩
    obtain ⟨rfl,hval⟩ := hreset
    change enaDevCtlWrite w val.toUInt32 = .ok w' at hs
    unfold enaDevCtlWrite at hs
    split_ifs at hs
    cases hs
    exact .idle (devReset_aenqDepth w.dev) rfl
  | _ => exact hreset.elim

lemma told_eq (hreset : ¬ inp.Resets) (hcaps : ∀ val, inp ≠ .regWrite regAenqCaps val)
    (hhead : ∀ val, inp ≠ .regWrite regAenqHeadDb val) : r.told inp = r := by
  cases inp with
  | regWrite addr val =>
    have hctl : ¬ (addr = regDevCtl ∧ val.toUInt32 &&& 1 ≠ 0) := hreset
    change (if _ then _ else _) = r
    rw [if_neg hctl,if_neg fun he => hcaps val (by rw [he]),if_neg fun he => hhead val (by rw [he])]
  | qdevReset => exact absurd trivial hreset
  | _ => rfl

/-- Every step keeps the account backed. -/
lemma Backed.step (hw : TableInv w.dev ∧ TxIdle none w.dev) (h : Backed w.dev r)
    (hstale : NoStaleHead w inp) (hs : EnaDevice.step net w inp = .ok w') :
    Backed w'.dev ((r.told inp).posted (newAenq w w').length) := by
  by_cases hinp : inp.Posts
  · obtain ⟨posts,hposts⟩ := step_posts_spends hinp hs
    have htold : r.told inp = r := by
      cases inp with
      | regWrite addr val =>
        obtain rfl : addr = regAqDb := hinp
        rfl
      | qdevReset => exact hinp.elim
      | _ => rfl
    rw [htold,hposts.newAenq_eq]
    exact h.spends hposts
  have hnone : newAenq w w' = [] := by
    obtain ⟨es,he,hno⟩ := step_noPost hw hinp hs
    rw [newAenq_of_trace es he]
    exact List.filterMap_eq_nil_iff.mpr hno
  rw [hnone,List.length_nil,posted_zero]
  by_cases hreset : inp.Resets
  · obtain ⟨hidle,htold⟩ := Backed.resets (r := r) hreset hs
    rw [htold]
    exact hidle
  by_cases hcaps : ∃ val, inp = .regWrite regAenqCaps val
  · obtain ⟨val,rfl⟩ := hcaps
    exact Backed.caps hstale hs
  by_cases hhead : ∃ val, inp = .regWrite regAenqHeadDb val
  · obtain ⟨val,rfl⟩ := hhead
    exact h.ring hs
  have hcaps' : ∀ val, inp ≠ .regWrite regAenqCaps val := fun val he => hcaps ⟨val,he⟩
  have hhead' : ∀ val, inp ≠ .regWrite regAenqHeadDb val := fun val he => hhead ⟨val,he⟩
  rw [told_eq hreset hcaps' hhead']
  exact h.spends (step_other_spends hw hinp hreset hcaps' hhead' hs)

lemma Run.backed (h : Run net NoStaleHead w r) :
    (TableInv w.dev ∧ TxIdle none w.dev) ∧ Backed w.dev r := by
  induction h with
  | reset w => exact ⟨reset_tables w,.idle (devReset_aenqDepth _) rfl⟩
  | step _ hp hs ih => exact ⟨step_tables ih.1 hs,ih.2.step ih.1 hp hs⟩

/-- If no new ring finds a position of the previous one in the doorbell register, then nothing is
posted on a ring before its doorbell is written, and never more than was granted. -/
theorem aenq_within_credit (h : Run net NoStaleHead w r) :
    (r.rung = false → r.entries = 0) ∧ r.entries ≤ r.granted := by
  obtain ⟨-,hb⟩ := h.backed
  refine ⟨fun hno => ?_,hb.bound⟩
  have hbound := hb.bound
  rw [hb.unrung hno] at hbound
  exact Nat.eq_zero_of_le_zero hbound

/-- The account of given inputs. -/
def replay (net : Net) : World → AenqCredit → List Input → Except Fault (World × AenqCredit)
  | w, r, [] => return (w,r)
  | w, r, inp::inputs => do
    let w' ← EnaDevice.step net w inp
    replay net w' ((r.told inp).posted (newAenq w w').length) inputs

lemma Run.replay {P : World → Input → Prop} {inputs : List Input} {x : World × AenqCredit}
    (h : Run net P w r) (hp : ∀ w, ∀ inp ∈ inputs, P w inp)
    (hrun : AenqCredit.replay net w r inputs = .ok x) : Run net P x.1 x.2 := by
  induction inputs generalizing w r with
  | nil =>
    cases hrun
    exact h
  | cons inp inputs ih =>
    obtain ⟨w₁,hs,hrest⟩ := bind_eq_ok.mp hrun
    exact ih (h.step (hp w inp List.mem_cons_self) hs)
      (fun w i hi => hp w i (List.mem_cons_of_mem _ hi)) hrest

/-- A driver enables link changes on a ring of 16 entries, which it has granted. -/
def linkRing : List Input :=
  [.regWrite regAenqBaseLo 0x7000,.regWrite regAenqHeadDb 16] ++ driverSetup [enableLinkChangeCmd]
  []

/-- The link state is posted to the ring when its group is enabled. -/
theorem aenq_within_credit_link :
    ∃ w r, Run Net.nonIp NoStaleHead w r ∧ r.entries = 1 ∧ r.granted = 16 ∧
      (r.rung = false → r.entries = 0) ∧ r.entries ≤ r.granted := by
  obtain ⟨w,hcaps,htest⟩ := exists_of_okAnd
    (p := fun w => okAnd (fun x : World × AenqCredit => decide (x.2.entries = 1 ∧ x.2.granted = 16))
      (AenqCredit.replay Net.nonIp w ((AenqCredit.idle.told (.regWrite regAenqCaps 0x400010)).posted
        (newAenq freshWorld w).length) linkRing))
    (x := EnaDevice.step Net.nonIp freshWorld (.regWrite regAenqCaps 0x400010)) (by decide +kernel)
  obtain ⟨x,hx,hcount⟩ := exists_of_okAnd htest
  have hstale : NoStaleHead freshWorld (.regWrite regAenqCaps 0x400010) := fun _ _ => .inl rfl
  have hrun := ((Run.reset _).step hstale hcaps).replay (fun w inp hinp val he => by
    subst he
    revert hinp
    simp [linkRing,driverSetup,regAenqCaps,regAenqBaseLo,regAenqHeadDb,regAqBaseLo,regAqCaps,
      regAcqBaseLo,regAcqCaps,regAqDb]) hx
  obtain ⟨hentries,hgranted⟩ := of_decide_eq_true hcount
  exact ⟨x.1,x.2,hrun,hentries,hgranted,aenq_within_credit hrun⟩

/-- The driver starts the ring anew, and a link change is posted without another doorbell. -/
theorem aenq_stale_credit :
    ¬ ∀ (net : Net) (w : World) (r : AenqCredit), Run net (fun _ _ => True) w r →
      (r.rung = false → r.entries = 0) ∧ r.entries ≤ r.granted := by
  intro hall
  obtain ⟨x,hx,hcount⟩ := exists_of_okAnd
    (p := fun x : World × AenqCredit => decide (x.2.entries = 1 ∧ x.2.granted = 0))
    (x := AenqCredit.replay Net.nonIp freshWorld AenqCredit.idle
      (.regWrite regAenqCaps 0x400010 :: linkRing ++
      [.regWrite regAenqCaps 0x400010,.linkChange true])) (by decide +kernel)
  obtain ⟨hentries,hgranted⟩ := of_decide_eq_true hcount
  have hrun := (@Run.reset Net.nonIp (fun _ _ => True) _).replay (fun _ _ _ => trivial) hx
  have hbound := (hall _ _ _ hrun).2
  rw [hentries,hgranted] at hbound
  exact absurd hbound (by decide)

end AenqCredit
end EnaDevice
