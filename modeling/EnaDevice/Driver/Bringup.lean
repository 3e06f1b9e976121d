import EnaDevice.Driver.Qos
import EnaDevice.Lib.Bits
import EnaDevice.Aenq.Channel
import EnaDevice.Admin.Exchange

/-! Readless register reads, the reset handshake and bring-up of the libqos driver: each finds its
answer at the first poll, whatever state the device was in before. -/
namespace EnaDevice.Driver
open Bytes Result

lemma gAssert_true (site : Assertion) : gAssert true site = .ok () := rfl

lemma eq_true_of_gAssert {c : Bool} {site : Assertion} {u : Unit} (h : gAssert c site = .ok u) :
    c = true := by
  cases c with
  | true => rfl
  | false => cases h

/-- A wait that ends at once: no time passes. -/
lemma pollLoop_found {α : Type} (q : Qtest) (ns : ℕ) {look : Session → α} {found : α → Bool}
    {s : Session} (h : found (look s) = true) (n : ℕ) (last : α) :
    pollLoop q ns look found (n+1) s last = .ok (look s,s) := by
  rw [pollLoop,if_pos h]

/-- The request that a readless read of a register writes. -/
def readlessReq (off reqId : UInt16) : UInt32 := (off.toUInt32 <<< 16) ||| reqId.toUInt32

lemma readlessReq_toNat (off reqId : UInt16) :
    (readlessReq off reqId).toNat = off.toNat*2^16 + reqId.toNat := by
  have hoff := off.toNat_lt
  have hid := reqId.toNat_lt
  rw [readlessReq,UInt32.toNat_or,UInt32.toNat_shiftLeft,UInt16.toNat_toUInt32,
    UInt16.toNat_toUInt32,Nat.or_comm]
  exact Bits.join (k := 16) hid (by omega)

lemma readlessReq_id (off reqId : UInt16) :
    (readlessReq off reqId &&& 0xffff).toUInt16 = reqId := by
  have hid := reqId.toNat_lt
  apply UInt16.toNat_inj.mp
  have hlow := Bits.low_toNat (readlessReq off reqId) (k := 16) (by norm_num)
  rw [UInt32.toNat_toUInt16]
  have hmask : UInt32.ofNat (2^16-1) = 0xffff := by decide
  rw [hmask] at hlow
  rw [hlow,readlessReq_toNat]
  omega

lemma readlessReq_off (off reqId : UInt16) :
    ((readlessReq off reqId &&& 0xffff0000) >>> 16).toUInt16 = off := by
  have hoff := off.toNat_lt
  have hid := reqId.toNat_lt
  apply UInt16.toNat_inj.mp
  have hfield := Bits.field_toNat (readlessReq off reqId) (k := 16) (l := 16) (by norm_num)
    (by norm_num)
  rw [UInt32.toNat_toUInt16]
  have hmask : UInt32.ofNat ((2^16-1)*2^16) = 0xffff0000 := by decide
  have hshift : UInt32.ofNat 16 = 16 := rfl
  rw [hmask,hshift] at hfield
  rw [hfield,readlessReq_toNat]
  omega

section Resp
variable (reqId regOff : UInt16) (regVal : UInt32)

lemma readlessResp_id : le16At (readlessResp reqId regOff regVal) 0 = reqId := le16At_ofLe16 reqId _

lemma readlessResp_off : le16At (readlessResp reqId regOff regVal) 2 = regOff := by
  rw [readlessResp,List.append_assoc,← Nat.zero_add 2,le16At_skip16,le16At_ofLe16]

lemma readlessResp_val : le32At (readlessResp reqId regOff regVal) 4 = regVal := by
  have hskip := le32At_append_right (ofLe16 reqId ++ ofLe16 regOff) (ofLe32 regVal) 0
  rw [readlessResp]
  refine hskip.trans ?_
  simpa using le32At_ofLe32 regVal []

end Resp

/-- The device answers a request for an aligned offset. -/
lemma step_readless (net : Net) {w : World} {off : UInt16} (hne : w.dev.mmioResp ≠ 0)
    (hoff : off &&& 3 = 0) (reqId : UInt16) :
    step net w (.regWrite regMmioRegRead (readlessReq off reqId).toUInt64) =
      .ok (enaDmaWrite (w.setDev (w.dev.setReg regMmioRegRead (readlessReq off reqId))) .mmioResp
        w.dev.mmioResp
        (readlessResp reqId off
          (enaRegFileRead (w.dev.setReg regMmioRegRead (readlessReq off reqId)) off.toNat))) := by
  have hstep : step net w (.regWrite regMmioRegRead (readlessReq off reqId).toUInt64) =
      .ok (enaMmioReadless (w.setDev
        (w.dev.setReg regMmioRegRead (readlessReq off reqId).toUInt64.toUInt32))
        (readlessReq off reqId).toUInt64.toUInt32) := rfl
  have hne' : (w.setDev (w.dev.setReg regMmioRegRead (readlessReq off reqId))).dev.mmioResp ≠ 0 :=
    hne
  rw [hstep,UInt32.toUInt32_toUInt64]
  unfold enaMmioReadless
  dsimp only
  rw [readlessReq_id,readlessReq_off,if_neg (by simp [hne',hoff])]
  rfl

/-- The response buffer is programmed. -/
structure Session.Responds (s : Session) : Prop where
  eq : s.w.dev.mmioResp = s.d.mmioResp
  ne : s.d.mmioResp ≠ 0

/-- What the device does to the registers in a readless read: it keeps the request. -/
def Session.requested (s : Session) (off : UInt16) : EnaState :=
  s.w.dev.setReg regMmioRegRead (readlessReq off (s.d.mmioSeq + 1))

/-- The session when the driver starts to poll: request written, response in place. -/
def Session.answered (q : Qtest) (s : Session) (off : UInt16) : Session where
  d := { s.d with mmioSeq := s.d.mmioSeq + 1 }
  w := enaDmaWrite
    { s.w with
      dev := s.requested off
      mem := s.w.mem.write s.d.mmioResp
        (readlessResp (s.d.mmioSeq + 1 + 0xdead) q.garbage.1 q.garbage.2) }
    .mmioResp s.d.mmioResp
    (readlessResp (s.d.mmioSeq + 1) off (enaRegFileRead (s.requested off) off.toNat))

/-- A readless read of an aligned offset is answered at once, and the answer is the one for it. -/
lemma enaReadless_eq (q : Qtest) {s : Session} {off : UInt16} (h : s.Responds)
    (hoff : off &&& 3 = 0) :
    enaReadless q s off = .ok (enaRegFileRead (s.requested off) off.toNat,s.answered q off) := by
  have hstep : enaRegWrite q (qtestMemwrite { s with d := { s.d with mmioSeq := s.d.mmioSeq + 1 } }
    s.d.mmioResp
      (readlessResp (s.d.mmioSeq + 1 + 0xdead) q.garbage.1 q.garbage.2)) regMmioRegRead
      (readlessReq off (s.d.mmioSeq + 1)) = .ok (s.answered q off) := by
    rw [enaRegWrite,step_readless q.net (by exact h.eq.trans_ne h.ne) hoff]
    unfold Session.answered
    rw [← h.eq]
    rfl
  have hlook : qtestMemread (s.answered q off) (s.answered q off).d.mmioResp 8 =
      readlessResp (s.d.mmioSeq + 1) off (enaRegFileRead (s.requested off) off.toNat) :=
    Memory.bytesAt_write_self _ _ (by simp [readlessResp])
  unfold enaReadless
  dsimp only
  rw [← readlessReq]
  refine (congrArg (· >>= _) hstep).trans ?_
  rw [ok_bind,pollLoop_found q 1000 (by rw [hlook,readlessResp_id]; simp)]
  rw [ok_bind]
  dsimp only
  rw [hlook,readlessResp_id,readlessResp_off,readlessResp_val]
  simp [gAssert]

/-- What a readless read leaves alone: all but the request register and the response buffer. No time
passes. -/
structure Session.ReadOnly (s s' : Session) : Prop where
  dev : ∃ req, s'.w.dev = s.w.dev.setReg regMmioRegRead req
  mem : Memory.Agrees (InRegion s.d.mmioResp 8) s.w.mem s'.w.mem
  stale : s'.w.mem.stale = s.w.mem.stale
  llq : s'.w.llq = s.w.llq
  clock : s'.w.clock = s.w.clock
  linkUp : s'.w.linkUp = s.w.linkUp
  driver : ∃ seq, s'.d = { s.d with mmioSeq := seq }

namespace Session.ReadOnly
variable {s s' s'' : Session}

lemma refl (s : Session) : ReadOnly s s := by
  refine ⟨⟨s.w.dev.getReg regMmioRegRead,?_⟩,.refl _,rfl,rfl,rfl,rfl,_,rfl⟩
  simp [EnaState.setReg,EnaState.getReg]

lemma trans (h : ReadOnly s s') (h' : ReadOnly s' s'') : ReadOnly s s'' := by
  obtain ⟨req,hdev⟩ := h.dev
  obtain ⟨req',hdev'⟩ := h'.dev
  obtain ⟨seq,hd⟩ := h.driver
  obtain ⟨seq',hd'⟩ := h'.driver
  have hmem := h'.mem
  rw [hd] at hmem
  refine ⟨⟨req',?_⟩,h.mem.trans hmem,h'.stale.trans h.stale,h'.llq.trans h.llq,
    h'.clock.trans h.clock,h'.linkUp.trans h.linkUp,seq',?_⟩
  · simp [hdev',hdev,EnaState.setReg]
  · rw [hd',hd]

/-- Every other register reads as before. -/
lemma regFileRead (h : ReadOnly s s') {off : ℕ} (hoff : off/4 ≠ regMmioRegRead/4) :
    enaRegFileRead s'.w.dev off = enaRegFileRead s.w.dev off := by
  obtain ⟨req,hdev⟩ := h.dev
  unfold enaRegFileRead
  split_ifs with hlt
  · have hidx : Fin.ofNat 28 (off/4) ≠ Fin.ofNat 28 (regMmioRegRead/4) := by
      intro he
      have hval : off/4 % 28 = 0x5c/4 % 28 := congrArg Fin.val he
      simp only [regMmioRegRead, regFileSize] at hoff hlt
      omega
    rw [hdev,EnaState.getReg_setReg_of_ne hidx]
  · rfl

lemma responds (h : ReadOnly s s') (hs : s.Responds) : s'.Responds := by
  obtain ⟨req,hdev⟩ := h.dev
  obtain ⟨seq,hd⟩ := h.driver
  refine ⟨?_,?_⟩
  · rw [hdev,hd]
    exact hs.eq
  · rw [hd]
    exact hs.ne

lemma answered (q : Qtest) (s : Session) (off : UInt16) : ReadOnly s (s.answered q off) := by
  refine ⟨⟨_,rfl⟩,?_,rfl,rfl,rfl,rfl,_,rfl⟩
  have hgarbage : Memory.Agrees (InRegion s.d.mmioResp 8) s.w.mem (s.w.mem.write s.d.mmioResp
      (readlessResp (s.d.mmioSeq + 1 + 0xdead) q.garbage.1 q.garbage.2)) := .write fun _ hx => hx
  exact hgarbage.trans (.write fun _ hx => hx)

end Session.ReadOnly

lemma aligned_div {off : UInt16} (h : off &&& 3 = 0) (hne : off.toNat ≠ regMmioRegRead) :
    off.toNat/4 ≠ regMmioRegRead/4 := by
  have hmask := congrArg UInt16.toNat h
  rw [UInt16.toNat_and] at hmask
  have hmod : off.toNat % 4 = 0 := (Nat.and_two_pow_sub_one_eq_mod off.toNat 2).symm.trans hmask
  simp only [regMmioRegRead] at hne ⊢
  omega

lemma regRead_eq (s : Session) (off : ℕ) : enaRegRead s off = enaRegFileRead s.w.dev off :=
  UInt32.toUInt32_toUInt64 _

/-- Readless reads of several registers, one after the other. -/
def readlessAll (q : Qtest) : Session → List UInt16 → Except Abort (List UInt32 × Session)
  | s, [] => return ([],s)
  | s, off::offs => do
    let (val,s) ← enaReadless q s off
    let (vals,s) ← readlessAll q s offs
    return (val::vals,s)

/-- A machine whose clock only moves. -/
def plainQtest : Qtest := ⟨Net.nonIp,fun ns w => .ok { w with clock := w.clock + ns },(0,0)⟩

/-- A driver that has only its response buffer. -/
def newDriver : QEna := ⟨0x800,0,0,0,0,0,0,false,0,false⟩

/-- Readless reads agree with reads of BAR 0, however many there were before them: each returns the
register as it was at the start, and nothing but the request register and the response buffer
changes. -/
theorem readless_agrees (q : Qtest) {s : Session} (h : s.Responds) {offs : List UInt16}
    (hoffs : ∀ off ∈ offs, off &&& 3 = 0 ∧ off.toNat ≠ regMmioRegRead) :
    ∃ s', readlessAll q s offs = .ok (offs.map fun off => enaRegRead s off.toNat,s') ∧
      s.ReadOnly s' := by
  induction offs generalizing s with
  | nil => exact ⟨s,rfl,.refl s⟩
  | cons off offs ih =>
    obtain ⟨halign,hne⟩ := hoffs off List.mem_cons_self
    have hread := Session.ReadOnly.answered q s off
    obtain ⟨s',hrest,hkept⟩ := ih (hread.responds h) fun o ho => hoffs o (List.mem_cons_of_mem _ ho)
    refine ⟨s',?_,hread.trans hkept⟩
    rw [readlessAll,enaReadless_eq q h halign,ok_bind]
    dsimp only
    rw [hrest,ok_bind]
    rw [pure_eq_ok,List.map_cons,regRead_eq,← hread.regFileRead (aligned_div halign hne)]
    refine congrArg (fun vals => Except.ok (_::vals,s')) (List.map_congr_left fun o ho => ?_)
    obtain ⟨halign',hne'⟩ := hoffs o (List.mem_cons_of_mem _ ho)
    rw [regRead_eq,regRead_eq,hread.regFileRead (aligned_div halign' hne')]

/-- A change of the device state alone. -/
def Session.onDev (s : Session) (f : EnaState → EnaState) : Session :=
  { s with w := s.w.setDev (f s.w.dev) }

lemma Session.onDev_onDev (s : Session) (f g : EnaState → EnaState) :
    (s.onDev f).onDev g = s.onDev (g ∘ f) := rfl

def Session.setReg (s : Session) (off : ℕ) (val : UInt32) : Session := s.onDev (·.setReg off val)

/-- A write to a register that only keeps its value. -/
lemma enaRegWrite_stored (q : Qtest) (s : Session) {off : ℕ} (h : storesValue off = true)
    (val : UInt32) :
    enaRegWrite q s off val = .ok (s.setReg off val) := by
  have hmem := List.contains_iff_mem.mp h
  have hstep : step q.net s.w (.regWrite off val.toUInt64) =
      .ok (s.w.setDev (s.w.dev.setReg off val.toUInt64.toUInt32)) := by
    simp only [List.mem_cons, List.not_mem_nil, or_false] at hmem
    rcases hmem with rfl | rfl | rfl | rfl | rfl | rfl | rfl | rfl | rfl <;> rfl
  rw [enaRegWrite,hstep,UInt32.toUInt32_toUInt64]
  rfl

/-- A 64-bit address written in two halves. -/
lemma split_join (a : UInt64) :
    ((a >>> 32).toUInt32.toUInt64 <<< 32) ||| a.toUInt32.toUInt64 = a := by
  apply UInt64.toNat_inj.mp
  have ha := a.toNat_lt
  rw [UInt64.toNat_or,UInt64.toNat_shiftLeft,UInt32.toNat_toUInt64,UInt32.toNat_toUInt64,
    UInt64.toNat_toUInt32,UInt64.toNat_toUInt32,UInt64.toNat_shiftRight,Nat.or_comm]
  have hhigh : a.toNat >>> (UInt64.toNat 32 % 64) % 2^32 = a.toNat/2^32 := by
    rw [Nat.shiftRight_eq_div_pow]
    exact Nat.mod_eq_of_lt (by change a.toNat/2^32 < 2^32; omega)
  rw [hhigh]
  exact Bits.join_cut (k := 32) ha

/-- The session after `ena_mmio_resp_setup`. -/
def Session.respSet (s : Session) : Session :=
  (s.setReg regMmioRespLo s.d.mmioResp.toUInt32).setReg regMmioRespHi (s.d.mmioResp >>> 32).toUInt32

lemma enaMmioRespSetup_eq (q : Qtest) (s : Session) : enaMmioRespSetup q s = .ok s.respSet := by
  unfold enaMmioRespSetup
  rw [enaRegWrite_stored q s (by decide),ok_bind,enaRegWrite_stored q _ (by decide)]
  rfl

lemma respSet_responds {s : Session} (h : s.d.mmioResp ≠ 0) : s.respSet.Responds :=
  ⟨split_join s.d.mmioResp,h⟩

/-- Version, status and a register that does not exist, with the sequence number about to wrap. -/
theorem readless_agrees_version :
    ∃ s', readlessAll plainQtest (Session.respSet ⟨{ newDriver with mmioSeq := 0xffff },freshWorld⟩)
      [0,0x58,0x70] =
        .ok ([0x200,1,0xffffffff],s') ∧
      (Session.respSet ⟨{ newDriver with mmioSeq := 0xffff },freshWorld⟩).ReadOnly s' := by
  have hresp : (Session.respSet ⟨{ newDriver with mmioSeq := 0xffff },freshWorld⟩).Responds :=
    respSet_responds (by decide)
  have hoffs : ∀ off ∈ ([0,0x58,0x70] : List UInt16), off &&& 3 = 0 ∧
      off.toNat ≠ regMmioRegRead := by
    rw [List.forall_mem_cons,List.forall_mem_cons,List.forall_mem_singleton]
    exact ⟨⟨by decide,by decide⟩,⟨by decide,by decide⟩,by decide,by decide⟩
  exact readless_agrees plainQtest hresp hoffs

/-- The wait for a reset state that the device is in. -/
lemma enaWaitResetState_eq (q : Qtest) {s : Session} (sts expected : UInt32) (h : s.Responds)
    (hsts : s.w.dev.getReg regDevSts = sts) (hmask : sts &&& devStsResetInProgress = expected)
    (n : ℕ) :
    ∃ s', enaWaitResetState q expected (n+1) s = .ok s' ∧ s.ReadOnly s' := by
  refine ⟨_,?_,.answered q s (UInt16.ofNat regDevSts)⟩
  have hread : enaRegFileRead (s.requested (UInt16.ofNat regDevSts))
    (UInt16.ofNat regDevSts).toNat = sts := hsts
  rw [enaWaitResetState,enaReadless_eq q h (by decide),ok_bind,hread]
  exact if_pos hmask

/-- The device right after `DEV_CTL` was told to reset. -/
def Session.resetting (s : Session) : Session :=
  { s with
    w := (EnaDevice.enaDevReset s.w).setDev
      ((s.w.dev.devReset.setReg regDevCtl 1).setReg regDevSts devStsResetInProgress) }

lemma enaRegWrite_reset (q : Qtest) (s : Session) :
    enaRegWrite q s regDevCtl ((1 : UInt32) ||| (0 : UInt32) <<< 28) = .ok s.resetting := rfl

/-- The write of 0 that ends the handshake. -/
lemma enaRegWrite_done (q : Qtest) {s : Session}
    (h : s.w.dev.getReg regDevSts = devStsResetInProgress) :
    enaRegWrite q s regDevCtl 0 = .ok ((s.setReg regDevCtl 0).setReg regDevSts devStsReady) := by
  have hsts : (s.w.dev.setReg regDevCtl 0).getReg regDevSts = devStsResetInProgress := h
  have hctl : enaDevCtlWrite s.w 0 =
      .ok (s.w.setDev ((s.w.dev.setReg regDevCtl 0).setReg regDevSts devStsReady)) := by
    unfold enaDevCtlWrite
    rw [if_neg (by decide),if_neg (by decide),if_neg (by decide)]
    dsimp only
    rw [hsts,if_pos (by decide)]
  have hstep : step q.net s.w (.regWrite regDevCtl (0 : UInt32).toUInt64) = enaDevCtlWrite s.w 0 :=
    rfl
  rw [enaRegWrite,hstep,hctl]
  rfl

/-- What a reset handshake leaves: a device right out of reset that knows the response buffer. -/
def handshaken (s : EnaState) (resp : UInt64) (req : UInt32) : EnaState :=
  ((s.devReset.setReg regMmioRespLo resp.toUInt32).setReg regMmioRespHi
    (resp >>> 32).toUInt32).setReg
    regMmioRegRead req

/-- The registers of the handshake itself are back at their reset values. -/
lemma handshaken_regs (lo hi req₁ req : UInt32) :
    Function.update (Function.update
      (Function.update (Function.update (Function.update (Function.update
      (Function.update (Function.update regReset 21 1) 22 devStsResetInProgress) 24 lo) 25 hi) 23
        req₁) 21 0) 22
        devStsReady) 23 req =
      Function.update (Function.update (Function.update regReset 24 lo) 25 hi) 23 req := by
  funext k
  fin_cases k <;> rfl

/-- The reset handshake succeeds from any state of the device, in no time, and leaves nothing of
that state but the MAC address and the properties. -/
theorem enaDevReset_handshake (q : Qtest) {s : Session} (h : s.d.mmioResp ≠ 0) :
    ∃ s' req, enaDevReset q s = .ok s' ∧
      s'.w.dev = handshaken s.w.dev s.d.mmioResp req ∧
      s'.Responds ∧ (∃ seq, s'.d = { s.d with mmioSeq := seq }) ∧
      Memory.Agrees (InRegion s.d.mmioResp 8) s.w.mem s'.w.mem ∧
      s'.w.llq = s.w.llq ∧ s'.w.clock = s.w.clock ∧ s'.w.linkUp = s.w.linkUp := by
  have hresp : s.resetting.respSet.Responds := respSet_responds h
  obtain ⟨s₁,h₁,hr₁⟩ := enaWaitResetState_eq q devStsResetInProgress devStsResetInProgress hresp rfl
    (by decide) 999
  obtain ⟨req₁,hdev₁⟩ := hr₁.dev
  have hsts : s₁.w.dev.getReg regDevSts = devStsResetInProgress := by
    rw [hdev₁]
    rfl
  have hdone := enaRegWrite_done q hsts
  have hresp₁ := hr₁.responds hresp
  have hresp₂ : ((s₁.setReg regDevCtl 0).setReg regDevSts devStsReady).Responds :=
    ⟨hresp₁.eq,hresp₁.ne⟩
  obtain ⟨s₃,h₃,hr₃⟩ := enaWaitResetState_eq q devStsReady 0 hresp₂ rfl (by decide) 999
  have hr₄ := Session.ReadOnly.answered q s₃ (UInt16.ofNat regDevSts)
  have hr := hr₃.trans hr₄
  obtain ⟨req,hdev⟩ := hr.dev
  obtain ⟨seq₁,hd₁⟩ := hr₁.driver
  obtain ⟨seq,hd⟩ := hr.driver
  refine ⟨_,req,?_,?_,hr.responds hresp₂,⟨seq,?_⟩,?_,hr.llq.trans hr₁.llq,hr.clock.trans hr₁.clock,
    hr.linkUp.trans hr₁.linkUp⟩
  · unfold enaDevReset
    rw [enaRegWrite_reset,ok_bind,enaMmioRespSetup_eq,ok_bind,h₁,ok_bind,hdone,ok_bind,h₃,ok_bind,
      enaReadless_eq q (hr₃.responds hresp₂) (by decide),ok_bind]
    have hready : enaRegFileRead (s₃.requested (UInt16.ofNat regDevSts))
      (UInt16.ofNat regDevSts).toNat =
        devStsReady := by
      obtain ⟨req₃,hdev₃⟩ := hr₃.dev
      rw [Session.requested,hdev₃]
      rfl
    rw [hready]
    rfl
  · rw [hdev]
    change (((s₁.w.dev.setReg regDevCtl 0).setReg regDevSts devStsReady).setReg regMmioRegRead
      req) = _
    rw [hdev₁]
    exact congrArg (fun r => { s.w.dev.devReset with reg := r }) (handshaken_regs _ _ _ _)
  · rw [hd]
    change { s₁.d with mmioSeq := seq } = _
    rw [hd₁]
    rfl
  · have hmem := hr.mem
    change Memory.Agrees (InRegion s₁.d.mmioResp 8) s₁.w.mem _ at hmem
    rw [hd₁] at hmem
    exact hr₁.mem.trans hmem

/-- Depth and entry size as the driver programs them. -/
def queueCaps (depth : UInt16) : UInt32 := depth.toUInt32 ||| (64 : UInt32) <<< 16

def aqCapsSet (s : EnaState) : EnaState :=
  { s.setReg regAqCaps (queueCaps enaTestAqDepth) with aqHead := 0 }

def acqCapsSet (s : EnaState) : EnaState :=
  { s.setReg regAcqCaps (queueCaps enaTestAqDepth) with acqTail := 0, acqPhase := true }.setReg
    regAcqTail 0

def aenqCapsSet (s : EnaState) : EnaState :=
  { s.setReg regAenqCaps (queueCaps enaTestAenqDepth) with aenqTail := 0, aenqPhase := true }.setReg
    regAenqTail 0

def baseSet (s : EnaState) (lo hi : ℕ) (base : UInt64) : EnaState :=
  (s.setReg lo base.toUInt32).setReg hi (base >>> 32).toUInt32

/-- The device after `ena_admin_init`. -/
def ringsProgrammed (s : EnaState) (aq acq aenq : UInt64) : EnaState :=
  aenqCapsSet (baseSet (acqCapsSet (aqCapsSet
    (baseSet (baseSet s regAqBaseLo regAqBaseHi aq) regAcqBaseLo regAcqBaseHi acq)))
    regAenqBaseLo regAenqBaseHi aenq)

section Init
variable (q : Qtest) (s : Session)

lemma enaRegWrite_aqCaps : enaRegWrite q s regAqCaps (queueCaps enaTestAqDepth) =
    .ok (s.onDev aqCapsSet) := rfl

lemma enaRegWrite_acqCaps : enaRegWrite q s regAcqCaps (queueCaps enaTestAqDepth) =
    .ok (s.onDev acqCapsSet) := rfl

lemma enaRegWrite_aenqCaps : enaRegWrite q s regAenqCaps (queueCaps enaTestAenqDepth) =
    .ok (s.onDev aenqCapsSet) := rfl

end Init

/-- The driver after `ena_admin_init`. -/
def ringsOwned (d : QEna) (aq acq aenq : UInt64) : QEna :=
  { d with
    aq := aq, acq := acq, aenq := aenq, aqTail := 0, acqHead := 0, acqPhase := true,
    aenqHead := enaTestAenqDepth, aenqPhase := true }

/-- The memory after `ena_admin_init`. -/
def ringsZeroed (m : Memory) (aq acq aenq : UInt64) : Memory :=
  ((m.write aq (zeros (enaTestAqDepth.toNat*enaAdminEntrySize))).write acq
    (zeros (enaTestAqDepth.toNat*enaAdminEntrySize))).write aenq
    (zeros (enaTestAenqDepth.toNat*enaAdminEntrySize))

lemma enaAllocZeroed_eq {s : Session} {addr : UInt64} (h : addr ≠ 0) (size : ℕ) :
    enaAllocZeroed s addr size = .ok (qtestMemwrite s addr (zeros size)) := by
  simp [enaAllocZeroed,gAssert,h]

lemma enaAdminInit_eq (q : Qtest) (s : Session) {aq acq aenq : UInt64} (haq : aq ≠ 0)
    (hacq : acq ≠ 0) (haenq : aenq ≠ 0) :
    enaAdminInit q s aq acq aenq = .ok ⟨ringsOwned s.d aq acq aenq,
      { s.w with
        dev := ringsProgrammed s.w.dev aq acq aenq, mem := ringsZeroed s.w.mem aq acq aenq }⟩ := by
  unfold enaAdminInit
  rw [enaAllocZeroed_eq haq,ok_bind,enaAllocZeroed_eq hacq,ok_bind,enaAllocZeroed_eq haenq,ok_bind]
  dsimp only
  rw [enaRegWrite_stored q _ (by decide),ok_bind,enaRegWrite_stored q _ (by decide),ok_bind,
    enaRegWrite_stored q _ (by decide),ok_bind,enaRegWrite_stored q _ (by decide),ok_bind,
      ← queueCaps,
    enaRegWrite_aqCaps,ok_bind,enaRegWrite_acqCaps,ok_bind,enaRegWrite_stored q _ (by decide),
      ok_bind,
    enaRegWrite_stored q _ (by decide),ok_bind,← queueCaps,enaRegWrite_aenqCaps]
  simp only [Session.setReg, Session.onDev_onDev]
  rfl

/-- What `guest_alloc` is relied on for: three pieces of memory that do not overlap and can be
read. -/
structure Allocated (m : Memory) (aq acq aenq : UInt64) : Prop where
  apart : Apart aq 2048 acq 2048
  aqEvents : Apart aq 2048 aenq 1024
  acqEvents : Apart acq 2048 aenq 1024
  readable : m.ringOk aq 64 32
  aqNe : aq ≠ 0
  acqNe : acq ≠ 0
  aenqNe : aenq ≠ 0

/-- The rings of the driver. -/
def rings (d : QEna) : AdminRings := ⟨d.aq,d.acq,enaTestAqDepth,enaTestAqDepth⟩

section Start
variable {m : Memory} {aq acq aenq : UInt64}

/-- A byte of one slot of a ring. -/
lemma inRegion_slot (base : UInt64) {d k off : ℕ} (hk : k < d) (hoff : off < 64) :
    InRegion base (d*64) (base + UInt64.ofNat (k*64) + UInt64.ofNat off) :=
  Memory.slot_within base hk _ (Memory.inRegion_add _ ⟨off,hoff⟩)

lemma ringsZeroed_acq {k : ℕ} (hk : k < 32) :
    phaseBit ((ringsZeroed m aq acq aenq).slot acq 64 k) = false := by
  have hin : InRegion acq (enaTestAqDepth.toNat*enaAdminEntrySize)
      (acq + UInt64.ofNat (k*64) + UInt64.ofNat 3) :=
    inRegion_slot acq (d := 32) hk (by norm_num)
  have hzero : (ringsZeroed m aq acq aenq).byte (acq + UInt64.ofNat (k*64) + UInt64.ofNat 3) =
      0 := by
    rw [ringsZeroed,Memory.byte_write_zeros,Memory.byte_write_zeros,if_pos hin,ite_self]
  rw [phaseBit,Memory.slot,Memory.u8At_bytesAt _ _ (by norm_num),hzero]
  rfl

lemma ringsZeroed_aenq {k : ℕ} (hk : k < 16) :
    aenqPhaseBit ((ringsZeroed m aq acq aenq).slot aenq 64 k) = false := by
  have hin : InRegion aenq (enaTestAenqDepth.toNat*enaAdminEntrySize)
      (aenq + UInt64.ofNat (k*64) + UInt64.ofNat 4) :=
    inRegion_slot aenq (d := 16) hk (by norm_num)
  have hzero : (ringsZeroed m aq acq aenq).byte (aenq + UInt64.ofNat (k*64) + UInt64.ofNat 4) =
      0 := by
    rw [ringsZeroed,Memory.byte_write_zeros,if_pos hin]
  rw [aenqPhaseBit,Memory.slot,Memory.u8At_bytesAt _ _ (by norm_num),hzero]
  rfl

lemma ringsZeroed_ringOk {base : UInt64} {size d : ℕ} (h : m.ringOk base size d) :
    (ringsZeroed m aq acq aenq).ringOk base size d := by
  intro k hk
  have hok := h k hk
  unfold Memory.okAt at hok ⊢
  exact hok

lemma Allocated.ringsOk (h : Allocated m aq acq aenq) (d : QEna) :
    (rings (ringsOwned d aq acq aenq)).Ok where
  aqBase := h.aqNe
  acqBase := h.acqNe
  aqDepth := ⟨5,rfl⟩
  acqDepth := ⟨5,rfl⟩
  apart := h.apart

/-- The device after bring-up. -/
def broughtUp (s : EnaState) (aq acq aenq : UInt64) : EnaState :=
  (ringsProgrammed s aq acq aenq).setReg regAenqHeadDb enaTestAenqDepth.toUInt32

lemma broughtUp_adminRings (s : EnaState) (d : QEna) :
    (broughtUp s aq acq aenq).adminRings = rings (ringsOwned d aq acq aenq) := by
  have haq : (broughtUp s aq acq aenq).aqBase = aq := split_join aq
  have hacq : (broughtUp s aq acq aenq).acqBase = acq := split_join acq
  have hdepth : (queueCaps enaTestAqDepth &&& 0xffff).toUInt16 = enaTestAqDepth := by decide
  have haqCaps : (broughtUp s aq acq aenq).capsDepth regAqCaps = enaTestAqDepth := hdepth
  have hacqCaps : (broughtUp s aq acq aenq).capsDepth regAcqCaps = enaTestAqDepth := hdepth
  rw [EnaState.adminRings,haq,hacq,haqCaps,hacqCaps]
  rfl

lemma broughtUp_aenqBase (s : EnaState) : (broughtUp s aq acq aenq).aenqBase = aenq :=
  split_join aenq

lemma broughtUp_aenqDepth (s : EnaState) : (broughtUp s aq acq aenq).aenqDepth = enaTestAenqDepth :=
  show (queueCaps enaTestAenqDepth &&& 0xffff).toUInt16 = enaTestAenqDepth by decide

/-- The session after bring-up. -/
def Session.broughtUp (s : Session) (aq acq aenq : UInt64) : Session where
  d := ringsOwned s.d aq acq aenq
  w := { s.w with
    dev := Driver.broughtUp s.w.dev aq acq aenq, mem := ringsZeroed s.w.mem aq acq aenq }

lemma broughtUp_adminStart {s : Session} (h : Allocated s.w.mem aq acq aenq) :
    AdminChannel.Start (rings (ringsOwned s.d aq acq aenq))
      ⟨(s.broughtUp aq acq aenq).w,⟨0,true⟩,[],0,[],[]⟩ where
  ok := h.ringsOk s.d
  rings := broughtUp_adminRings _ _
  aqHead := rfl
  acqTail := rfl
  acqPhase := rfl
  acqTailReg := rfl
  clear k hk := ringsZeroed_acq hk
  readable := ringsZeroed_ringOk h.readable
  aenq _ := by
    have hbase : (s.broughtUp aq acq aenq).w.dev.aenqBase = aenq := broughtUp_aenqBase _
    have hdepth : (s.broughtUp aq acq aenq).w.dev.capsDepth regAenqCaps = enaTestAenqDepth :=
      broughtUp_aenqDepth _
    rw [hbase,hdepth]
    exact ⟨h.aqEvents,h.acqEvents⟩
  driver := rfl
  posted := rfl
  announced := rfl
  executed := rfl
  polled := rfl

lemma broughtUp_aenqStart {s : Session} (h : Allocated s.w.mem aq acq aenq) :
    AenqChannel.Start ⟨(s.broughtUp aq acq aenq).w,⟨enaTestAenqDepth,true⟩,[],[]⟩ := by
  have hbase : (s.broughtUp aq acq aenq).w.dev.aenqBase = aenq := broughtUp_aenqBase _
  have hdepth : (s.broughtUp aq acq aenq).w.dev.aenqDepth = enaTestAenqDepth :=
    broughtUp_aenqDepth _
  refine ⟨?_,?_,rfl,rfl,rfl,?_,?_,?_,rfl,rfl⟩
  · rw [hbase]
    exact h.aenqNe
  · rw [hdepth]
    exact ⟨4,rfl⟩
  · rw [hdepth]
    rfl
  · intro k hk
    rw [hdepth] at hk
    rw [World.aenqRing,hbase]
    exact ringsZeroed_aenq hk
  · rw [hdepth]

end Start

lemma broughtUp_mmioResp (s : EnaState) (aq acq aenq : UInt64) :
    (broughtUp s aq acq aenq).mmioResp = s.mmioResp := by
  have hreg : ∀ k : Fin 28, k = 24 ∨ k = 25 → (broughtUp s aq acq aenq).reg k = s.reg k := by
    intro k hk
    simp only [broughtUp, ringsProgrammed, aenqCapsSet, acqCapsSet, aqCapsSet, baseSet,
      EnaState.setReg,Function.update_apply]
    rcases hk with rfl | rfl <;> rfl
  have hlo : (broughtUp s aq acq aenq).getReg regMmioRespLo = s.getReg regMmioRespLo :=
    hreg 24 (.inl rfl)
  have hhi : (broughtUp s aq acq aenq).getReg regMmioRespHi = s.getReg regMmioRespHi :=
    hreg 25 (.inr rfl)
  rw [EnaState.mmioResp,EnaState.regPair,hlo,hhi]
  rfl

lemma broughtUp_queues (s : EnaState) (aq acq aenq : UInt64) (resp : UInt64) (req : UInt32) :
    SameQueues s.devReset (broughtUp (handshaken s resp req) aq acq aenq) :=
      ⟨rfl,rfl,rfl,rfl,rfl,rfl⟩

/-- Bring-up succeeds from any state of the device. -/
lemma enaBringup_eq (q : Qtest) {s : Session} {aq acq aenq : UInt64} (hresp : s.d.mmioResp ≠ 0)
    (h : Allocated s.w.mem aq acq aenq) :
    ∃ s₁ : Session, enaBringup q s aq acq aenq = .ok (s₁.broughtUp aq acq aenq) ∧
      Allocated s₁.w.mem aq acq aenq ∧
      s₁.Responds ∧ SameQueues s.w.dev.devReset (broughtUp s₁.w.dev aq acq aenq) ∧
      s₁.w.mem.readable = s.w.mem.readable := by
  obtain ⟨s₁,req,hreset,hdev,hresp₁,-,hmem,-,-,-⟩ := enaDevReset_handshake q hresp
  refine ⟨s₁,?_,{ h with readable := fun k hk => by rw [hmem.okAt]; exact h.readable k hk },hresp₁,
    ?_,hmem.readable⟩
  · unfold enaBringup
    rw [hreset,ok_bind,enaAdminInit_eq q s₁ h.aqNe h.acqNe h.aenqNe,ok_bind]
    unfold enaAenqEnable
    rw [enaRegWrite_stored q _ (by decide)]
    rfl
  · rw [hdev]
    exact broughtUp_queues _ _ _ _ _ _

/-- After bring-up, from whatever state, the admin queue and the AENQ are as their channels start,
readless reads are answered, and no IO queue is in use. -/
theorem bringup_starts (q : Qtest) {s : Session} {aq acq aenq : UInt64} (hresp : s.d.mmioResp ≠ 0)
    (h : Allocated s.w.mem aq acq aenq) :
    ∃ s', enaBringup q s aq acq aenq = .ok s' ∧ s'.d.aqTail = 0 ∧
      AdminChannel.Start (rings s'.d) ⟨s'.w,⟨s'.d.acqHead,s'.d.acqPhase⟩,[],0,[],[]⟩ ∧
      AenqChannel.Start ⟨s'.w,⟨s'.d.aenqHead,s'.d.aenqPhase⟩,[],[]⟩ ∧
      s'.Responds ∧ TableInv s'.w.dev ∧ ∀ i, (s'.w.dev.sq i).used = false ∧
      (s'.w.dev.cq i).used = false := by
  obtain ⟨s₁,hbring,halloc,hresp₁,hqueues,-⟩ := enaBringup_eq q hresp h
  refine ⟨_,hbring,rfl,broughtUp_adminStart halloc,broughtUp_aenqStart halloc,
    ⟨(broughtUp_mmioResp _ _ _ _).trans hresp₁.eq,hresp₁.ne⟩,
    (tableInv_devReset s.w.dev).of_sameQueues hqueues,fun i => ?_⟩
  have hsq : (s₁.broughtUp aq acq aenq).w.dev.sq = _ := hqueues.sq
  have hcq : (s₁.broughtUp aq acq aenq).w.dev.cq = _ := hqueues.cq
  rw [hsq,hcq]
  exact ⟨rfl,rfl⟩

lemma freshWorld_readable (base : UInt64) (size d : ℕ) : freshWorld.mem.ringOk base size d := by
  intro k _
  simp [Memory.okAt,freshWorld,World.powerOn,EnaDevice.enaDevReset,World.setDev,World.emit]

lemma ringOk_fresh {m : Memory} (h : m.readable = freshWorld.mem.readable) (base : UInt64)
    (size d : ℕ) : m.ringOk base size d := by
  intro k hk
  rw [Memory.okAt,h]
  exact freshWorld_readable base size d k hk

lemma allocated_fresh : Allocated freshWorld.mem 0x1000 0x2000 0x3000 where
  apart := apart_of_le (by decide) (by decide)
  aqEvents := apart_of_le (by decide) (by decide)
  acqEvents := apart_of_le (by decide) (by decide)
  readable := freshWorld_readable _ _ _
  aqNe := by decide
  acqNe := by decide
  aenqNe := by decide

/-- A driver that lost track starts over on a device with a queue pair in use. -/
theorem bringup_starts_again :
    ∃ w s', run Net.nonIp freshWorld (driverSetup [createCqCmd,createSqCmd sqIdentityTx] []) =
      .ok w ∧
      (w.dev.sq 0).used = true ∧ (w.dev.cq 0).used = true ∧
      enaBringup plainQtest ⟨{ newDriver with aqTail := 2, acqHead := 1, mmioSeq := 9 },w⟩
        0x1000 0x2000 0x3000 = .ok s' ∧ s'.d.aqTail = 0 ∧
      AdminChannel.Start (rings s'.d) ⟨s'.w,⟨s'.d.acqHead,s'.d.acqPhase⟩,[],0,[],[]⟩ ∧
      AenqChannel.Start ⟨s'.w,⟨s'.d.aenqHead,s'.d.aenqPhase⟩,[],[]⟩ ∧
      s'.Responds ∧ TableInv s'.w.dev ∧
      ∀ i, (s'.w.dev.sq i).used = false ∧ (s'.w.dev.cq i).used = false := by
  obtain ⟨w,hrun,htest⟩ := exists_of_okAnd
    (p := fun w : World => (w.dev.sq 0).used && (w.dev.cq 0).used &&
      (List.range 32).all fun k => w.mem.okAt (0x1000 + UInt64.ofNat (k*64)) 64)
    (x := run Net.nonIp freshWorld (driverSetup [createCqCmd,createSqCmd sqIdentityTx] []))
    (by decide +kernel)
  simp only [Bool.and_eq_true,List.all_eq_true,List.mem_range] at htest
  obtain ⟨⟨hsq,hcq⟩,hread⟩ := htest
  have halloc : Allocated w.mem 0x1000 0x2000 0x3000 := { allocated_fresh with readable := hread }
  have hresp : newDriver.mmioResp ≠ 0 := by decide
  obtain ⟨s',hstarts⟩ := @bringup_starts plainQtest
    ⟨{ newDriver with aqTail := 2, acqHead := 1, mmioSeq := 9 },w⟩ _ _ _ hresp halloc
  exact ⟨w,s',hrun,hsq,hcq,hstarts⟩

end EnaDevice.Driver
