import EnaDevice.Control.Allocator
import EnaDevice.Cq.Channel
import EnaDevice.Driver.Admin
import EnaDevice.Driver.RxUtil
import EnaDevice.Driver.TxUtil

/-! Queue pairs as the driver creates them: the commands say what was asked for, the driver finds in
the answers what the device gave it, and the rings start out empty. -/
namespace EnaDevice.Driver
open Bytes Result Slots

/-- An address survives in a record if its upper 16 bits are clear. -/
lemma enaMemAddr_memAddr {a : UInt64} (h : a.toNat < 2^48) :
    ((a >>> 32).toUInt16.toUInt64 <<< 32) ||| a.toUInt32.toUInt64 = a := by
  apply UInt64.toNat_inj.mp
  rw [UInt64.toNat_or,UInt64.toNat_shiftLeft,UInt16.toNat_toUInt64,UInt32.toNat_toUInt64,
    UInt64.toNat_toUInt16,UInt64.toNat_toUInt32,UInt64.toNat_shiftRight,Nat.or_comm]
  have hhigh : a.toNat >>> (UInt64.toNat 32 % 64) % 2^16 = a.toNat/2^32 := by
    rw [Nat.shiftRight_eq_div_pow]
    exact Nat.mod_eq_of_lt (by change a.toNat/2^32 < 2^16; omega)
  rw [hhigh]
  exact Bits.join_cut (k := 32) a.toNat_lt

lemma idx_toNat (c : Fin 16) : (UInt16.ofNat c).toNat = c.val := by
  have hc := c.isLt
  rw [UInt16.toNat_ofNat']
  omega

section Commands
variable (s : Session)

lemma ofBytes_createCqReq (depth : UInt16) (words : UInt8) (vector : UInt32) {base : UInt64}
    (hbase : base.toNat < 2^48) :
    CreateCqCmd.ofBytes (s.entry (createCqReq depth words vector base)) =
      ⟨0x20,words &&& 0x1f,depth,vector,base⟩ := by
  have hdepth : le16At (s.entry (createCqReq depth words vector base)) 6 = depth :=
    le16At_ofLe16 depth []
  have hvector : le32At (s.entry (createCqReq depth words vector base)) 8 = vector :=
    le32At_ofLe32 vector []
  have hlo : le32At (s.entry (createCqReq depth words vector base)) 12 = base.toUInt32 :=
    le32At_ofLe32 base.toUInt32 []
  have hhi : le16At (s.entry (createCqReq depth words vector base)) 16 = (base >>> 32).toUInt16 :=
    le16At_ofLe16 (base >>> 32).toUInt16 []
  rw [CreateCqCmd.ofBytes,hdepth,hvector,enaMemAddr,hlo,hhi,enaMemAddr_memAddr hbase]
  rfl

lemma ofBytes_createSqReq (tx : Bool) (placement : UInt8) (cqIdx depth : UInt16) {base : UInt64}
    (hbase : base.toNat < 2^48) :
    CreateSqCmd.ofBytes (s.entry (createSqReq tx placement cqIdx depth base)) =
      ⟨sqIdentity tx,placement,1,cqIdx,depth,base,0⟩ := by
  have hcq : le16At (s.entry (createSqReq tx placement cqIdx depth base)) 8 = cqIdx :=
    le16At_ofLe16 cqIdx []
  have hdepth : le16At (s.entry (createSqReq tx placement cqIdx depth base)) 10 = depth :=
    le16At_ofLe16 depth []
  have hlo : le32At (s.entry (createSqReq tx placement cqIdx depth base)) 12 = base.toUInt32 :=
    le32At_ofLe32 base.toUInt32 []
  have hhi : le16At (s.entry (createSqReq tx placement cqIdx depth base)) 16 =
      (base >>> 32).toUInt16 :=
    le16At_ofLe16 (base >>> 32).toUInt16 []
  have haddr : enaMemAddr (s.entry (createSqReq tx placement cqIdx depth base)) 12 = base := by
    rw [enaMemAddr,hlo,hhi,enaMemAddr_memAddr hbase]
  have hback : enaMemAddr (s.entry (createSqReq tx placement cqIdx depth base)) 20 = 0 := by
    have hzero : le32At (s.entry (createSqReq tx placement cqIdx depth base)) 20 = 0 :=
      le32At_ofLe32 0 []
    have hzero' : le16At (s.entry (createSqReq tx placement cqIdx depth base)) 24 = 0 :=
      le16At_ofLe16 0 []
    rw [enaMemAddr,hzero,hzero']
    rfl
  rw [CreateSqCmd.ofBytes,hcq,hdepth,haddr,hback]
  rfl

/-- A field of the answer, behind the common descriptor of the completion. -/
lemma le16At_completion (status : AdminStatus) (resp : Bytes) {n k : ℕ} (h : 8 + n + 1 < k) :
    le16At ((s.completion status resp).take k) (8 + n) = le16At resp n := by
  rw [le16At_take h,← le16At_pad 56 resp]
  exact le16At_append_right _ (pad 56 resp) n

lemma le32At_completion (status : AdminStatus) (resp : Bytes) {n k : ℕ} (h : 8 + n + 3 < k) :
    le32At ((s.completion status resp).take k) (8 + n) = le32At resp n := by
  rw [le32At_take h,← le32At_pad 56 resp]
  exact le32At_append_right _ (pad 56 resp) n

end Commands

/-- The bytes that admin commands go through. -/
def AdminBytes (d : QEna) (x : UInt64) : Prop := InRegion d.aq 2048 x ∨ InRegion d.acq 2048 x

/-- The session after a call that left these tables and changed nothing else that matters to
queues. -/
structure QueueCall (s s' : Session) (sq : SqIdx → EnaSq) (cq : CqIdx → EnaCq) : Prop where
  sq : s'.w.dev.sq = sq
  cq : s'.w.dev.cq = cq
  llqEnabled : s'.w.dev.llqEnabled = s.w.dev.llqEnabled
  llqEntrySize : s'.w.dev.llqEntrySize = s.w.dev.llqEntrySize
  mem : s.w.mem.Agrees (AdminBytes s.d) s'.w.mem
  driver : s'.d.aq = s.d.aq ∧ s'.d.acq = s.d.acq
  tables : TableInv s.w.dev ∧ TxIdle none s.w.dev → TableInv s'.w.dev ∧ TxIdle none s'.w.dev

/-- A slot of one of the two rings. -/
lemma adminSlot_within (base : UInt64) (t : UInt16) :
    Within (base + (t % enaTestAqDepth).toUInt64*64) 64 base 2048 := by
  apply within_add
  have hlt : (t % enaTestAqDepth).toNat < 32 := by
    rw [UInt16.toNat_mod]
    exact Nat.mod_lt _ (by decide)
  rw [UInt64.toNat_mul,UInt16.toNat_toUInt64]
  change (t % enaTestAqDepth).toNat*64 % 2^64 + 64 ≤ 2048
  omega

section Call
variable {s : Session} {log : List (Bytes × UInt8)} {cmd resp : Bytes} {status : AdminStatus}
  {t : EnaState}

lemma returned_mem (w : World) : (s.returned cmd status resp w).w.mem =
    w.mem.write (s.d.acq + (w.dev.acqTail % enaTestAqDepth).toUInt64*64)
      (acqEntry (le16At (s.entry cmd) 0) status w.dev.acqPhase w.dev.aqHead resp) := by
  change (enaAdminIntr _).mem = _
  rw [dev_adminIntr_mem]
  rfl

lemma returned_dev (w : World) : (s.returned cmd status resp w).w.dev.sq = w.dev.sq ∧
    (s.returned cmd status resp w).w.dev.cq = w.dev.cq ∧
    (s.returned cmd status resp w).w.dev.llqEnabled = w.dev.llqEnabled ∧
    (s.returned cmd status resp w).w.dev.llqEntrySize = w.dev.llqEntrySize := by
  have hdev : (s.returned cmd status resp w).w.dev =
      (World.settled w (rings s.d) (s.entry cmd) status resp).dev := dev_adminIntr _
  rw [hdev]
  exact ⟨rfl,rfl,rfl,rfl⟩

/-- A call whose command worked on the device alone. -/
lemma Ready.queueCall (h : Ready s log) (net : Net) (hcmd : cmd.length ≤ 64)
    (hctrl : CtrlClear (rings s.d) (s.entry cmd))
    (hex : enaAdminExec (s.called cmd) (s.entry cmd) = .ok (status,resp,(s.called cmd).setDev t))
    (hresp : resp.length ≤ 56) (hon : t.llqEnabled = s.w.dev.llqEnabled)
    (hsize : t.llqEntrySize = s.w.dev.llqEntrySize) :
    QueueCall s (s.returned cmd status resp ((s.called cmd).setDev t)) t.sq t.cq := by
  obtain ⟨hsq,hcq,hllq,hentry⟩ := @returned_dev s cmd resp status ((s.called cmd).setDev t)
  refine ⟨hsq,hcq,hllq.trans hon,hentry.trans hsize,?_,⟨rfl,rfl⟩,fun htables => ?_⟩
  · rw [returned_mem]
    refine Memory.Agrees.trans (show s.w.mem.Agrees (AdminBytes s.d) (s.called cmd).mem from ?_) ?_
    · refine .write fun x hx => .inl (adminSlot_within s.d.aq s.d.aqTail x ?_)
      rw [Session.entry,aqEntry_length _ _ hcmd] at hx
      exact hx
    · refine .write fun x hx => .inr (adminSlot_within s.d.acq t.acqTail x ?_)
      rw [acqEntry_length _ _ _ _ hresp] at hx
      exact hx
  · have hstep := h.doorbell net hcmd hctrl
    rw [hex,ok_bind] at hstep
    exact step_tables (w := { s.w with mem := (s.called cmd).mem }) htables hstep

end Call

/-- Arguments of `ena_create_cq` that the device takes, with an address that fits its record. -/
structure CqArgs (depth : UInt16) (words : UInt8) (vector : UInt32) (base : UInt64) : Prop where
  valid : enaValidDepth depth = true
  words : words = 2 ∨ words = 4 ∨ words = 8
  vector : vector = enaMsixVectorNone ∨ (vector ≠ 0 ∧ vector < 9)
  baseNe : base ≠ 0
  address : base.toNat < 2^48

/-- The CQ that the driver asks for. -/
def askedCq (depth : UInt16) (words : UInt8) (vector : UInt32) (base : UInt64) : EnaCq :=
  ⟨true,base,depth,words*4,true,vector,0,true⟩

section Cq
variable {s : Session} {log : List (Bytes × UInt8)} {depth : UInt16} {words : UInt8}
  {vector : UInt32} {base : UInt64}

lemma CqArgs.ok (h : CqArgs depth words vector base) (s : Session) :
    (CreateCqCmd.ofBytes (s.entry (createCqReq depth words vector base))).Ok ∧
      (CreateCqCmd.ofBytes (s.entry (createCqReq depth words vector base))).newCq =
        askedCq depth words vector base := by
  have hmask : words &&& 0x1f = words := by
    rcases h.words with rfl | rfl | rfl <;> rfl
  have hintr : ((0x20 : UInt8) &&& 0x20 != 0) = true := rfl
  rw [ofBytes_createCqReq s depth words vector h.address,hmask]
  refine ⟨⟨h.valid,?_,h.baseNe,fun _ => h.vector⟩,?_⟩
  · rw [hmask]
    exact h.words
  · simp only [CreateCqCmd.newCq,askedCq,hmask,hintr]

/-- `ena_create_cq` gets the lowest free slot, or is told that there is none. -/
lemma Ready.createCq (h : Ready s log) (q : Qtest) (ha : CqArgs depth words vector base) :
    (Full s.w.dev.book.cq → ∃ resp s', enaCreateCq q s depth words vector base =
      .ok (AdminStatus.resourceAllocationFailure.code,resp,s')) ∧
    ∀ c, Lowest s.w.dev.book.cq c →
      ∃ resp s' e, enaCreateCq q s depth words vector base = .ok (0,resp,s') ∧
      le16At resp 8 = UInt16.ofNat c ∧ le32At resp 20 = UInt32.ofNat (regCqUnmaskBase + c*4) ∧
      QueueCall s s' s.w.dev.sq (Function.update s.w.dev.cq c (askedCq depth words vector base)) ∧
      Ready s' (log ++ [(e,0)]) := by
  obtain ⟨hok,hnew⟩ := ha.ok s
  have hlen : (createCqReq depth words vector base).length ≤ 64 := by simp [createCqReq,memAddr]
  have hctrl := @ctrlClear_entry (createCqReq depth words vector base) nofun (rings s.d) s
  have hret := (h.call q hlen hctrl (show 24 ≤ 64 by norm_num)).2
  have hexec : enaAdminExec (s.called (createCqReq depth words vector base))
      (s.entry (createCqReq depth words vector base)) =
        .ok ((s.called (createCqReq depth words vector base)).onDev (EnaDevice.enaCreateCq
          (s.called (createCqReq depth words vector base)).dev
            (s.entry (createCqReq depth words vector base)))) := by
    unfold enaAdminExec
    rfl
  have hfree : ∀ c, (!(s.w.dev.cq c).used) = true ↔ s.w.dev.book.cq c = none := by
    intro c
    rw [Bool.not_eq_true',booked_cq]
  rw [enaCreateCq_eq _ hok] at hexec
  refine ⟨fun hfull => ?_,fun c hlow => ?_⟩
  · have hnone : (List.finRange 16).find?
      (fun i => !((s.called (createCqReq depth words vector base)).dev.cq i).used) =
        none := (find_eq_none_iff hfree).mpr hfull
    rw [hnone] at hexec
    exact ⟨_,_,hret _ _ _ hexec⟩
  · have hsome : (List.finRange 16).find?
      (fun i => !((s.called (createCqReq depth words vector base)).dev.cq i).used) =
        some c := hlow.find hfree
    rw [hsome,hnew] at hexec
    refine ⟨_,_,_,hret _ _ _ hexec,?_,?_,h.queueCall q.net hlen hctrl hexec ?_ rfl rfl,
      h.executed q.net hlen hctrl hexec⟩
    · rw [le16At_completion s _ _ (n := 0) (by norm_num),← UInt16.toNat_inj,createCqResp_idx,
        idx_toNat]
    · rw [le32At_completion s _ _ (n := 12) (by norm_num),createCqResp_unmask]
    · simp [createCqResp]

end Cq

/-- Arguments of `ena_create_sq` that the device takes. -/
structure SqArgs (d : EnaState) (tx : Bool) (placement : UInt8) (cqIdx depth : UInt16)
    (base : UInt64) : Prop where
  valid : enaValidDepth depth = true
  place : placement = placementPolicyHost ∨ (placement = placementPolicyDev ∧ tx = true ∧
    d.llqEnabled = true ∧ depth.toNat*d.llqEntrySize.toNat ≤ enaLlqQueueBytes)
  cq : ∃ c : CqIdx, cqIdx.toNat = c.val ∧ (d.cq c).used = true ∧ depth ≤ (d.cq c).depth ∧
    (tx = false → 16 ≤ (d.cq c).entrySize)
  baseNe : placement = placementPolicyHost → base ≠ 0
  address : base.toNat < 2^48

/-- The SQ that the driver asks for. -/
def askedSq (d : EnaState) (tx llq : Bool) (cqIdx depth : UInt16) (base : UInt64) : EnaSq :=
  { EnaSq.zero with
    used := true
    isTx := tx
    llq := llq
    cqIdx := cqIdx
    base := if llq then 0 else base
    depth := depth
    entrySize := if llq then d.llqEntrySize else 0 }

section Sq
variable {s : Session} {log : List (Bytes × UInt8)} {d : EnaState} {tx : Bool} {placement : UInt8}
  {cqIdx depth : UInt16} {base : UInt64}

lemma SqArgs.ok (h : SqArgs d tx placement cqIdx depth base) (s : Session) :
    (CreateSqCmd.ofBytes (s.entry (createSqReq tx placement cqIdx depth base))).Ok d ∧
      (CreateSqCmd.ofBytes (s.entry (createSqReq tx placement cqIdx depth base))).llq =
        (placement == placementPolicyDev) ∧
      (CreateSqCmd.ofBytes (s.entry (createSqReq tx placement cqIdx depth base))).newSq d =
        askedSq d tx (placement == placementPolicyDev) cqIdx depth base := by
  rw [ofBytes_createSqReq s tx placement cqIdx depth h.address]
  have hdir : (sqIdentity tx &&& 0xe0) >>> 5 = if tx then sqDirectionTx else sqDirectionRx := by
    cases tx <;> rfl
  have htx : CreateSqCmd.isTx ⟨sqIdentity tx,placement,1,cqIdx,depth,base,0⟩ = tx := by
    rw [CreateSqCmd.isTx,CreateSqCmd.dir,hdir]
    cases tx <;> rfl
  have hplace : placement &&& 0xf = placement := by
    rcases h.place with rfl | ⟨rfl,-⟩ <;> rfl
  have hcomp : (placement &&& 0x70) >>> 4 = 0 := by
    rcases h.place with rfl | ⟨rfl,-⟩ <;> rfl
  have hllq : CreateSqCmd.llq ⟨sqIdentity tx,placement,1,cqIdx,depth,base,0⟩ =
      (placement == placementPolicyDev) := by
    rw [CreateSqCmd.llq,CreateSqCmd.placement,hplace]
  refine ⟨⟨?_,?_,?_,hcomp,?_,h.valid,?_,?_,rfl⟩,hllq,?_⟩
  · rw [CreateSqCmd.dir,hdir]
    cases tx
    · exact .inr rfl
    · exact .inl rfl
  · rw [CreateSqCmd.placement,hplace,hllq,beq_iff_eq]
    exact h.place.imp_right And.left
  · rw [hllq,beq_iff_eq,htx]
    rintro rfl
    obtain ⟨-,hon⟩ := h.place.resolve_left (by decide)
    exact hon
  · exact (by decide : (1 : UInt8) &&& 1 ≠ 0)
  · rw [htx]
    exact h.cq
  · rw [hllq,beq_eq_false_iff_ne]
    exact fun hne => h.baseNe (h.place.resolve_right fun hp => hne hp.1)
  · rw [CreateSqCmd.newSq,hllq,htx]
    rfl

/-- `ena_create_sq` gets the lowest free slot, or is told that there is none. -/
lemma Ready.createSq (h : Ready s log) (q : Qtest)
    (ha : SqArgs s.w.dev tx placement cqIdx depth base) :
    (Full s.w.dev.book.sq → ∃ resp s', enaCreateSq q s tx placement cqIdx depth base =
      .ok (AdminStatus.resourceAllocationFailure.code,resp,s')) ∧
    ∀ i, Lowest s.w.dev.book.sq i →
      ∃ resp s' e, enaCreateSq q s tx placement cqIdx depth base = .ok (0,resp,s') ∧
      le16At resp 8 = UInt16.ofNat i ∧ le32At resp 12 = UInt32.ofNat (regSqDbBase + i*4) ∧
      le32At resp 16 = (if placement == placementPolicyDev then UInt32.ofNat
        (i*enaLlqQueueBytes) else 0) ∧
      QueueCall s s' (Function.update s.w.dev.sq i
        (askedSq s.w.dev tx (placement == placementPolicyDev) cqIdx depth base)) s.w.dev.cq ∧
      Ready s' (log ++ [(e,0)]) := by
  have ha' : SqArgs (s.called (createSqReq tx placement cqIdx depth base)).dev tx placement cqIdx
      depth base :=
    ⟨ha.valid,ha.place,ha.cq,ha.baseNe,ha.address⟩
  obtain ⟨hok,hllq,hnew⟩ := ha'.ok s
  have hlen : (createSqReq tx placement cqIdx depth base).length ≤ 64 := by
    simp [createSqReq,memAddr]
  have hctrl := @ctrlClear_entry (createSqReq tx placement cqIdx depth base) nofun (rings s.d) s
  have hret := (h.call q hlen hctrl (show 24 ≤ 64 by norm_num)).2
  have hexec : ∀ r, EnaDevice.enaCreateSq (s.called (createSqReq tx placement cqIdx depth base)).dev
      (s.entry (createSqReq tx placement cqIdx depth base)) = .ok r →
      enaAdminExec (s.called (createSqReq tx placement cqIdx depth base))
        (s.entry (createSqReq tx placement cqIdx depth base)) =
          .ok ((s.called (createSqReq tx placement cqIdx depth base)).onDev r) := by
    intro r hr
    unfold enaAdminExec
    change (EnaDevice.enaCreateSq _ _ >>= _) = _
    rw [hr]
    rfl
  have hfree : ∀ i, (!(s.w.dev.sq i).used) = true ↔ s.w.dev.book.sq i = none := by
    intro i
    rw [Bool.not_eq_true',booked_sq]
  have hcreate := enaCreateSq_eq hok
  refine ⟨fun hfull => ?_,fun i hlow => ?_⟩
  · have hnone : (List.finRange 16).find? (fun i => !((s.called
        (createSqReq tx placement cqIdx depth base)).dev.sq i).used) = none :=
          (find_eq_none_iff hfree).mpr hfull
    rw [hnone] at hcreate
    exact ⟨_,_,hret _ _ _ (hexec _ hcreate)⟩
  · have hsome : (List.finRange 16).find? (fun i => !((s.called
        (createSqReq tx placement cqIdx depth base)).dev.sq i).used) = some i := hlow.find hfree
    rw [hsome,hnew,hllq] at hcreate
    refine ⟨_,_,_,hret _ _ _ (hexec _ hcreate),?_,?_,?_,
      h.queueCall q.net hlen hctrl (hexec _ hcreate) ?_ rfl rfl,
        h.executed q.net hlen hctrl (hexec _ hcreate)⟩
    · rw [le16At_completion s _ _ (n := 0) (by norm_num),← UInt16.toNat_inj,createSqResp_idx,
        idx_toNat]
    · rw [le32At_completion s _ _ (n := 4) (by norm_num),createSqResp_doorbell]
    · rw [le32At_completion s _ _ (n := 8) (by norm_num),createSqResp_llq]
    · simp [createSqResp]

end Sq

/-- A ring that was zeroed has clear phase bits as long as the writes since then are elsewhere. -/
lemma zeroed_phase {m m' : Memory} {base : UInt64} {size d k : ℕ} {writes : UInt64 → Prop}
    (h : (m.write base (zeros (d*size))).Agrees writes m')
    (hapart : ∀ x, InRegion base (d*size) x → ¬ writes x) (hk : k < d) (hsize : 4 ≤ size) :
    phaseBit (m'.slot base size k) = false := by
  have hwithin := @Memory.slot_within base size _ _ hk
  have hin : InRegion base (d*size) (base + UInt64.ofNat (k*size) + UInt64.ofNat 3) :=
    hwithin _ (Memory.inRegion_add _ ⟨3,hsize⟩)
  have hsame : m'.slot base size k = (m.write base (zeros (d*size))).slot base size k :=
    h.bytesAt fun x hx => hapart x (hwithin x hx)
  have hzero : (m.write base (zeros (d*size))).byte
      (base + UInt64.ofNat (k*size) + UInt64.ofNat 3) = 0 := by
    rw [Memory.byte_write_zeros,if_pos hin]
  rw [hsame,phaseBit,Memory.slot,Memory.u8At_bytesAt _ _ (by omega),hzero]
  rfl

lemma idle_write {r : AdminRings} (w : World) {addr : UInt64} {data : Bytes}
    (h : r.Clear addr data.length) :
    Idle r w { w with mem := w.mem.write addr data } := ⟨rfl,rfl,rfl,rfl,.write _ h,id⟩

lemma CqArgs.fresh {depth : UInt16} {words : UInt8} {vector : UInt32} {base : UInt64}
    (h : CqArgs depth words vector base) : (askedCq depth words vector base).Fresh := by
  refine ⟨rfl,h.valid,?_,h.baseNe,fun _ => ?_,rfl,rfl⟩
  · rcases h.words with rfl | rfl | rfl
    · exact .inl rfl
    · exact .inr (.inl rfl)
    · exact .inr (.inr rfl)
  · refine h.vector.imp_right fun ⟨hne,hlt⟩ => ?_
    have hpos : vector.toNat ≠ 0 := fun hz => hne (UInt32.toNat_inj.mp hz)
    have hmax : vector.toNat < 9 := UInt32.lt_iff_toNat_lt.mp hlt
    change 1 ≤ vector.toNat ∧ vector.toNat ≤ 8
    omega

/-- The two commands by which `ena_txq_create` and `rx_ring_init` get a queue pair, and their
answers. -/
def createPair (q : Qtest) (s : Session) (site : Assertion) (tx : Bool) (placement : UInt8)
    (cqDepth depth : UInt16) (words : UInt8) (vector : UInt32) (cqBase sqBase : UInt64) :
    Except Abort (Bytes × Bytes × Session) := do
  let (status,cq,s) ← enaCreateCq q s cqDepth words vector cqBase
  gAssert (status = 0) site
  let (status,sq,s) ← enaCreateSq q s tx placement (le16At cq 8) depth sqBase
  gAssert (status = 0) site
  return (cq,sq,s)

lemma QueueCall.trans {s s' s'' : Session} {sq sq' : SqIdx → EnaSq} {cq cq' : CqIdx → EnaCq}
    (h : QueueCall s s' sq cq) (h' : QueueCall s' s'' sq' cq') : QueueCall s s'' sq' cq' := by
  have hbytes : AdminBytes s'.d = AdminBytes s.d := by
    funext x
    rw [AdminBytes,h.driver.1,h.driver.2]
    rfl
  refine ⟨h'.sq,h'.cq,h'.llqEnabled.trans h.llqEnabled,h'.llqEntrySize.trans h.llqEntrySize,?_,
    ⟨h'.driver.1.trans h.driver.1,h'.driver.2.trans h.driver.2⟩,fun ht => h'.tables (h.tables ht)⟩
  have hmem := h'.mem
  rw [hbytes] at hmem
  exact h.mem.trans hmem

/-- Two answers with which the driver gets a queue pair. -/
structure PairAnswers (cq sq : Bytes) (i : SqIdx) (c : CqIdx) (llq : Bool) : Prop where
  cqIdx : le16At cq 8 = UInt16.ofNat c
  unmask : le32At cq 20 = UInt32.ofNat (regCqUnmaskBase + c*4)
  sqIdx : le16At sq 8 = UInt16.ofNat i
  doorbell : le32At sq 12 = UInt32.ofNat (regSqDbBase + i*4)
  llqOff : le32At sq 16 = if llq then UInt32.ofNat (i*enaLlqQueueBytes) else 0

section Pair
variable {s : Session} {log : List (Bytes × UInt8)} {tx : Bool} {placement : UInt8}
  {cqDepth depth : UInt16} {words : UInt8} {vector : UInt32} {cqBase sqBase : UInt64}

/-- A queue pair with good arguments is given the lowest free slots, unless one of the tables is
full. -/
lemma Calls.createPair {q : Qtest} (h : Calls q s log) (site : Assertion)
    (hcq : CqArgs cqDepth words vector cqBase)
    (hsq : ∀ (d : EnaState) (c : CqIdx), d.cq c = askedCq cqDepth words vector cqBase →
      d.llqEnabled = s.w.dev.llqEnabled → d.llqEntrySize = s.w.dev.llqEntrySize →
      SqArgs d tx placement (UInt16.ofNat c) depth sqBase) :
    (Full s.w.dev.book.cq ∨ Full s.w.dev.book.sq →
      Driver.createPair q s site tx placement cqDepth depth words vector cqBase sqBase =
        .error (.assertion site)) ∧
    ∀ c i, Lowest s.w.dev.book.cq c → Lowest s.w.dev.book.sq i → ∃ cq sq s' log',
      Driver.createPair q s site tx placement cqDepth depth words vector cqBase sqBase =
        .ok (cq,sq,s') ∧
      Calls q s' log' ∧ PairAnswers cq sq i c (placement == placementPolicyDev) ∧
      QueueCall s s' (Function.update s.w.dev.sq i
          (askedSq s.w.dev tx (placement == placementPolicyDev) (UInt16.ofNat c) depth sqBase))
        (Function.update s.w.dev.cq c (askedCq cqDepth words vector cqBase)) := by
  obtain ⟨hfull,hget⟩ := h.ready.createCq q hcq
  -- the second command, once the first one got a slot
  have hsecond : ∀ c, Lowest s.w.dev.book.cq c →
    ∃ resp s₂ log₂, enaCreateCq q s cqDepth words vector cqBase =
      .ok (0,resp,s₂) ∧ Calls q s₂ log₂ ∧ le16At resp 8 = UInt16.ofNat c ∧
      le32At resp 20 = UInt32.ofNat (regCqUnmaskBase + c*4) ∧
      QueueCall s s₂ s.w.dev.sq (Function.update s.w.dev.cq c
        (askedCq cqDepth words vector cqBase)) ∧
      s₂.w.dev.book.sq = s.w.dev.book.sq ∧
      SqArgs s₂.w.dev tx placement (UInt16.ofNat c) depth sqBase := by
    intro c hlow
    obtain ⟨resp,s₂,e,hcall,hidx,hunmask,hqueue,-⟩ := hget c hlow
    have hctrl := @ctrlClear_entry (createCqReq cqDepth words vector cqBase) nofun (rings s.d) s
    refine ⟨resp,s₂,_,hcall,.call h hctrl hcall,hidx,hunmask,hqueue,?_,
      hsq _ c ?_ hqueue.llqEnabled hqueue.llqEntrySize⟩
    · unfold EnaState.book
      rw [hqueue.sq]
    · rw [hqueue.cq,Function.update_self]
  unfold Driver.createPair
  refine ⟨fun hno => ?_,fun c i hc hi => ?_⟩
  · by_cases hcfull : Full s.w.dev.book.cq
    · obtain ⟨resp,s₂,hcall⟩ := hfull hcfull
      rw [hcall]
      rfl
    · obtain ⟨c,hlow⟩ := exists_lowest hcfull
      obtain ⟨resp,s₂,log₂,hcall,hcalls₂,hidx,-,-,hbook,hargs⟩ := hsecond c hlow
      obtain ⟨resp',s₃,hcall'⟩ := (hcalls₂.ready.createSq q hargs).1
        (by rw [hbook]; exact hno.resolve_left hcfull)
      rw [hcall,ok_bind]
      dsimp only
      rw [hidx,decide_eq_true rfl,gAssert_true,ok_bind,hcall']
      rfl
  · obtain ⟨resp,s₂,log₂,hcall,hcalls₂,hidx,hunmask,hqueue,hbook,hargs⟩ := hsecond c hc
    obtain ⟨resp',s₃,e,hcall',hidx',hdb,hoff,hqueue',-⟩ :=
      (hcalls₂.ready.createSq q hargs).2 i (by rw [hbook]; exact hi)
    have hctrl := @ctrlClear_entry (createSqReq tx placement (UInt16.ofNat c) depth sqBase) nofun
      (rings s₂.d) s₂
    rw [hcall,ok_bind]
    dsimp only
    rw [hidx,decide_eq_true rfl,gAssert_true,ok_bind,hcall',ok_bind]
    dsimp only
    rw [decide_eq_true rfl,gAssert_true,ok_bind]
    refine ⟨resp,resp',s₃,_,rfl,.call hcalls₂ hctrl hcall',⟨hidx,hunmask,hidx',hdb,hoff⟩,?_⟩
    have hall := hqueue.trans hqueue'
    unfold askedSq at hall ⊢
    rw [hqueue.sq,hqueue.cq,hqueue.llqEntrySize] at hall
    exact hall

end Pair

/-- The ring of a CQ that was zeroed before the commands is ready for its first completions. -/
lemma QueueCall.start {s s' : Session} {m : Memory} {sq : SqIdx → EnaSq} {cq : CqIdx → EnaCq}
    {c : CqIdx} {depth : UInt16} {words : UInt8} {vector : UInt32} {base : UInt64}
    (h : QueueCall s s' sq cq) (hcq : CqArgs depth words vector base)
    (hasked : cq c = askedCq depth words vector base)
    (hzero : (m.write base (zeros (depth.toNat*(words*4).toNat))).Agrees
      (fun x => ¬ InRegion base (depth.toNat*(words*4).toNat) x) s.w.mem)
    (hclear : (rings s.d).Clear base (depth.toNat*(words*4).toNat)) :
    CqChannel.Start c ⟨s'.w,⟨0,true⟩,[],[]⟩ := by
  have hfresh := hcq.fresh
  have hcreated : s'.w.dev.cq c = askedCq depth words vector base := by rw [h.cq,hasked]
  have hapart : ∀ x, AdminBytes s.d x → ¬ InRegion base (depth.toNat*(words*4).toNat) x := by
    intro x hx hin
    exact hx.elim (fun haq => hclear.1 x haq hin) fun hacq => hclear.2 x hacq hin
  have hmem := hzero.trans (h.mem.mono hapart)
  refine ⟨?_,fun k hk => ?_,rfl,rfl,rfl⟩
  · rw [hcreated]
    exact hfresh
  · rw [CqChannel.ring,hcreated] at *
    refine zeroed_phase hmem (fun x hx hout => hout hx) hk ?_
    rcases hfresh.entrySize with he | he | he <;> rw [he] <;> decide

/-- A TX queue pair as the driver has it right after its creation, next to the device's. -/
structure NewTxq (t : EnaTxQueue) (s s' : Session) (i : SqIdx) (c : CqIdx) (cq : EnaCq)
    (sq : EnaSq) : Prop where
  sqIdx : t.sqIdx = UInt16.ofNat i
  cqIdx : t.cqIdx = UInt16.ofNat c
  doorbell : RingsSq t.dbOff i
  unmask : UnmasksCq t.unmaskOff c
  llqOff : t.llq = true → MapsLlq t.llqOff i
  cqRing : t.cqRing = cq.base ∧ t.cqEntrySize = cq.entrySize ∧ t.depth = cq.depth
  sqRing : t.sqRing = sq.base ∧ t.llq = sq.llq ∧ t.depth = sq.depth
  /-- the other queues are as before -/
  sqs : s'.w.dev.sq = Function.update s.w.dev.sq i sq
  cqs : s'.w.dev.cq = Function.update s.w.dev.cq c cq
  start : CqChannel.Start c ⟨s'.w,⟨t.cqHead,t.cqPhase⟩,[],[]⟩
  tail : t.tail = sq.head ∧ t.tail = sq.tail
  mem : (s.w.mem.write cq.base (zeros (cq.depth.toNat*cq.entrySize.toNat))).Agrees
    (AdminBytes s.d) s'.w.mem
  tables : TableInv s.w.dev ∧ TxIdle none s.w.dev → TableInv s'.w.dev ∧ TxIdle none s'.w.dev

section Txq
variable {s : Session} {log : List (Bytes × UInt8)} {depth : UInt16} {words : UInt8}
  {vector : UInt32} {llq : Bool} {cqRing sqRing : UInt64}

/-- The SQ goes to the CQ that was created for it. -/
lemma SqArgs.of_created {d : EnaState} {c : CqIdx} (hcq : CqArgs depth words vector cqRing)
    (hcreated : d.cq c = askedCq depth words vector cqRing)
    (hhost : llq = false → sqRing ≠ 0 ∧ sqRing.toNat < 2^48)
    (hllq : llq = true → d.llqEnabled = true ∧
    depth.toNat*d.llqEntrySize.toNat ≤ enaLlqQueueBytes) :
    SqArgs d true (if llq then placementPolicyDev else placementPolicyHost) (UInt16.ofNat c) depth
      (if llq then 0 else sqRing) := by
  have hcreated' : ∃ c' : CqIdx, (UInt16.ofNat c).toNat = c'.val ∧ (d.cq c').used = true ∧
    depth ≤ (d.cq c').depth ∧
      (true = false → 16 ≤ (d.cq c').entrySize) := by
    refine ⟨c,idx_toNat c,?_,?_,nofun⟩ <;> rw [hcreated]
    · rfl
    · exact UInt16.le_refl _
  cases llq with
  | false => exact ⟨hcq.valid,.inl rfl,hcreated',fun _ => (hhost rfl).1,(hhost rfl).2⟩
  | true => exact ⟨hcq.valid,.inr ⟨rfl,rfl,hllq rfl⟩,hcreated',nofun,Nat.two_pow_pos 48⟩

lemma calls_zeroed {q : Qtest} (h : Calls q s log) {base : UInt64} {n : ℕ}
    (hclear : (rings s.d).Clear base n) :
    Calls q (qtestMemwrite s base (zeros n)) log := by
  refine h.other ⟨rfl,rfl,rfl,rfl,rfl⟩ (idle_write s.w ?_)
  rw [show (zeros n).length = n from List.length_replicate]
  exact hclear

/-- `ena_txq_create` zeroes the completion ring and asks for a pair. -/
lemma enaTxqCreate_eq (q : Qtest) (s : Session) (depth : UInt16) (words : UInt8) (vector : UInt32)
    (llq : Bool) (cqRing sqRing : UInt64) : enaTxqCreate q s depth words vector llq cqRing sqRing =
      createPair q (qtestMemwrite s cqRing (zeros (depth.toNat*(words*4).toNat))) .tx true
        (if llq then placementPolicyDev else placementPolicyHost) depth depth words vector cqRing
        (if llq then 0 else sqRing) >>= fun x => .ok
          ({ depth := depth, cqEntrySize := words*4, llq := llq
             sqIdx := le16At x.2.1 8, cqIdx := le16At x.1 8, dbOff := le32At x.2.1 12
             unmaskOff := le32At x.1 20, llqOff := le32At x.2.1 16, lineSize := 128
             sqRing := if llq then 0 else sqRing, cqRing := cqRing
             tail := 0, cqHead := 0, cqPhase := true },x.2.2) := by
  unfold enaTxqCreate createPair
  simp only [bind_assoc,pure_bind]
  rfl

lemma placement_dev (llq : Bool) :
    ((if llq then placementPolicyDev else placementPolicyHost) == placementPolicyDev) = llq := by
  cases llq <;> rfl

/-- With free slots, the pair is created in the lowest ones. -/
lemma txqCreate_new (q : Qtest) (h : Calls q s log) (hcq : CqArgs depth words vector cqRing)
    (hhost : llq = false → sqRing ≠ 0 ∧ sqRing.toNat < 2^48)
    (hllq : llq = true → s.w.dev.llqEnabled = true ∧
    depth.toNat*s.w.dev.llqEntrySize.toNat ≤ enaLlqQueueBytes)
    (hclear : (rings s.d).Clear cqRing (depth.toNat*(words*4).toNat)) {c : CqIdx} {i : SqIdx}
    (hc : Lowest s.w.dev.book.cq c) (hi : Lowest s.w.dev.book.sq i) :
    ∃ t s' log', enaTxqCreate q s depth words vector llq cqRing sqRing = .ok (t,s') ∧
      Calls q s' log' ∧
      NewTxq t s s' i c (askedCq depth words vector cqRing)
        (askedSq s.w.dev true llq (UInt16.ofNat c) depth sqRing) := by
  obtain ⟨-,hget⟩ := (calls_zeroed h hclear).createPair .tx hcq
    fun d c hc hon hsize => SqArgs.of_created hcq hc hhost (by rw [hon,hsize]; exact hllq)
  obtain ⟨cq,sq,s',log',hpair,hcalls',hans,hqueue⟩ := hget c i hc hi
  rw [placement_dev] at hans hqueue
  rw [enaTxqCreate_eq,hpair,ok_bind]
  refine ⟨_,s',log',rfl,hcalls',hans.sqIdx,hans.cqIdx,?_,?_,?_,⟨rfl,rfl,rfl⟩,⟨rfl,rfl,rfl⟩,?_,
    hqueue.cq,?_,⟨rfl,rfl⟩,hqueue.mem,hqueue.tables⟩
  · rw [hans.doorbell]
    exact ringsSq i
  · rw [hans.unmask]
    exact unmasksCq c
  · intro hl
    rw [hans.llqOff,if_pos hl]
    exact mapsLlq i
  · rw [hqueue.sq]
    congr 1
    cases llq <;> rfl
  · exact hqueue.start hcq (Function.update_self _ _ _) (.refl _) hclear

/-- `ena_txq_create` with arguments that the device takes gets a queue pair in the lowest free
slots, with an empty completion ring, and fails an assertion exactly if one of the tables is
full. -/
theorem txqCreate_allocates (q : Qtest) (h : Calls q s log) (hcq : CqArgs depth words vector cqRing)
    (hhost : llq = false → sqRing ≠ 0 ∧ sqRing.toNat < 2^48)
    (hllq : llq = true → s.w.dev.llqEnabled = true ∧
    depth.toNat*s.w.dev.llqEntrySize.toNat ≤ enaLlqQueueBytes)
    (hclear : (rings s.d).Clear cqRing (depth.toNat*(words*4).toNat)) :
    (Full s.w.dev.book.cq ∨ Full s.w.dev.book.sq →
      enaTxqCreate q s depth words vector llq cqRing sqRing = .error (.assertion .tx)) ∧
    ∀ c i, Lowest s.w.dev.book.cq c → Lowest s.w.dev.book.sq i →
      ∃ t s' log', enaTxqCreate q s depth words vector llq cqRing sqRing = .ok (t,s') ∧
        Calls q s' log' ∧
        NewTxq t s s' i c (askedCq depth words vector cqRing)
          (askedSq s.w.dev true llq (UInt16.ofNat c) depth sqRing) := by
  refine ⟨fun hno => ?_,fun c i hc hi => txqCreate_new q h hcq hhost hllq hclear hc hi⟩
  obtain ⟨hfull,-⟩ := (calls_zeroed h hclear).createPair .tx hcq
    fun d c hc hon hsize => SqArgs.of_created hcq hc hhost (by rw [hon,hsize]; exact hllq)
  rw [enaTxqCreate_eq,hfull hno]
  rfl

end Txq

lemma lowest_zero {α : Type} {t : Fin 16 → Option α} (h : ∀ i, t i = none) : Lowest t 0 :=
  ⟨h 0,fun j _ => Fin.zero_le j⟩

lemma lowest_one {α : Type} {t : Fin 16 → Option α} (h0 : t 0 ≠ none) (h1 : t 1 = none) :
    Lowest t 1 := by
  refine ⟨h1,fun j hj => ?_⟩
  have hne : j ≠ 0 := fun he => h0 (he ▸ hj)
  omega

/-- Beside a pair in the slots 0 the slots 1 are the lowest free ones. -/
lemma NewTxq.lowest_one {t : EnaTxQueue} {s s' : Session} {cq : EnaCq} {sq : EnaSq}
    (h : NewTxq t s s' 0 0 cq sq) (hcq : cq.used = true) (hsq : sq.used = true)
    (hcqs : s.w.dev.book.cq 1 = none) (hsqs : (s.w.dev.sq 1).used = false) :
    Lowest s'.w.dev.book.cq 1 ∧ Lowest s'.w.dev.book.sq 1 := by
  refine ⟨Driver.lowest_one (fun hno => ?_) ?_,Driver.lowest_one (fun hno => ?_) ?_⟩
  · rw [booked_cq,h.cqs,Function.update_self,hcq] at hno
    cases hno
  · rw [booked_cq,h.cqs,Function.update_of_ne (by decide),← booked_cq]
    exact hcqs
  · rw [booked_sq,h.sqs,Function.update_self,hsq] at hno
    cases hno
  · rw [booked_sq,h.sqs,Function.update_of_ne (by decide)]
    exact hsqs

/-- Memory above the admin rings of the first bring-up is clear of them. -/
lemma rings_clear {d : QEna} (haq : d.aq = 0x1000) (hacq : d.acq = 0x2000) {base : UInt64} {n : ℕ}
    (hbase : 0x2800 ≤ base.toNat) (hend : base.toNat + n ≤ 2^64) : (rings d).Clear base n := by
  have haqEnd : (0x1000 : UInt64).toNat + enaTestAqDepth.toNat*64 ≤ base.toNat :=
    le_trans (by decide) hbase
  rw [rings,haq,hacq]
  exact ⟨apart_of_le haqEnd hend,apart_of_le hbase hend⟩

/-- The first bring-up of a fresh device. -/
abbrev firstBringup : Except Abort Session :=
  enaBringup plainQtest ⟨newDriver,freshWorld⟩ 0x1000 0x2000 0x3000

/-- A session right after it. -/
lemma exists_freshCalls : ∃ s : Session, firstBringup = .ok s ∧ Calls plainQtest s [] ∧
    s.d.aq = 0x1000 ∧ s.d.acq = 0x2000 ∧
    (∀ c, s.w.dev.book.cq c = none) ∧ (∀ i, (s.w.dev.sq i).used = false) ∧
    (TableInv s.w.dev ∧ TxIdle none s.w.dev) ∧ s.w.mem.readable = freshWorld.mem.readable := by
  obtain ⟨s₁,hbring,-,-,hqueues,hread⟩ :=
    enaBringup_eq plainQtest (s := ⟨newDriver,freshWorld⟩) (by decide) allocated_fresh
  have hsq : (s₁.broughtUp 0x1000 0x2000 0x3000).w.dev.sq = _ := hqueues.sq
  have hcq : (s₁.broughtUp 0x1000 0x2000 0x3000).w.dev.cq = _ := hqueues.cq
  refine ⟨_,hbring,.bringup (by decide) allocated_fresh hbring,rfl,rfl,fun c => ?_,fun i => ?_,
    ⟨(tableInv_devReset freshWorld.dev).of_sameQueues hqueues,fun i _ hu => ?_⟩,hread⟩
  · rw [booked_cq,hcq]
    rfl
  · rw [hsq]
    rfl
  · rw [hsq] at hu
    cases hu

/-- The first TX queue pair of a driver. -/
theorem txqCreate_allocates_first :
    ∃ s t s' log', Calls plainQtest s [] ∧
      enaTxqCreate plainQtest s 16 2 1 false 0x4000 0x5000 = .ok (t,s') ∧
      Calls plainQtest s' log' ∧
      NewTxq t s s' 0 0 (askedCq 16 2 1 0x4000)
        (askedSq s.w.dev true false (UInt16.ofNat (0 : CqIdx)) 16 0x5000) := by
  obtain ⟨s,-,hcalls,haq,hacq,hcqs,hsqs,-⟩ := exists_freshCalls
  have hargs : CqArgs 16 2 1 0x4000 := ⟨by decide,.inl rfl,.inr (by decide),by decide,by decide⟩
  have hclear : (rings s.d).Clear 0x4000 ((16 : UInt16).toNat*((2 : UInt8)*4).toNat) :=
    rings_clear haq hacq (by decide) (by decide)
  have hhost : (0x5000 : UInt64) ≠ 0 ∧ (0x5000 : UInt64).toNat < 2^48 := by decide
  obtain ⟨-,hget⟩ := txqCreate_allocates plainQtest hcalls hargs (fun _ : false = false => hhost)
    (fun hno => absurd hno Bool.false_ne_true) hclear
  obtain ⟨t,s',log',hcreate,hcalls',hnew⟩ :=
    hget 0 0 (lowest_zero hcqs) (lowest_zero fun i => (booked_sq _ i).mpr (hsqs i))
  exact ⟨s,t,s',log',hcalls,hcreate,hcalls',hnew⟩

end EnaDevice.Driver
