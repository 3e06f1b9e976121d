import EnaDevice.Driver.Create
import EnaDevice.Driver.Posting
import EnaDevice.Lib.Pieces

/-! RX queue pairs of the driver: their creation with a buffer for each entry, and the descriptors
by which the buffers are posted. -/
namespace EnaDevice.Driver
open Bytes Result Slots

/-- Arguments of `rx_ring_init` that the device takes, with regions that do not overlap. -/
structure RxArgs (depth cqDepth : UInt16) (words : UInt8) (vector bufSize : UInt32)
    (sqBase cqBase bufBase : UInt64) :
    Prop where
  cq : CqArgs cqDepth words vector cqBase
  wide : words ≠ 2
  valid : enaValidDepth depth = true
  fits : depth ≤ cqDepth
  sqAt : sqBase ≠ 0 ∧ sqBase.toNat < 2^48
  bufAt : bufBase ≠ 0 ∧ bufBase.toNat + depth.toNat*bufSize.toNat ≤ 2^48
  size : 0 < bufSize.toNat ∧ bufSize.toNat ≤ 65536
  sqCq : Apart sqBase (depth.toNat*16) cqBase (cqDepth.toNat*(words*4).toNat)
  sqBuf : Apart sqBase (depth.toNat*16) bufBase (depth.toNat*bufSize.toNat)
  cqBuf : Apart cqBase (cqDepth.toNat*(words*4).toNat) bufBase (depth.toNat*bufSize.toNat)

/-- The memory that `rx_ring_init` allocates is apart from the admin rings. -/
structure RxClear (r : AdminRings) (depth cqDepth : UInt16) (words : UInt8) (bufSize : UInt32)
    (sqBase cqBase bufBase : UInt64) : Prop where
  sq : r.Clear sqBase (depth.toNat*16)
  cq : r.Clear cqBase (cqDepth.toNat*(words*4).toNat)
  buf : r.Clear bufBase (depth.toNat*bufSize.toNat)

/-- The geometry of an RX ring and its place on the device. -/
structure RxPair (r : RxRing) (i : SqIdx) : Prop where
  sqIdx : r.sqIdx = UInt16.ofNat i
  depth : DepthOk r.depth
  fits : r.depth ≤ r.cqDepth
  entrySize : 16 ≤ r.entrySize.toNat
  bufBase : r.bufBase.toNat + r.depth.toNat*r.bufSize.toNat ≤ 2^48
  bufSize : 0 < r.bufSize.toNat ∧ r.bufSize.toNat ≤ 65536
  sqCq : Apart r.sqBase (r.depth.toNat*16) r.cqBase (r.cqDepth.toNat*r.entrySize.toNat)
  sqBuf : Apart r.sqBase (r.depth.toNat*16) r.bufBase (r.depth.toNat*r.bufSize.toNat)
  cqBuf : Apart r.cqBase (r.cqDepth.toNat*r.entrySize.toNat) r.bufBase
    (r.depth.toNat*r.bufSize.toNat)

/-- The SQ of an RX ring after some postings and deliveries. -/
def rxSq (r : RxRing) (c : CqIdx) (consumed posted : ℕ) : EnaSq :=
  { EnaSq.zero with
    used := true
    cqIdx := UInt16.ofNat c
    base := r.sqBase
    depth := r.depth
    head := UInt16.ofNat consumed
    tail := UInt16.ofNat posted }

/-- An RX ring right after its creation, next to the device's queues. -/
structure NewRxRing (r : RxRing) (s s' : Session) (i : SqIdx) (c : CqIdx) : Prop where
  pair : RxPair r i
  cqIdx : r.cqIdx = UInt16.ofNat c
  tail : r.tail = 0 ∧ r.nextReq = 0
  cq : (s'.w.dev.cq c).base = r.cqBase ∧ (s'.w.dev.cq c).depth = r.cqDepth ∧
    (s'.w.dev.cq c).entrySize = r.entrySize
  sqs : s'.w.dev.sq = Function.update s.w.dev.sq i (rxSq r c 0 0)
  start : CqChannel.Start c ⟨s'.w,⟨r.cqHead,r.cqPhase⟩,[],[]⟩
  readable : s'.w.mem.readable = s.w.mem.readable
  tables : TableInv s.w.dev ∧ TxIdle none s.w.dev → TableInv s'.w.dev ∧ TxIdle none s'.w.dev

section Create
variable {s : Session} {log : List (Bytes × UInt8)} {depth cqDepth : UInt16} {words : UInt8}
  {vector bufSize : UInt32} {sqBase cqBase bufBase : UInt64}

lemma rxAlloc_eq (s : Session) {addr : UInt64} (h : addr ≠ 0) (n : ℕ) :
    rxAlloc s addr n = .ok (qtestMemwrite s addr (zeros n)) := by
  unfold rxAlloc
  rw [decide_eq_true h]
  rfl

/-- `rx_ring_init` clears its memory and asks for a pair. -/
lemma rxRingInit_eq (q : Qtest)
    (h : RxArgs depth cqDepth words vector bufSize sqBase cqBase bufBase) :
    rxRingInit q s depth cqDepth words vector bufSize sqBase cqBase bufBase =
      createPair q
        (qtestMemwrite (qtestMemwrite (qtestMemwrite s sqBase (zeros (depth.toNat*16)))
          cqBase (zeros (cqDepth.toNat*(words*4).toNat))) bufBase
          (zeros (depth.toNat*bufSize.toNat)))
        .rx false placementPolicyHost cqDepth depth words vector cqBase sqBase >>= fun x => .ok
          ({ sqBase := sqBase, cqBase := cqBase, bufBase := bufBase
             sqIdx := le16At x.2.1 8, cqIdx := le16At x.1 8
             depth := depth, cqDepth := cqDepth, entrySize := words*4, bufSize := bufSize
             tail := 0, nextReq := 0, cqHead := 0, cqPhase := true },x.2.2) := by
  unfold rxRingInit
  dsimp only
  rw [rxAlloc_eq _ h.sqAt.1,ok_bind,rxAlloc_eq _ h.cq.baseNe,ok_bind,rxAlloc_eq _ h.bufAt.1,ok_bind]
  unfold createPair
  simp only [bind_assoc,pure_bind]
  rfl

/-- The completions take at least 16 bytes. -/
lemma RxArgs.entry (h : RxArgs depth cqDepth words vector bufSize sqBase cqBase bufBase) :
    16 ≤ words*4 := by
  rcases h.cq.words with rfl | rfl | rfl
  · exact absurd rfl h.wide
  · decide
  · decide

lemma RxArgs.sqArgs (h : RxArgs depth cqDepth words vector bufSize sqBase cqBase bufBase)
    (d : EnaState) (c : CqIdx) (hc : d.cq c = askedCq cqDepth words vector cqBase) :
    SqArgs d false placementPolicyHost (UInt16.ofNat c) depth sqBase := by
  refine ⟨h.valid,.inl rfl,⟨c,idx_toNat c,?_,?_,fun _ => ?_⟩,fun _ => h.sqAt.1,h.sqAt.2⟩ <;> rw [hc]
  · rfl
  · exact h.fits
  · exact h.entry

lemma RxArgs.pair (h : RxArgs depth cqDepth words vector bufSize sqBase cqBase bufBase) {r : RxRing}
    {i : SqIdx} (hidx : r.sqIdx = UInt16.ofNat i) (hdepth : r.depth = depth)
    (hcqDepth : r.cqDepth = cqDepth) (hentry : r.entrySize = words*4) (hsize : r.bufSize = bufSize)
    (hsq : r.sqBase = sqBase) (hcq : r.cqBase = cqBase) (hbuf : r.bufBase = bufBase) :
    RxPair r i := by
  subst hdepth hcqDepth hsize hsq hcq hbuf
  refine ⟨hidx,depthOk_of_valid h.valid,h.fits,?_,h.bufAt.2,h.size,?_,h.sqBuf,?_⟩ <;> rw [hentry]
  · exact UInt8.le_iff_toNat_le.mp h.entry
  · exact h.sqCq
  · exact h.cqBuf

/-- With free slots, the pair is created in the lowest ones. -/
lemma rxRingInit_new (q : Qtest) (h : Calls q s log)
    (ha : RxArgs depth cqDepth words vector bufSize sqBase cqBase bufBase)
    (hclear : RxClear (rings s.d) depth cqDepth words bufSize sqBase cqBase bufBase) {c : CqIdx}
    {i : SqIdx} (hc : Lowest s.w.dev.book.cq c) (hi : Lowest s.w.dev.book.sq i) :
    ∃ r s' log', rxRingInit q s depth cqDepth words vector bufSize sqBase cqBase bufBase =
      .ok (r,s') ∧
      Calls q s' log' ∧ NewRxRing r s s' i c ∧ r.sqBase = sqBase ∧ r.depth = depth ∧
      r.bufSize = bufSize := by
  obtain ⟨-,hget⟩ := (calls_zeroed (calls_zeroed (calls_zeroed h hclear.sq) hclear.cq)
    hclear.buf).createPair .rx ha.cq
    fun d c hcreated _ _ => ha.sqArgs d c hcreated
  obtain ⟨cq,sq,s',log',hpair,hcalls',hans,hqueue⟩ := hget c i hc hi
  rw [rxRingInit_eq q ha,hpair,ok_bind]
  have hcreated := congrFun hqueue.cq c
  rw [Function.update_self] at hcreated
  refine ⟨_,s',log',rfl,hcalls',
    ⟨ha.pair hans.sqIdx rfl rfl rfl rfl rfl rfl rfl,hans.cqIdx,⟨rfl,rfl⟩,?_,hqueue.sq,?_,
      hqueue.mem.readable,hqueue.tables⟩,rfl,rfl,rfl⟩
  · rw [hcreated]
    exact ⟨rfl,rfl,rfl⟩
  · refine hqueue.start ha.cq (Function.update_self _ _ _)
      (m := s.w.mem.write sqBase (zeros (depth.toNat*16))) ?_
      hclear.cq
    refine .write fun x hx hin => ha.cqBuf x hin ?_
    rw [zeros_length] at hx
    exact hx

end Create

/-- The buffer of a slot. -/
def RxRing.buf (r : RxRing) (k : ℕ) : UInt64 := r.bufBase + UInt64.ofNat (k*r.bufSize.toNat)

/-- The descriptor that posts the buffer of a slot. -/
def RxRing.desc (r : RxRing) (k : ℕ) : Bytes :=
  rxDescFill r.bufSize.toUInt16 (UInt16.ofNat k) (r.buf k)

section Desc
variable {r : RxRing} {i : SqIdx} {k : ℕ}

lemma RxPair.ring_le (h : RxPair r i) : r.depth.toNat*r.bufSize.toNat ≤ 2^64 := by
  calc r.depth.toNat*r.bufSize.toNat ≤ 1024*65536 := Nat.mul_le_mul h.depth.max h.bufSize.2
    _ ≤ 2^64 := by norm_num

lemma RxPair.sq_le (h : RxPair r i) : r.depth.toNat*16 ≤ 2^64 := by
  have hmax : r.depth.toNat ≤ 1024 := h.depth.max
  omega

lemma rxDescFill_length (length reqId : UInt16) (buf : UInt64) :
    (rxDescFill length reqId buf).length = 16 := by
  simp [rxDescFill]

lemma ofBytes_rxDescFill (length reqId : UInt16) (buf : UInt64) :
    EnaRxDesc.ofBytes (rxDescFill length reqId buf) =
    ⟨length,0x1c,reqId,buf.toUInt32,(buf >>> 32).toUInt16⟩ := by
  have hlength : le16At (rxDescFill length reqId buf) 0 = length := le16At_ofLe16 length []
  have hreq : le16At (rxDescFill length reqId buf) 4 = reqId := le16At_ofLe16 reqId []
  have hlo : le32At (rxDescFill length reqId buf) 8 = buf.toUInt32 := le32At_ofLe32 buf.toUInt32 []
  have hhi : le16At (rxDescFill length reqId buf) 12 = (buf >>> 32).toUInt16 :=
    le16At_ofLe16 (buf >>> 32).toUInt16 []
  rw [EnaRxDesc.ofBytes,hlength,hreq,hlo,hhi]
  rfl

/-- Buffers lie where a descriptor can name them. -/
lemma RxPair.buf_lt (h : RxPair r i) (hk : k < r.depth.toNat) : (r.buf k).toNat < 2^48 := by
  have hsize := h.bufSize.1
  have hbase := h.bufBase
  have hnext : (k+1)*r.bufSize.toNat ≤ r.depth.toNat*r.bufSize.toNat := Nat.mul_le_mul_right _ hk
  rw [Nat.succ_mul] at hnext
  rw [RxRing.buf,UInt64.toNat_add,UInt64.toNat_ofNat']
  omega

/-- What the device reads in a posted descriptor. -/
lemma RxPair.desc_read (h : RxPair r i) (hk : k < r.depth.toNat) :
    (EnaRxDesc.ofBytes (r.desc k)).reqId = UInt16.ofNat k ∧
      (EnaRxDesc.ofBytes (r.desc k)).addr = r.buf k ∧
      (EnaRxDesc.ofBytes (r.desc k)).size = r.bufSize.toNat ∧
      ∀ q : EnaSq, q.depth = r.depth → (EnaRxDesc.ofBytes (r.desc k)).valid q = true := by
  have hbits := r.bufSize.toNat_lt
  obtain ⟨hpos,hmax⟩ := h.bufSize
  have hdepth : r.depth.toNat ≤ 1024 := h.depth.max
  rw [RxRing.desc,ofBytes_rxDescFill]
  refine ⟨rfl,?_,?_,fun q hq => ?_⟩
  · rw [EnaRxDesc.addr,UInt64.or_comm]
    exact enaMemAddr_memAddr (h.buf_lt hk)
  · -- a length of 0 stands for the largest buffer
    rw [EnaRxDesc.size]
    have hlen : r.bufSize.toUInt16.toNat = r.bufSize.toNat % 65536 := UInt32.toNat_toUInt16 _
    split_ifs with hz
    · have hmod : r.bufSize.toNat % 65536 = 0 := by
        rw [← hlen]
        exact congrArg UInt16.toNat hz
      omega
    · have hne : r.bufSize.toUInt16.toNat ≠ 0 := fun h0 => hz (UInt16.toNat_inj.mp h0)
      dsimp only
      omega
  · have hctrl : ((0x1c : UInt8) &&& 0x1c == 0x1c) = true := rfl
    rw [EnaRxDesc.valid,Bool.and_eq_true,hq,decide_eq_true_eq,UInt16.lt_iff_toNat_lt,
      UInt16.toNat_ofNat']
    exact ⟨hctrl,(Nat.mod_le _ _).trans_lt hk⟩

lemma rxBufAddr_eq (h : RxPair r i) (hk : k < r.depth.toNat) :
    rxBufAddr r (UInt16.ofNat k) = r.buf k := by
  have hdepth : r.depth.toNat ≤ 1024 := h.depth.max
  have hsize := h.bufSize.2
  have hprod : k*r.bufSize.toNat ≤ 1024*65536 := Nat.mul_le_mul (by omega) hsize
  rw [rxBufAddr,RxRing.buf]
  congr 1
  apply UInt64.toNat_inj.mp
  rw [UInt64.toNat_mul,UInt16.toNat_toUInt64,UInt32.toNat_toUInt64,UInt16.toNat_ofNat',
    UInt64.toNat_ofNat',Nat.mod_eq_of_lt (show k < 2^16 by omega)]

/-- The slots that are written next, by their place since the creation. -/
def RxRing.descs (r : RxRing) (m n : ℕ) : List Bytes := (List.range' m n).map fun k =>
    r.desc (k % r.depth.toNat)

/-- A ring with as many buffers posted since its creation. -/
def RxRing.moved (r : RxRing) (m : ℕ) : RxRing :=
  { r with tail := UInt16.ofNat m, nextReq := UInt16.ofNat m }

lemma RxPair.moved (h : RxPair r i) (m : ℕ) : RxPair (r.moved m) i := by
  obtain ⟨hidx,hdepth,hfits,hentry,hbase,hsize,hsqCq,hsqBuf,hcqBuf⟩ := h
  exact ⟨hidx,hdepth,hfits,hentry,hbase,hsize,hsqCq,hsqBuf,hcqBuf⟩

lemma RxPair.polled (h : RxPair r i) (d : RingDriver) :
    RxPair { r with cqHead := d.head, cqPhase := d.phase } i := by
  obtain ⟨hidx,hdepth,hfits,hentry,hbase,hsize,hsqCq,hsqBuf,hcqBuf⟩ := h
  exact ⟨hidx,hdepth,hfits,hentry,hbase,hsize,hsqCq,hsqBuf,hcqBuf⟩

lemma mem_descs_length {m n : ℕ} {e : Bytes} (h : e ∈ r.descs m n) : e.length = 16 := by
  obtain ⟨j,-,rfl⟩ := List.mem_map.mp h
  exact rxDescFill_length _ _ _

/-- One buffer is posted. -/
lemma rxPostOne_eq (h : RxPair r i) (m : ℕ) (s : Session) :
    rxPostOne (r.moved m) s = (r.moved (m+1),
      qtestMemwrite s (r.sqBase + UInt64.ofNat (m % r.depth.toNat*16))
        (r.desc (m % r.depth.toNat))) := by
  have hpow := h.depth.pow
  have hpos := Counter.depth_pos hpow
  have htail : UInt16.ofNat m + 1 = UInt16.ofNat (m+1) := (UInt16.ofNat_add m 1).symm
  have hmod : (UInt16.ofNat m).toNat % r.depth.toNat = m % r.depth.toNat := by
    rw [UInt16.toNat_ofNat']
    exact Counter.wrap_mod hpow m
  have hreq : UInt16.ofNat m % r.depth = UInt16.ofNat (m % r.depth.toNat) := by
    apply UInt16.toNat_inj.mp
    rw [UInt16.toNat_mod,hmod,UInt16.toNat_ofNat',
      Nat.mod_eq_of_lt ((Nat.mod_lt m hpos).trans r.depth.toNat_lt)]
  have hslot := slot_mask hpow (UInt16.ofNat m)
  rw [hmod] at hslot
  change ({ r.moved m with nextReq := UInt16.ofNat m + 1, tail := UInt16.ofNat m + 1 },
    qtestMemwrite s (r.sqBase + (UInt16.ofNat m &&& (r.depth - 1)).toUInt64*16)
      (rxDescFill r.bufSize.toUInt16
      (UInt16.ofNat m % r.depth) (rxBufAddr r (UInt16.ofNat m % r.depth)))) = _
  rw [hreq,htail,hslot,rxBufAddr_eq h (Nat.mod_lt m hpos)]
  rfl

/-- `rx_post` writes the next descriptors into the ring. -/
lemma rxPostLoop_eq (h : RxPair r i) (m n : ℕ) (s : Session) :
    rxPostLoop n (r.moved m) s = (r.moved (m+n),
      { s with w := { s.w with
        mem := s.w.mem.writeRing r.sqBase 16 r.depth.toNat m (r.descs m n) } }) := by
  induction n generalizing m s with
  | zero => rfl
  | succ n ih =>
    rw [rxPostLoop,rxPostOne_eq h,ih,Nat.add_right_comm m 1 n]
    rfl

end Desc

end EnaDevice.Driver
