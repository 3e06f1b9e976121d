import EnaDevice.Model.Device
import EnaDevice.Lib.Result

/-! What creating and destroying a queue can do: nothing when the command fails, and one slot of
one table when it succeeds. -/
namespace EnaDevice
open Bytes Result

/-- A completion queue as `ena_create_cq` makes it. -/
structure EnaCq.Fresh (q : EnaCq) : Prop where
  used : q.used = true
  depth : enaValidDepth q.depth = true
  entrySize : q.entrySize = 8 ∨ q.entrySize = 16 ∨ q.entrySize = 32
  base : q.base ≠ 0
  vector : q.intrEnabled = true → q.msixVector = enaMsixVectorNone ∨
    (1 ≤ q.msixVector.toNat ∧ q.msixVector.toNat ≤ 8)
  tail : q.tail = 0
  phase : q.phase = true

/-- A submission queue as `ena_create_sq` makes it, next to the tables it is made in. -/
structure EnaSq.Fresh (s : EnaState) (q : EnaSq) : Prop where
  used : q.used = true
  depth : enaValidDepth q.depth = true
  cq : ∃ c : CqIdx, q.cqIdx.toNat = c.val ∧ (s.cq c).used = true ∧ q.depth ≤ (s.cq c).depth ∧
    (q.isTx = false → 16 ≤ (s.cq c).entrySize)
  llq : q.llq = true → q.isTx = true ∧ s.llqEnabled = true ∧ q.entrySize = s.llqEntrySize ∧
    q.depth.toNat*q.entrySize.toNat ≤ enaLlqQueueBytes
  host : q.llq = false → q.base ≠ 0 ∧ q.entrySize = 0
  head : q.head = 0
  tail : q.tail = 0
  txMeta : q.txMeta = EnaTxMeta.zero

namespace CreateCqCmd

/-- The CQ that a command asks for. -/
def newCq (c : CreateCqCmd) : EnaCq where
  used := true
  base := c.cqBa
  depth := c.cqDepth
  entrySize := (c.cqCaps2 &&& 0x1f)*4
  intrEnabled := c.cqCaps1 &&& 0x20 != 0
  msixVector := c.msixVector
  tail := 0
  phase := true

end CreateCqCmd

namespace CreateSqCmd

def dir (c : CreateSqCmd) : UInt8 := (c.sqIdentity &&& 0xe0) >>> 5
def placement (c : CreateSqCmd) : UInt8 := c.sqCaps2 &&& 0xf
def isTx (c : CreateSqCmd) : Bool := c.dir == sqDirectionTx
def llq (c : CreateSqCmd) : Bool := c.placement == placementPolicyDev

/-- The SQ that a command asks for. -/
def newSq (s : EnaState) (c : CreateSqCmd) : EnaSq :=
  { EnaSq.zero with
    used := true
    isTx := c.isTx
    llq := c.llq
    cqIdx := c.cqIdx
    base := if c.llq then 0 else c.sqBa
    depth := c.sqDepth
    entrySize := if c.llq then s.llqEntrySize else 0 }

end CreateSqCmd

/-- What a command on the queue tables may do: refuse, or change one slot of one table. -/
inductive QueueCmd (s : EnaState) : AdminStatus × Bytes × EnaState → Prop
  | refused {status : AdminStatus} (h : status ≠ .success) : QueueCmd s (status,noResp,s)
  | createCq (i : CqIdx) (q : EnaCq) {resp : Bytes} (hfree : (s.cq i).used = false) (hq : q.Fresh)
    (hresp : resp = createCqResp i q.depth) : QueueCmd s (.success,resp,s.setCq i q)
  | destroyCq (c : CqIdx) (hused : (s.cq c).used = true)
    (hidle : ∀ i, (s.sq i).used = true → (s.sq i).cqIdx.toNat ≠ c.val) :
    QueueCmd s (.success,noResp,s.setCq c { s.cq c with used := false })
  | createSq (i : SqIdx) (q : EnaSq) {resp : Bytes} (hfree : (s.sq i).used = false)
    (hq : q.Fresh s) (hresp : resp = createSqResp i q.llq) :
    QueueCmd s (.success,resp,s.setSq i q)
  | destroySq (i : SqIdx) (hused : (s.sq i).used = true) :
    QueueCmd s (.success,noResp,s.setSq i { s.sq i with used := false })

/-- The bound on the vector of a new completion queue, in the words of the command. -/
lemma vector_of_not_refused {v : UInt32}
    (h : ¬(v ≠ enaMsixVectorNone ∧ (v = 0 ∨ v ≥ 9))) :
    v = enaMsixVectorNone ∨ (1 ≤ v.toNat ∧ v.toNat ≤ 8) := by
  by_cases hn : v = enaMsixVectorNone
  · exact .inl hn
  · right
    have h0 : v ≠ 0 := fun h0 => h ⟨hn,.inl h0⟩
    have h9 : ¬ v ≥ 9 := fun h9 => h ⟨hn,.inr h9⟩
    have hz : v.toNat ≠ 0 := fun hz => h0 (UInt32.toNat_inj.mp hz)
    have hlt : v.toNat < 9 := by simpa [UInt32.le_iff_toNat_le] using h9
    omega

/-- The entry sizes that two, four and eight words make. -/
lemma entrySize_of_words {words : UInt8} (h : ¬(words ≠ 2 ∧ words ≠ 4 ∧ words ≠ 8)) :
    words*4 = 8 ∨ words*4 = 16 ∨ words*4 = 32 := by
  by_cases h2 : words = 2
  · exact .inl (by rw [h2]; rfl)
  · by_cases h4 : words = 4
    · exact .inr (.inl (by rw [h4]; rfl))
    · have h8 : words = 8 := by
        by_contra h8
        exact h ⟨h2,h4,h8⟩
      exact .inr (.inr (by rw [h8]; rfl))

/-- A command that fails does nothing. -/
def Refuses (s : EnaState) (r : AdminStatus × Bytes × EnaState) : Prop :=
  ∃ status, status ≠ AdminStatus.success ∧ r = (status,noResp,s)

lemma refuses {s : EnaState} {status : AdminStatus} (h : status ≠ .success) :
    Refuses s (status,noResp,s) :=
  ⟨status,h,rfl⟩

lemma Refuses.queueCmd {s : EnaState} {r : AdminStatus × Bytes × EnaState} (h : Refuses s r) :
    QueueCmd s r := by
  obtain ⟨status,hne,rfl⟩ := h
  exact .refused hne

theorem enaCreateCq_cases (s : EnaState) (cmd : Bytes) : Refuses s (enaCreateCq s cmd) ∨
    ∃ i q resp, (s.cq i).used = false ∧ q.Fresh ∧ enaCreateCq s cmd = (.success,resp,s.setCq i q) ∧
      resp = createCqResp i q.depth ∧ q = (CreateCqCmd.ofBytes cmd).newCq := by
  unfold enaCreateCq
  dsimp only
  split_ifs with hd hb hv
  · exact .inl (refuses (by decide))
  · exact .inl (refuses (by decide))
  · exact .inl (refuses (by decide))
  split
  · exact .inl (refuses (by decide))
  rename_i i hi
  have hfree := List.find?_some hi
  rw [not_or] at hd
  refine .inr ⟨i,_,_,by simpa using hfree,?_,rfl,rfl,rfl⟩
  exact
    { used := rfl
      depth := by simpa using hd.1
      entrySize := entrySize_of_words hd.2
      base := hb
      vector := fun hi => vector_of_not_refused fun hc => hv ⟨hi,hc⟩
      tail := rfl
      phase := rfl }

theorem enaCreateCq_spec (s : EnaState) (cmd : Bytes) : QueueCmd s (enaCreateCq s cmd) := by
  rcases enaCreateCq_cases s cmd with h | ⟨i,q,resp,hfree,hq,h,hresp,-⟩
  · exact h.queueCmd
  · rw [h]
    exact .createCq i q hfree hq hresp

theorem enaDestroyCq_cases (s : EnaState) (cmd : Bytes) : Refuses s (enaDestroyCq s cmd) ∨
    ∃ c : CqIdx, (le16At cmd 4).toNat = c.val ∧ (s.cq c).used = true ∧
      (∀ i, (s.sq i).used = true → (s.sq i).cqIdx.toNat ≠ c.val) ∧
      enaDestroyCq s cmd = (.success,noResp,s.setCq c { s.cq c with used := false }) := by
  unfold enaDestroyCq
  dsimp only
  split_ifs with hi hu hb
  · exact .inl (refuses (by decide))
  · exact .inl (refuses (by decide))
  · refine .inr ⟨⟨(le16At cmd 4).toNat,hi⟩,rfl,by simpa using hu,?_,rfl⟩
    intro i hused heq
    apply hb
    simp only [List.any_eq_true, Bool.and_eq_true, beq_iff_eq]
    exact ⟨i,List.mem_finRange i,hused,UInt16.toNat_inj.mp heq⟩
  · exact .inl (refuses (by decide))

theorem enaDestroyCq_spec (s : EnaState) (cmd : Bytes) : QueueCmd s (enaDestroyCq s cmd) := by
  rcases enaDestroyCq_cases s cmd with h | ⟨c,-,hused,hidle,h⟩
  · exact h.queueCmd
  · rw [h]
    exact .destroyCq c hused hidle

theorem enaCreateSq_cases (s : EnaState) (cmd : Bytes) :
    Holds Fault.Deliberate (fun r => Refuses s r ∨ ∃ i q resp, (s.sq i).used = false ∧ q.Fresh s ∧
      r = (.success,resp,s.setSq i q) ∧ resp = createSqResp i q.llq ∧
      q = (CreateSqCmd.ofBytes cmd).newSq s)
      (enaCreateSq s cmd) := by
  unfold enaCreateSq
  dsimp only
  refine holds_ite (fun _ => holds_pure (.inl (refuses (by decide)))) fun _ => ?_
  refine holds_ite (fun _ => holds_pure (.inl (refuses (by decide)))) fun _ => ?_
  refine holds_ite (fun _ => holds_pure (.inl (refuses (by decide)))) fun hllq => ?_
  refine holds_ite (fun _ => holds_pure (.inl (refuses (by decide)))) fun _ => ?_
  refine holds_ite (fun _ => holds_pure (.inl (refuses (by decide)))) fun _ => ?_
  split
  swap
  · exact holds_pure (.inl (refuses (by decide)))
  rename_i hcq
  refine holds_ite (fun _ => holds_pure (.inl (refuses (by decide)))) fun hused => ?_
  refine holds_ite (fun _ => holds_pure (.inl (refuses (by decide)))) fun hdepth => ?_
  refine holds_ite (fun _ => holds_throw trivial) fun _ => ?_
  split
  · exact holds_pure (.inl (refuses (by decide)))
  rename_i i hi
  have hfree := List.find?_some hi
  refine holds_ite (fun _ => holds_pure (.inl (refuses (by decide)))) fun hbytes => ?_
  rw [not_or] at hused
  rw [not_or,not_or] at hdepth
  refine holds_pure (.inr ⟨i,_,_,by simpa using hfree,?_,rfl,rfl,rfl⟩)
  exact
    { used := rfl
      depth := by simpa using hused.2
      cq := ⟨⟨_,hcq⟩,rfl,by simpa using hused.1,by simpa using hdepth.1,fun htx => by
        by_contra hlt
        exact hdepth.2.2 ⟨by simpa using htx,by simpa using hlt⟩⟩
      llq := fun hl => by
        have hl' : (CreateSqCmd.ofBytes cmd).sqCaps2 &&& 0xf = placementPolicyDev := by
          simpa using hl
        simp only [hl', beq_self_eq_true, true_and, not_or, gt_iff_lt, not_lt] at hllq hbytes
        refine ⟨by simpa using hllq.1,by simpa using hllq.2,by simp [hl'],?_⟩
        simpa [hl'] using hbytes
      host := fun hl => by
        have hl' : ((CreateSqCmd.ofBytes cmd).sqCaps2 &&& 0xf == placementPolicyDev) = false := hl
        simpa [hl'] using hdepth.2.1
      head := rfl
      tail := rfl
      txMeta := rfl }

theorem enaCreateSq_spec (s : EnaState) (cmd : Bytes) :
    Holds Fault.Deliberate (QueueCmd s) (enaCreateSq s cmd) := by
  refine holds_imp (enaCreateSq_cases s cmd) (fun _ => id) fun r h => ?_
  rcases h with h | ⟨i,q,resp,hfree,hq,rfl,hresp,-⟩
  · exact h.queueCmd
  · exact .createSq i q hfree hq hresp

theorem enaDestroySq_cases (s : EnaState) (cmd : Bytes) : Refuses s (enaDestroySq s cmd) ∨
    ∃ i : SqIdx, (le16At cmd 4).toNat = i.val ∧ (s.sq i).used = true ∧
      (s.sq i).isTx = ((u8At cmd 6 &&& 0xe0) >>> 5 == sqDirectionTx) ∧
      enaDestroySq s cmd = (.success,noResp,s.setSq i { s.sq i with used := false }) := by
  unfold enaDestroySq
  dsimp only
  split_ifs with hi hu
  · exact .inl (refuses (by decide))
  · rw [not_or,not_not] at hu
    exact .inr ⟨⟨(le16At cmd 4).toNat,hi⟩,rfl,by simpa using hu.1,hu.2,rfl⟩
  · exact .inl (refuses (by decide))

theorem enaDestroySq_spec (s : EnaState) (cmd : Bytes) : QueueCmd s (enaDestroySq s cmd) := by
  rcases enaDestroySq_cases s cmd with h | ⟨i,-,hused,-,h⟩
  · exact h.queueCmd
  · rw [h]
    exact .destroySq i hused

/-- The slot in the response of a created queue. -/
lemma createSqResp_idx (i : SqIdx) (llq : Bool) :
    (le16At (createSqResp i llq) 0).toNat = i.val := by
  have hread : le16At (createSqResp i llq) 0 = UInt16.ofNat i := by
    unfold createSqResp
    rw [List.append_assoc,List.append_assoc,List.append_assoc]
    exact le16At_ofLe16 _ _
  rw [hread,UInt16.toNat_ofNat']
  exact Nat.mod_eq_of_lt (i.isLt.trans (by decide))

lemma createCqResp_idx (i : CqIdx) (depth : UInt16) :
    (le16At (createCqResp i depth) 0).toNat = i.val := by
  have hread : le16At (createCqResp i depth) 0 = UInt16.ofNat i := by
    unfold createCqResp
    rw [List.append_assoc,List.append_assoc,List.append_assoc]
    exact le16At_ofLe16 _ _
  rw [hread,UInt16.toNat_ofNat']
  exact Nat.mod_eq_of_lt (i.isLt.trans (by decide))

/-- The register offset in it, and the offset in BAR 2. -/
lemma createCqResp_unmask (i : CqIdx) (depth : UInt16) :
    le32At (createCqResp i depth) 12 = UInt32.ofNat (regCqUnmaskBase + i*4) :=
  (le32At_append_right _ (ofLe32 _) 0).trans
    ((congrArg (le32At · 0) (List.append_nil _).symm).trans (le32At_ofLe32 _ []))

lemma createSqResp_doorbell (i : SqIdx) (llq : Bool) :
    le32At (createSqResp i llq) 4 = UInt32.ofNat (regSqDbBase + i*4) := by
  have hread := le32At_append_right (ofLe16 (UInt16.ofNat i) ++ zeros 2)
    (ofLe32 (UInt32.ofNat (regSqDbBase + i*4)) ++
      (ofLe32 (if llq then UInt32.ofNat (i*enaLlqQueueBytes) else 0) ++
      ofLe32 0)) 0
  unfold createSqResp
  rw [List.append_assoc,List.append_assoc]
  exact hread.trans (le32At_ofLe32 _ _)

lemma createSqResp_llq (i : SqIdx) (llq : Bool) :
    le32At (createSqResp i llq) 8 = if llq then UInt32.ofNat (i*enaLlqQueueBytes) else 0 := by
  have hread := le32At_append_right
    (ofLe16 (UInt16.ofNat i) ++ zeros 2 ++ ofLe32 (UInt32.ofNat (regSqDbBase + i*4)))
    (ofLe32 (if llq then UInt32.ofNat (i*enaLlqQueueBytes) else 0) ++ ofLe32 0) 0
  unfold createSqResp
  rw [List.append_assoc]
  exact hread.trans (le32At_ofLe32 _ _)

end EnaDevice
