import EnaDevice.Control.Book

/-! The queue tables as an allocator. The device gives out the lowest slot that the driver does not
hold, and none only if it holds them all. What it returns with it leads back to the slot. -/
namespace EnaDevice
open Bytes Result Relation Slots

namespace CreateCqCmd

/-- The parameter checks of `ena_create_cq`. -/
structure Ok (c : CreateCqCmd) : Prop where
  depth : enaValidDepth c.cqDepth = true
  words : c.cqCaps2 &&& 0x1f = 2 ∨ c.cqCaps2 &&& 0x1f = 4 ∨ c.cqCaps2 &&& 0x1f = 8
  base : c.cqBa ≠ 0
  vector : c.cqCaps1 &&& 0x20 ≠ 0 → c.msixVector = enaMsixVectorNone ∨
    (c.msixVector ≠ 0 ∧ c.msixVector < 9)

end CreateCqCmd

namespace CreateSqCmd

/-- The parameter checks of `ena_create_sq`, also the one that comes after the search for a slot. A
head writeback is not refused but aborts. -/
structure Ok (s : EnaState) (c : CreateSqCmd) : Prop where
  dir : c.dir = sqDirectionTx ∨ c.dir = sqDirectionRx
  placement : c.placement = placementPolicyHost ∨ c.llq = true
  llq : c.llq = true → c.isTx = true ∧ s.llqEnabled = true ∧
    c.sqDepth.toNat*s.llqEntrySize.toNat ≤ enaLlqQueueBytes
  completion : (c.sqCaps2 &&& 0x70) >>> 4 = 0
  contiguous : c.sqCaps3 &&& 1 ≠ 0
  depth : enaValidDepth c.sqDepth = true
  cq : ∃ q : CqIdx, c.cqIdx.toNat = q.val ∧ (s.cq q).used = true ∧ c.sqDepth ≤ (s.cq q).depth ∧
    (c.isTx = false → 16 ≤ (s.cq q).entrySize)
  base : c.llq = false → c.sqBa ≠ 0
  headWriteback : c.sqHeadWriteback = 0

end CreateSqCmd

/-- With what a command asks for, the driver holds no more queue pairs than the device
advertises. -/
def QueueBook.Modest (b : QueueBook) (cmd : Bytes) : Prop :=
  match Opcode.ofCode (u8At cmd 2) with
  | some .createCq => held b.cq (fun _ => true) + 1 ≤ enaMaxIoQueues.toNat + enaMaxIoQueues.toNat
  | some .createSq =>
    let isTx := (CreateSqCmd.ofBytes cmd).isTx
    held b.sq (fun q => q.isTx) + (if isTx then 1 else 0) ≤ enaMaxIoQueues.toNat ∧
      held b.sq (fun q => !q.isTx) + (if isTx then 0 else 1) ≤ enaMaxIoQueues.toNat
  | _ => True

/-- Runs of the device from a reset, down to single admin commands, with the answers since then.
What is between two commands of a batch does not touch the queues. -/
inductive QueueRun (net : Net) : World → List AdminReply → Prop
  | reset (w : World) : QueueRun net (enaDevReset w) []
  | exec {w w' : World} {rs : List AdminReply} {cmd resp : Bytes} {status : AdminStatus}
    (h : QueueRun net w rs) (hexec : enaAdminExec w cmd = .ok (status,resp,w')) :
    QueueRun net w' (rs ++ [⟨cmd,status,resp⟩])
  | between {w w' : World} {rs : List AdminReply} (h : QueueRun net w rs)
    (hs : SameQueues w.dev w'.dev) :
    QueueRun net w' rs
  | step {w w' : World} {rs : List AdminReply} {inp : Input} (h : QueueRun net w rs)
    (hs : step net w inp = .ok w') (hreset : ¬ inp.Resets)
    (hadmin : ∀ val, inp ≠ .regWrite regAqDb val) :
    QueueRun net w' rs
  | resets {w w' : World} {rs : List AdminReply} {inp : Input} (h : QueueRun net w rs)
    (hs : step net w inp = .ok w') (hreset : inp.Resets) : QueueRun net w' []

/-- `ena_reg_write` decodes the offset as the doorbell of the SQ. -/
def RingsSq (off : UInt32) (i : SqIdx) : Prop :=
  ∀ net w val, enaRegWrite net w off.toNat val = enaSqDoorbell net w i val.toUInt32

/-- It decodes the offset as the unmask register of the CQ. -/
def UnmasksCq (off : UInt32) (c : CqIdx) : Prop :=
  ∀ net w val, enaRegWrite net w off.toNat val = .ok (enaCqUnmaskWrite w c val.toUInt32)

/-- `ena_llq_mem` gives the SQ the part of BAR 2 that starts at the offset. -/
def MapsLlq (off : UInt32) (i : SqIdx) : Prop :=
  ∀ w q pos len, q.llq = true → pos + len ≤ enaLlqQueueBytes →
    enaLlqRead w i q pos len = .ok (List.ofFn fun j : Fin len => w.llq (off.toNat + pos + j))

/-- The queue commands, as an allocator answers them to a driver with the book given. -/
structure Allocates (w : World) (b : QueueBook) : Prop where
  createCq : ∀ cmd, Opcode.ofCode (u8At cmd 2) = some .createCq → (CreateCqCmd.ofBytes cmd).Ok →
    ∃ status resp w', enaAdminExec w cmd = .ok (status,resp,w') ∧
      (status = .resourceAllocationFailure ↔ Full b.cq) ∧
      (¬ Full b.cq → status = .success ∧ ∃ c, Lowest b.cq c ∧ (le16At resp 0).toNat = c.val ∧
        UnmasksCq (le32At resp 12) c ∧ ∀ c' off, b.cq c' = some off → off ≠ le32At resp 12)
  createSq : ∀ cmd, Opcode.ofCode (u8At cmd 2) = some .createSq →
    (CreateSqCmd.ofBytes cmd).Ok w.dev →
    ∃ status resp w', enaAdminExec w cmd = .ok (status,resp,w') ∧
      (status = .resourceAllocationFailure ↔ Full b.sq) ∧
      (¬ Full b.sq → status = .success ∧ ∃ i, Lowest b.sq i ∧ (le16At resp 0).toNat = i.val ∧
        RingsSq (le32At resp 4) i ∧ (∀ j q, b.sq j = some q → q.doorbell ≠ le32At resp 4) ∧
        ((CreateSqCmd.ofBytes cmd).llq = true → MapsLlq (le32At resp 8) i ∧
          ∀ j q, b.sq j = some q → q.llq = true → q.llqOffset ≠ le32At resp 8))
  destroyCq : ∀ cmd, Opcode.ofCode (u8At cmd 2) = some .destroyCq →
    ∃ status resp w', enaAdminExec w cmd = .ok (status,resp,w') ∧
      (status = .success ↔ ∃ c : CqIdx, (le16At cmd 4).toNat = c.val ∧ b.cq c ≠ none ∧
        ∀ i q, b.sq i = some q → q.cqIdx.toNat ≠ c.val)
  destroySq : ∀ cmd, Opcode.ofCode (u8At cmd 2) = some .destroySq →
    ∃ status resp w', enaAdminExec w cmd = .ok (status,resp,w') ∧
      (status = .success ↔ ∃ (i : SqIdx) (q : BookedSq), (le16At cmd 4).toNat = i.val ∧
        b.sq i = some q ∧
        q.isTx = ((u8At cmd 6 &&& 0xe0) >>> 5 == sqDirectionTx))
  /-- A command leaves the queues that are held alone, except for the one that it destroys. -/
  others : ∀ cmd status resp w', Opcode.ofCode (u8At cmd 2) ∈
      [some .createCq,some .destroyCq,some .createSq,some .destroySq] →
    enaAdminExec w cmd = .ok (status,resp,w') →
    (∀ c, b.cq c ≠ none → (Opcode.ofCode (u8At cmd 2) = some .destroyCq →
      (le16At cmd 4).toNat ≠ c.val) →
      w'.dev.cq c = w.dev.cq c) ∧
    ∀ i, b.sq i ≠ none → (Opcode.ofCode (u8At cmd 2) = some .destroySq →
      (le16At cmd 4).toNat ≠ i.val) →
      w'.dev.sq i = w.dev.sq i

section Create
variable {s s' : EnaState} {cmd resp : Bytes} {status : AdminStatus}

/-- A command with good parameters gets the first slot that is not in use. -/
lemma enaCreateCq_eq (s : EnaState) (hok : (CreateCqCmd.ofBytes cmd).Ok) : enaCreateCq s cmd =
    match (List.finRange 16).find? fun i => !(s.cq i).used with
    | none => (.resourceAllocationFailure,noResp,s)
    | some i => (.success,createCqResp i (CreateCqCmd.ofBytes cmd).cqDepth,
      s.setCq i (CreateCqCmd.ofBytes cmd).newCq) := by
  have hwords := hok.words
  have hvector : ¬ (((CreateCqCmd.ofBytes cmd).cqCaps1 &&& 0x20 != 0) = true ∧
      (CreateCqCmd.ofBytes cmd).msixVector ≠ enaMsixVectorNone ∧
      ((CreateCqCmd.ofBytes cmd).msixVector = 0 ∨ (CreateCqCmd.ofBytes cmd).msixVector ≥ 9)) := by
    rintro ⟨hintr,hnone,hbad⟩
    obtain ⟨hzero,hlt⟩ := (hok.vector (by simpa using hintr)).resolve_left hnone
    exact hbad.elim hzero (UInt32.not_le.mpr hlt)
  unfold enaCreateCq
  dsimp only
  rw [if_neg (by rw [hok.depth]; simp; tauto),if_neg hok.base,if_neg hvector]
  rfl

lemma enaCreateSq_eq (hok : (CreateSqCmd.ofBytes cmd).Ok s) : enaCreateSq s cmd =
    match (List.finRange 16).find? fun i => !(s.sq i).used with
    | none => .ok (.resourceAllocationFailure,noResp,s)
    | some i => .ok (.success,createSqResp i (CreateSqCmd.ofBytes cmd).llq,
      s.setSq i ((CreateSqCmd.ofBytes cmd).newSq s)) := by
  obtain ⟨q,hq,hused,hdepth,hentry⟩ := hok.cq
  have hlt : (CreateSqCmd.ofBytes cmd).cqIdx.toNat < 16 := hq ▸ q.isLt
  obtain rfl : q = ⟨_,hlt⟩ := Fin.ext hq.symm
  have hvalid := hok.depth
  have hbase := hok.base
  have hllq := hok.llq
  have hplace := hok.placement
  have hdir := hok.dir
  simp only [enaCreateSq]
  generalize CreateSqCmd.ofBytes cmd = c at *
  have h₁ : ¬ (c.dir ≠ sqDirectionTx ∧ c.dir ≠ sqDirectionRx) := fun h => hdir.elim h.1 h.2
  have h₂ : ¬ (c.placement ≠ placementPolicyHost ∧ (!c.llq) = true) := by
    rintro ⟨hp,hl⟩
    rw [hplace.resolve_left hp] at hl
    cases hl
  have h₃ : ¬ (c.llq = true ∧ ((!c.isTx) = true ∨ (!s.llqEnabled) = true)) := by
    rintro ⟨hl,hbad⟩
    obtain ⟨htx,hon,-⟩ := hllq hl
    rw [htx,hon] at hbad
    exact hbad.elim (fun h => by cases h) fun h => by cases h
  have h₆ : ¬ ((!(s.cq ⟨c.cqIdx.toNat,hlt⟩).used) = true ∨ (!enaValidDepth c.sqDepth) = true) := by
    rw [hused,hvalid]
    exact fun h => h.elim (fun h => by cases h) fun h => by cases h
  have h₇ : ¬ (c.sqDepth > (s.cq ⟨c.cqIdx.toNat,hlt⟩).depth ∨ ((!c.llq) = true ∧ c.sqBa = 0) ∨
      ((!c.isTx) = true ∧ (s.cq ⟨c.cqIdx.toNat,hlt⟩).entrySize < 16)) := by
    rintro (h | ⟨hl,hz⟩ | ⟨htx,hsmall⟩)
    · exact UInt16.not_lt.mpr hdepth h
    · exact hbase (by simpa using hl) hz
    · exact UInt8.not_lt.mpr (hentry (by simpa using htx)) hsmall
  have h₉ : ¬ (c.llq = true ∧ c.sqDepth.toNat*s.llqEntrySize.toNat > enaLlqQueueBytes) := by
    rintro ⟨hl,hbig⟩
    exact absurd (hllq hl).2.2 (Nat.not_le.mpr hbig)
  change (if c.dir ≠ sqDirectionTx ∧ c.dir ≠ sqDirectionRx then _ else _) = _
  rw [if_neg h₁]
  change (if c.placement ≠ placementPolicyHost ∧ (!c.llq) = true then _ else _) = _
  rw [if_neg h₂]
  change (if c.llq = true ∧ ((!c.isTx) = true ∨ (!s.llqEnabled) = true) then _ else _) = _
  rw [if_neg h₃,if_neg (not_ne_iff.mpr hok.completion),if_neg hok.contiguous,dif_pos hlt,if_neg h₆]
  change (if c.sqDepth > (s.cq ⟨c.cqIdx.toNat,hlt⟩).depth ∨ ((!c.llq) = true ∧ c.sqBa = 0) ∨
    ((!c.isTx) = true ∧ (s.cq ⟨c.cqIdx.toNat,hlt⟩).entrySize < 16) then _ else _) = _
  rw [if_neg h₇,if_neg (not_ne_iff.mpr hok.headWriteback)]
  cases (List.finRange 16).find? fun i => !(s.sq i).used with
  | none => rfl
  | some i =>
    change (if c.llq = true ∧ c.sqDepth.toNat*s.llqEntrySize.toNat >
      enaLlqQueueBytes then _ else _) = _
    rw [if_neg h₉]
    rfl

end Create

section Offsets

lemma offset_toNat {base size : ℕ} (i : Fin 16) (h : base + 15*size < 2^32) :
    (UInt32.ofNat (base + i*size)).toNat = base + i*size := by
  have hle : i.val*size ≤ 15*size := Nat.mul_le_mul_right size (Nat.le_of_lt_succ i.isLt)
  rw [UInt32.toNat_ofNat']
  exact Nat.mod_eq_of_lt (by omega)

/-- Offsets of different slots are different. -/
lemma offset_inj {base size : ℕ} {i j : Fin 16} (h : base + 15*size < 2^32) (hsize : 0 < size)
    (he : UInt32.ofNat (base + i*size) = UInt32.ofNat (base + j*size)) : i = j := by
  have hnat := congrArg UInt32.toNat he
  rw [offset_toNat i h,offset_toNat j h] at hnat
  exact Fin.ext (Nat.eq_of_mul_eq_mul_right hsize (Nat.add_left_cancel hnat))

lemma ringsSq (i : SqIdx) : RingsSq (UInt32.ofNat (regSqDbBase + i*4)) i := by
  intro net w val
  rw [offset_toNat i (by decide),Nat.mul_comm]
  exact enaRegWrite_doorbell net w i val

lemma unmasksCq (c : CqIdx) : UnmasksCq (UInt32.ofNat (regCqUnmaskBase + c*4)) c := by
  intro net w val
  have hc := c.isLt
  have hslot : (⟨(regCqUnmaskBase + c*4 - regCqUnmaskBase)/4,by omega⟩ : CqIdx) = c := by
    apply Fin.ext
    change (regCqUnmaskBase + c.val*4 - regCqUnmaskBase)/4 = c.val
    omega
  have hsq : ¬ (regSqDbBase ≤ regCqUnmaskBase + c.val*4 ∧
      regCqUnmaskBase + c.val*4 < regSqDbBase + 16*4) := by
    simp only [regSqDbBase,regCqUnmaskBase]
    omega
  rw [offset_toNat c (by decide),enaRegWrite,dif_neg hsq,dif_pos ⟨by omega,by omega⟩]
  simp only [hslot]
  rfl

lemma mapsLlq (i : SqIdx) : MapsLlq (UInt32.ofNat (i*enaLlqQueueBytes)) i := by
  intro w q pos len hllq hlen
  have hoff : (UInt32.ofNat (i*enaLlqQueueBytes)).toNat = i*enaLlqQueueBytes := by
    have hnat := @offset_toNat 0 enaLlqQueueBytes i (by decide)
    rw [Nat.zero_add] at hnat
    exact hnat
  have hi : i.val*enaLlqQueueBytes ≤ 15*enaLlqQueueBytes :=
    Nat.mul_le_mul_right _ (Nat.le_of_lt_succ i.isLt)
  have hfit : i.val*enaLlqQueueBytes + pos + len ≤ enaMemBarSize := by
    have hbar : enaMemBarSize = 16*enaLlqQueueBytes := rfl
    rw [hbar]
    generalize enaLlqQueueBytes = bytes at hi hlen ⊢
    omega
  unfold enaLlqRead
  simp only [check,hllq,if_true,ok_bind,hfit,decide_true,hoff]
  rfl

end Offsets

section Allocates
variable {w w' : World} {cmd resp : Bytes} {status : AdminStatus}

lemma enaAdminExec_createCq (w : World) (hop : Opcode.ofCode (u8At cmd 2) = some .createCq)
    (hok : (CreateCqCmd.ofBytes cmd).Ok) :
    ∃ status resp w', enaAdminExec w cmd = .ok (status,resp,w') ∧
      (status = .resourceAllocationFailure ↔ Full w.dev.book.cq) ∧
      (¬ Full w.dev.book.cq → status = .success ∧ ∃ c, Lowest w.dev.book.cq c ∧
        (le16At resp 0).toNat = c.val ∧
        UnmasksCq (le32At resp 12) c ∧ ∀ c' off, w.dev.book.cq c' = some off →
        off ≠ le32At resp 12) := by
  have hexec : enaAdminExec w cmd = .ok (w.onDev (enaCreateCq w.dev cmd)) := by
    unfold enaAdminExec
    rw [hop]
    rfl
  have hfree : ∀ c, (!(w.dev.cq c).used) = true ↔ w.dev.book.cq c = none := by
    intro c
    rw [Bool.not_eq_true',booked_cq]
  refine ⟨_,_,_,hexec,?_⟩
  rw [enaCreateCq_eq w.dev hok]
  cases hfind : (List.finRange 16).find? fun i => !(w.dev.cq i).used with
  | none =>
    have hfull := (find_eq_none_iff hfree).mp hfind
    exact ⟨⟨fun _ => hfull,fun _ => rfl⟩,fun hno => absurd hfull hno⟩
  | some c =>
    have hlow := lowest_of_find hfree hfind
    refine ⟨⟨nofun,fun hfull => absurd hfull hlow.not_full⟩,
      fun _ => ⟨rfl,c,hlow,createCqResp_idx c _,?_,?_⟩⟩
    · dsimp only [World.onDev]
      rw [createCqResp_unmask]
      exact unmasksCq c
    · intro c' off hoff
      dsimp only [World.onDev]
      rw [createCqResp_unmask]
      rintro rfl
      change (if _ then _ else _) = _ at hoff
      split_ifs at hoff with hu
      obtain rfl := offset_inj (by decide) (by decide) (Option.some.inj hoff)
      exact absurd hlow.1 (by rw [booked_cq,hu]; decide)

lemma enaAdminExec_createSq (hop : Opcode.ofCode (u8At cmd 2) = some .createSq)
    (hok : (CreateSqCmd.ofBytes cmd).Ok w.dev) :
    ∃ status resp w', enaAdminExec w cmd = .ok (status,resp,w') ∧
      (status = .resourceAllocationFailure ↔ Full w.dev.book.sq) ∧
      (¬ Full w.dev.book.sq → status = .success ∧ ∃ i, Lowest w.dev.book.sq i ∧
        (le16At resp 0).toNat = i.val ∧
        RingsSq (le32At resp 4) i ∧ (∀ j q, w.dev.book.sq j = some q → q.doorbell ≠ le32At resp 4) ∧
        ((CreateSqCmd.ofBytes cmd).llq = true → MapsLlq (le32At resp 8) i ∧
          ∀ j q, w.dev.book.sq j = some q → q.llq = true → q.llqOffset ≠ le32At resp 8)) := by
  have hfree : ∀ i, (!(w.dev.sq i).used) = true ↔ w.dev.book.sq i = none := by
    intro i
    rw [Bool.not_eq_true',booked_sq]
  have hcreate := enaCreateSq_eq hok
  have hexec : ∀ r, enaCreateSq w.dev cmd = .ok r → enaAdminExec w cmd = .ok (w.onDev r) := by
    intro r hr
    unfold enaAdminExec
    rw [hop]
    change (enaCreateSq w.dev cmd >>= _) = _
    rw [hr]
    rfl
  cases hfind : (List.finRange 16).find? fun i => !(w.dev.sq i).used with
  | none =>
    have hfull := (find_eq_none_iff hfree).mp hfind
    rw [hfind] at hcreate
    exact ⟨_,_,_,hexec _ hcreate,⟨fun _ => hfull,fun _ => rfl⟩,fun hno => absurd hfull hno⟩
  | some i =>
    have hlow := lowest_of_find hfree hfind
    rw [hfind] at hcreate
    refine ⟨_,_,_,hexec _ hcreate,⟨nofun,fun hfull => absurd hfull hlow.not_full⟩,
      fun _ => ⟨rfl,i,hlow,?_⟩⟩
    -- a queue in the book has another slot, because this one was free
    have hother : ∀ {j q}, w.dev.book.sq j = some q → j ≠ i := by
      rintro j q hq rfl
      rw [hlow.1] at hq
      cases hq
    rw [createSqResp_doorbell,createSqResp_llq]
    refine ⟨createSqResp_idx i _,ringsSq i,fun j q hq he => ?_,
      fun hllq => ⟨?_,fun j q hq hl he => ?_⟩⟩
    · rw [(of_booked_sq hq).2] at he
      exact hother hq (offset_inj (by decide) (by decide) he)
    · rw [if_pos hllq]
      exact mapsLlq i
    · obtain ⟨-,rfl⟩ := of_booked_sq hq
      rw [if_pos hllq,if_pos hl] at he
      refine hother hq (@offset_inj 0 enaLlqQueueBytes j i (by decide) (by decide) ?_)
      rw [Nat.zero_add,Nat.zero_add]
      exact he

lemma enaAdminExec_destroyCq (w : World) (hop : Opcode.ofCode (u8At cmd 2) = some .destroyCq) :
    ∃ status resp w', enaAdminExec w cmd = .ok (status,resp,w') ∧
      (status = .success ↔ ∃ c : CqIdx, (le16At cmd 4).toNat = c.val ∧ w.dev.book.cq c ≠ none ∧
        ∀ i q, w.dev.book.sq i = some q → q.cqIdx.toNat ≠ c.val) := by
  have hexec : enaAdminExec w cmd = .ok (w.onDev (enaDestroyCq w.dev cmd)) := by
    unfold enaAdminExec
    rw [hop]
    rfl
  refine ⟨_,_,_,hexec,fun hok => ?_,?_⟩
  · change (enaDestroyCq w.dev cmd).1 = .success at hok
    rcases enaDestroyCq_cases w.dev cmd with ⟨st,hne,hr⟩ | ⟨c,hidx,hused,hidle,-⟩
    · rw [hr] at hok
      exact absurd hok hne
    · refine ⟨c,hidx,?_,fun i q hq => ?_⟩
      · rw [Ne,booked_cq,hused]
        decide
      · obtain ⟨hu,rfl⟩ := of_booked_sq hq
        exact hidle i hu
  · rintro ⟨c,hidx,hlive,hidle⟩
    have hlt : (le16At cmd 4).toNat < 16 := hidx ▸ c.isLt
    obtain rfl : c = ⟨_,hlt⟩ := Fin.ext hidx.symm
    rw [Ne,booked_cq,Bool.not_eq_false] at hlive
    have hbusy : ¬ ((List.finRange 16).any fun i =>
        (w.dev.sq i).used && (w.dev.sq i).cqIdx == le16At cmd 4) = true := by
      intro hany
      obtain ⟨i,-,hi⟩ := List.any_eq_true.mp hany
      rw [Bool.and_eq_true,beq_iff_eq] at hi
      have hbooked : w.dev.book.sq i = some _ := if_pos hi.1
      exact hidle i _ hbooked (congrArg UInt16.toNat hi.2)
    unfold enaDestroyCq
    dsimp only
    rw [dif_pos hlt,if_neg (by rw [hlive]; decide),if_neg hbusy]

lemma enaAdminExec_destroySq (w : World) (hop : Opcode.ofCode (u8At cmd 2) = some .destroySq) :
    ∃ status resp w', enaAdminExec w cmd = .ok (status,resp,w') ∧
      (status = .success ↔ ∃ (i : SqIdx) (q : BookedSq), (le16At cmd 4).toNat = i.val ∧
        w.dev.book.sq i = some q ∧
        q.isTx = ((u8At cmd 6 &&& 0xe0) >>> 5 == sqDirectionTx)) := by
  have hexec : enaAdminExec w cmd = .ok (w.onDev (enaDestroySq w.dev cmd)) := by
    unfold enaAdminExec
    rw [hop]
    rfl
  refine ⟨_,_,_,hexec,fun hok => ?_,?_⟩
  · change (enaDestroySq w.dev cmd).1 = .success at hok
    unfold enaDestroySq at hok
    dsimp only at hok
    split_ifs at hok with hlt hbad
    rw [not_or,not_not] at hbad
    have hused : (w.dev.sq ⟨_,hlt⟩).used = true := by simpa using hbad.1
    exact ⟨⟨_,hlt⟩,_,rfl,if_pos hused,hbad.2⟩
  · rintro ⟨i,q,hidx,hlive,hdir⟩
    have hlt : (le16At cmd 4).toNat < 16 := hidx ▸ i.isLt
    obtain rfl : i = ⟨_,hlt⟩ := Fin.ext hidx.symm
    obtain ⟨hused,rfl⟩ := of_booked_sq hlive
    have hgood : ¬ ((!(w.dev.sq ⟨_,hlt⟩).used) = true ∨
        (w.dev.sq ⟨_,hlt⟩).isTx ≠ ((u8At cmd 6 &&& 0xe0) >>> 5 == sqDirectionTx)) := by
      rw [hused,not_or,not_not]
      exact ⟨by decide,hdir⟩
    unfold enaDestroySq
    dsimp only
    rw [dif_pos hlt,if_neg hgood]

/-- A command changes one slot of one table, which is free or the one to be destroyed. -/
lemma Tabled.others {s s' : EnaState} (h : Tabled s cmd status resp s') :
    (∀ c, s.book.cq c ≠ none → (Opcode.ofCode (u8At cmd 2) = some .destroyCq →
      (le16At cmd 4).toNat ≠ c.val) →
      s'.cq c = s.cq c) ∧
    ∀ i, s.book.sq i ≠ none → (Opcode.ofCode (u8At cmd 2) = some .destroySq →
      (le16At cmd 4).toNat ≠ i.val) →
      s'.sq i = s.sq i := by
  cases h with
  | refused _ hsq hcq => exact ⟨fun c _ _ => congrFun hcq c,fun i _ _ => congrFun hsq i⟩
  | other _ hsq hcq => exact ⟨fun c _ _ => congrFun hcq c,fun i _ _ => congrFun hsq i⟩
  | createCq _ c hfree =>
    refine ⟨fun c' hlive _ => Function.update_of_ne ?_ _ _,fun _ _ _ => rfl⟩
    rintro rfl
    exact hlive ((booked_cq _ _).mpr hfree)
  | destroyCq hop c hidx =>
    refine ⟨fun c' _ hne => Function.update_of_ne ?_ _ _,fun _ _ _ => rfl⟩
    rintro rfl
    exact hne hop hidx
  | createSq _ i hfree =>
    refine ⟨fun _ _ _ => rfl,fun j hlive _ => Function.update_of_ne ?_ _ _⟩
    rintro rfl
    exact hlive ((booked_sq _ _).mpr hfree)
  | destroySq hop i hidx =>
    refine ⟨fun _ _ _ => rfl,fun j _ hne => Function.update_of_ne ?_ _ _⟩
    rintro rfl
    exact hne hop hidx

lemma allocates_book (w : World) : Allocates w w.dev.book where
  createCq _ hop hok := enaAdminExec_createCq w hop hok
  createSq _ hop hok := enaAdminExec_createSq hop hok
  destroyCq _ hop := enaAdminExec_destroyCq w hop
  destroySq _ hop := enaAdminExec_destroySq w hop
  others _ _ _ _ _ hexec := (enaAdminExec_tabled hexec).others

end Allocates

/-- An answer that fits the book: what was destroyed was held, and what could not be created had no
slot. -/
structure QueueBook.Fits (b : QueueBook) (r : AdminReply) : Prop where
  destroyedCq : ∀ c : CqIdx, r.Destroys .destroyCq c → b.cq c ≠ none
  destroyedSq : ∀ i : SqIdx, r.Destroys .destroySq i → b.sq i ≠ none
  fullCq : r.opcode = some .createCq → r.status = .resourceAllocationFailure → Full b.cq
  fullSq : r.opcode = some .createSq → r.status = .resourceAllocationFailure → Full b.sq

/-- Every answer fits the book of the earlier ones. -/
def Fitting (rs : List AdminReply) : Prop :=
  ∀ rs₁ r rs₂, rs = rs₁ ++ r :: rs₂ → (QueueBook.ofReplies rs₁).Fits r

section Run
variable {net : Net} {w w' : World} {rs : List AdminReply} {cmd resp : Bytes} {status : AdminStatus}

lemma enaAdminExec_fits (hexec : enaAdminExec w cmd = .ok (status,resp,w')) :
    w.dev.book.Fits ⟨cmd,status,resp⟩ where
  destroyedCq c h := by
    obtain ⟨st,rp,w₁,he,hiff⟩ := enaAdminExec_destroyCq w h.opcode
    cases he.symm.trans hexec
    obtain ⟨c',hidx,hlive,-⟩ := hiff.mp h.status
    obtain rfl : c' = c := Fin.ext (hidx.symm.trans h.index)
    exact hlive
  destroyedSq i h := by
    obtain ⟨st,rp,w₁,he,hiff⟩ := enaAdminExec_destroySq w h.opcode
    cases he.symm.trans hexec
    obtain ⟨i',q,hidx,hlive,-⟩ := hiff.mp h.status
    obtain rfl : i' = i := Fin.ext (hidx.symm.trans h.index)
    rw [hlive]
    exact Option.some_ne_none q
  fullCq hop hfail := by
    have hop' : Opcode.ofCode (u8At cmd 2) = some .createCq := hop
    unfold enaAdminExec at hexec
    rw [hop'] at hexec
    cases hexec
    exact enaCreateCq_full hfail
  fullSq hop hfail := by
    have hop' : Opcode.ofCode (u8At cmd 2) = some .createSq := hop
    unfold enaAdminExec at hexec
    rw [hop'] at hexec
    obtain ⟨r,hr,he⟩ := bind_eq_ok.mp hexec
    cases he
    exact (enaCreateSq_full w.dev cmd).of_ok hr hfail

lemma Fitting.concat {r : AdminReply} (h : Fitting rs) (hr : (QueueBook.ofReplies rs).Fits r) :
    Fitting (rs ++ [r]) := by
  intro rs₁ r' rs₂ hsplit
  rcases List.eq_nil_or_concat rs₂ with rfl | ⟨rs₃,x,rfl⟩
  · obtain ⟨rfl,hlast⟩ := List.append_inj' hsplit rfl
    cases hlast
    exact hr
  · have hassoc : rs ++ [r] = (rs₁ ++ r' :: rs₃) ++ [x] := by
      rw [hsplit,List.concat_eq_append,List.append_assoc,List.cons_append]
    exact h rs₁ r' rs₃ (List.append_inj' hassoc rfl).1

/-- The book of the answers is what is in the tables. -/
lemma QueueRun.inv (h : QueueRun net w rs) :
    (TableInv w.dev ∧ TxIdle none w.dev) ∧ w.dev.book = .ofReplies rs ∧ Fitting rs := by
  have hnil : Fitting [] := fun rs₁ r rs₂ hsplit => by simp at hsplit
  induction h with
  | reset w => exact ⟨reset_tables w,book_devReset w.dev,hnil⟩
  | @exec w w' rs cmd resp status _ hexec ih =>
    obtain ⟨⟨hw,hidle⟩,hbook,hfit⟩ := ih
    have hpath : Path w .qdevReset w w' := ((enaAdminExec_spec w cmd).of_ok hexec).path trivial
    refine ⟨⟨hpath.tableInv hw,hpath.txIdle hidle⟩,?_,hfit.concat ?_⟩
    · rw [(enaAdminExec_tabled hexec).book,hbook,QueueBook.ofReplies_concat]
    · rw [← hbook]
      exact enaAdminExec_fits hexec
  | between _ hs ih =>
    obtain ⟨⟨hw,hidle⟩,hbook,hfit⟩ := ih
    exact ⟨⟨hw.of_sameQueues hs,hidle.of_sameQueues hs⟩,(book_congr hs.sq hs.cq).trans hbook,hfit⟩
  | step _ hs hreset hadmin ih =>
    obtain ⟨hw,hbook,hfit⟩ := ih
    exact ⟨step_tables hw hs,(step_book hw hs hreset hadmin).trans hbook,hfit⟩
  | resets _ hs hreset ih =>
    have hdata := step_resets hs hreset
    exact ⟨step_tables ih.1 hs,book_congr hdata.sq hdata.cq,hnil⟩

/-- What is destroyed twice was created in between. -/
lemma Fitting.recreated_cq {rs₁ rs₂ rs₃ : List AdminReply} {d₁ d₂ : AdminReply} {c : CqIdx}
    (h : Fitting (rs₁ ++ d₁ :: (rs₂ ++ d₂ :: rs₃))) (h₁ : d₁.Destroys .destroyCq c)
    (h₂ : d₂.Destroys .destroyCq c) :
    ∃ r ∈ rs₂, r.Creates .createCq c := by
  by_contra hno
  have hlive := (h (rs₁ ++ d₁ :: rs₂) d₂ rs₃ (by simp)).destroyedCq c h₂
  refine hlive (QueueBook.stays_free (fun b => b.cq c) (fun b => QueueBook.after_destroyed_cq h₁)
    (fun b r => QueueBook.after_free_cq) fun r hr hc => hno ⟨r,hr,hc⟩)

lemma Fitting.recreated_sq {rs₁ rs₂ rs₃ : List AdminReply} {d₁ d₂ : AdminReply} {i : SqIdx}
    (h : Fitting (rs₁ ++ d₁ :: (rs₂ ++ d₂ :: rs₃))) (h₁ : d₁.Destroys .destroySq i)
    (h₂ : d₂.Destroys .destroySq i) :
    ∃ r ∈ rs₂, r.Creates .createSq i := by
  by_contra hno
  have hlive := (h (rs₁ ++ d₁ :: rs₂) d₂ rs₃ (by simp)).destroyedSq i h₂
  refine hlive (QueueBook.stays_free (fun b => b.sq i) (fun b => QueueBook.after_destroyed_sq h₁)
    (fun b r => QueueBook.after_free_sq) fun r hr hc => hno ⟨r,hr,hc⟩)

/-- A driver that holds no more pairs than advertised finds a slot. -/
lemma QueueBook.Fits.of_modest {b : QueueBook} {r : AdminReply} (h : b.Fits r) (hm : b.Modest r.cmd)
    (hop : r.opcode = some .createCq ∨ r.opcode = some .createSq) :
    r.status ≠ .resourceAllocationFailure := by
  intro hfail
  have hmax : enaMaxIoQueues.toNat = 8 := rfl
  rcases hop with hop | hop
  · have hcard := card_le_held (h.fullCq hop hfail) fun _ => true
    have hnone : held b.cq (fun _ => !true) = 0 := by
      rw [held,Finset.card_eq_zero,Finset.filter_eq_empty_iff]
      intro c _
      cases b.cq c <;> simp
    rw [QueueBook.Modest,show Opcode.ofCode (u8At r.cmd 2) = some .createCq from hop] at hm
    dsimp only at hm
    omega
  · have hcard := card_le_held (h.fullSq hop hfail) fun q => q.isTx
    rw [QueueBook.Modest,show Opcode.ofCode (u8At r.cmd 2) = some .createSq from hop] at hm
    dsimp only at hm
    obtain ⟨htx,hrx⟩ := hm
    split_ifs at htx hrx <;> omega

lemma QueueRun.adminIters {r : AdminRings} (h : ReflTransGen (AdminIter r) w w')
    (hw : QueueRun net w rs) :
    ∃ rs', QueueRun net w' rs' := by
  induction h with
  | refl => exact ⟨rs,hw⟩
  | @tail w₁ w₂ _ hiter ih =>
    obtain ⟨rs',hrun⟩ := ih
    obtain ⟨status,resp,w₃,hexec,rfl⟩ := hiter.exec
    have htaken : SameQueues w₁.dev w₁.aqTaken.dev := ⟨rfl,rfl,rfl,rfl,rfl,rfl⟩
    exact ⟨_,((hrun.between htaken).exec hexec).between ⟨rfl,rfl,rfl,rfl,rfl,rfl⟩⟩

/-- Every run of the device is one of those above. -/
lemma QueueRun.of_reachable (h : Reachable net w) : ∃ rs, QueueRun net w rs := by
  obtain ⟨w₀,inputs,hrun⟩ := h
  refine run_invariant (P := fun w => ∃ rs, QueueRun net w rs) (fun w inp w' hw hs => ?_)
    ⟨[],.reset w₀⟩ hrun
  obtain ⟨rs,hw⟩ := hw
  by_cases hreset : inp.Resets
  · exact ⟨[],hw.resets hs hreset⟩
  by_cases hadmin : ∃ val, inp = .regWrite regAqDb val
  swap
  · exact ⟨rs,hw.step hs hreset fun val he => hadmin ⟨val,he⟩⟩
  obtain ⟨val,rfl⟩ := hadmin
  have hreg : SameQueues w.dev (w.setDev (w.dev.setReg regAqDb val.toUInt32)).dev :=
    ⟨rfl,rfl,rfl,rfl,rfl,rfl⟩
  cases enaAdminProcess_ran hs with
  | ignored => exact ⟨rs,hw.between hreg⟩
  | @ran r w₁ w₂ _ hiters htail hintr =>
    obtain ⟨rs',hrun⟩ := QueueRun.adminIters hiters (hw.between hreg)
    have hlast : SameQueues w₁.dev w'.dev := by
      rcases hintr with rfl | rfl
      · rw [htail]
        exact ⟨rfl,rfl,rfl,rfl,rfl,rfl⟩
      · rw [dev_adminIntr,htail]
        exact ⟨rfl,rfl,rfl,rfl,rfl,rfl⟩
    exact ⟨rs',hrun.between hlast⟩

/-- The queue slots are an exact allocator. In every run the commands are answered from the book of
the driver, an index is destroyed again only after it was created again, and a driver that holds no
more queue pairs than the device advertises never runs out of slots. -/
theorem queue_slots_allocate (net : Net) :
    (∀ w, Reachable net w → ∃ rs, QueueRun net w rs) ∧
    ∀ w rs, QueueRun net w rs →
      Allocates w (.ofReplies rs) ∧
      (∀ rs₁ rs₂ rs₃ d₁ d₂, rs = rs₁ ++ d₁ :: (rs₂ ++ d₂ :: rs₃) →
        (∀ c : CqIdx, d₁.Destroys .destroyCq c → d₂.Destroys .destroyCq c →
        ∃ r ∈ rs₂, r.Creates .createCq c) ∧
        ∀ i : SqIdx, d₁.Destroys .destroySq i → d₂.Destroys .destroySq i →
        ∃ r ∈ rs₂, r.Creates .createSq i) ∧
      ((∀ rs₁ r rs₂, rs = rs₁ ++ r :: rs₂ → (QueueBook.ofReplies rs₁).Modest r.cmd) →
        ∀ r ∈ rs, r.opcode = some .createCq ∨ r.opcode = some .createSq →
        r.status ≠ .resourceAllocationFailure) := by
  refine ⟨fun w h => QueueRun.of_reachable h,fun w rs h => ?_⟩
  obtain ⟨-,hbook,hfit⟩ := h.inv
  refine ⟨?_,?_,?_⟩
  · rw [← hbook]
    exact allocates_book w
  · rintro rs₁ rs₂ rs₃ d₁ d₂ rfl
    exact ⟨fun c => hfit.recreated_cq,fun i => hfit.recreated_sq⟩
  · intro hmodest r hr hop
    obtain ⟨rs₁,rs₂,hsplit⟩ := List.append_of_mem hr
    exact (hfit rs₁ r rs₂ hsplit).of_modest (hmodest rs₁ r rs₂ hsplit) hop

/-- With one CQ created, the next one gets slot 1. -/
theorem queue_slots_allocate_second :
    ∃ w rs status resp w', QueueRun Net.nonIp w rs ∧ rs.length = 1 ∧
      enaAdminExec w createCqCmd = .ok (status,resp,w') ∧ status = .success ∧
      (le16At resp 0).toNat = 1 := by
  obtain ⟨⟨st,rp,w⟩,hexec,htest⟩ := exists_of_okAnd
    (p := fun r : AdminStatus × Bytes × World =>
      decide (r.1 = .success ∧ (le16At r.2.1 0).toNat = 0))
    (x := enaAdminExec freshWorld createCqCmd) (by decide +kernel)
  obtain ⟨rfl,hidx⟩ : st = .success ∧ (le16At rp 0).toNat = 0 := of_decide_eq_true htest
  have hrun : QueueRun Net.nonIp w ([] ++ [⟨createCqCmd,.success,rp⟩]) :=
    (QueueRun.reset _).exec hexec
  obtain ⟨halloc,-,-⟩ := (queue_slots_allocate Net.nonIp).2 w _ hrun
  have hbook : ∀ c : CqIdx, (QueueBook.ofReplies ([] ++ [⟨createCqCmd,.success,rp⟩])).cq c =
      if c.val = 0 then some (le32At rp 12) else none := by
    intro c
    rw [← hidx]
    rfl
  obtain ⟨status,resp,w',hexec',-,hnext⟩ := halloc.createCq createCqCmd (by decide)
    ⟨by decide,by decide,by decide,by decide⟩
  have hfree : (QueueBook.ofReplies ([] ++ [⟨createCqCmd,.success,rp⟩])).cq 1 = none := hbook 1
  obtain ⟨hok,c,hlow,hresp,-⟩ := hnext fun hfull => hfull 1 hfree
  have hle : c.val ≤ 1 := hlow.2 1 hfree
  have hne : c.val ≠ 0 := by
    intro hzero
    have hlive := hbook c
    rw [if_pos hzero,hlow.1] at hlive
    cases hlive
  exact ⟨w,_,status,resp,w',hrun,rfl,hexec',hok,by omega⟩

end Run
end EnaDevice
