import EnaDevice.Lib.Slots
import EnaDevice.Control.Acted

/-! The queues that a driver holds. It books the answers to its commands, each created queue with
the offsets in the response, and its book is what the device has in its tables. -/
namespace EnaDevice
open Bytes Result Relation Slots

/-- An SQ in the book: what the driver asked for and the offsets that it got. -/
structure BookedSq where
  isTx : Bool
  llq : Bool
  cqIdx : UInt16
  doorbell : UInt32
  llqOffset : UInt32

/-- The queues that a driver holds, a CQ with the offset of its unmask register. -/
@[ext]
structure QueueBook where
  cq : CqIdx → Option UInt32
  sq : SqIdx → Option BookedSq

/-- A command and what the device answered. -/
structure AdminReply where
  cmd : Bytes
  status : AdminStatus
  resp : Bytes

namespace AdminReply

def opcode (r : AdminReply) : Option Opcode := Opcode.ofCode (u8At r.cmd 2)

/-- The index that a `CREATE` returns. -/
def created (r : AdminReply) : ℕ := (le16At r.resp 0).toNat

/-- The index that a `DESTROY` is for. -/
def destroyed (r : AdminReply) : ℕ := (le16At r.cmd 4).toNat

/-- The command succeeded, and is the one given for that slot. -/
structure Creates (r : AdminReply) (op : Opcode) (i : ℕ) : Prop where
  opcode : r.opcode = some op
  status : r.status = .success
  index : r.created = i

structure Destroys (r : AdminReply) (op : Opcode) (i : ℕ) : Prop where
  opcode : r.opcode = some op
  status : r.status = .success
  index : r.destroyed = i

end AdminReply

namespace QueueBook

def empty : QueueBook := ⟨fun _ => none,fun _ => none⟩

/-- The driver books the answer to a command. -/
def after (b : QueueBook) (r : AdminReply) : QueueBook :=
  if r.status ≠ .success then b
  else match r.opcode with
  | some .createCq => ⟨Slots.set b.cq r.created (some (le32At r.resp 12)),b.sq⟩
  | some .destroyCq => ⟨Slots.set b.cq r.destroyed none,b.sq⟩
  | some .createSq =>
    let c := CreateSqCmd.ofBytes r.cmd
    let sq := ⟨c.isTx,c.llq,c.cqIdx,le32At r.resp 4,le32At r.resp 8⟩
    ⟨b.cq,Slots.set b.sq r.created (some sq)⟩
  | some .destroySq => ⟨b.cq,Slots.set b.sq r.destroyed none⟩
  | _ => b

def ofReplies (rs : List AdminReply) : QueueBook := rs.foldl after empty

end QueueBook

/-- The tables of the device, as a book. -/
def EnaCq.booked (c : CqIdx) (q : EnaCq) : Option UInt32 :=
  if q.used then some (UInt32.ofNat (regCqUnmaskBase + c*4)) else none

def EnaSq.booked (i : SqIdx) (q : EnaSq) : Option BookedSq :=
  if q.used then some ⟨q.isTx,q.llq,q.cqIdx,UInt32.ofNat (regSqDbBase + i*4),
    if q.llq then UInt32.ofNat (i*enaLlqQueueBytes) else 0⟩
  else none

def EnaState.book (s : EnaState) : QueueBook :=
  ⟨fun c => (s.cq c).booked c,fun i => (s.sq i).booked i⟩

section Book
variable {s s' : EnaState} {w w' : World}

lemma booked_cq (s : EnaState) (c : CqIdx) : s.book.cq c = none ↔ (s.cq c).used = false := by
  change (if _ then _ else _) = none ↔ _
  split_ifs with h <;> simp [h]

lemma booked_sq (s : EnaState) (i : SqIdx) : s.book.sq i = none ↔ (s.sq i).used = false := by
  change (if _ then _ else _) = none ↔ _
  split_ifs with h <;> simp [h]

/-- An SQ in the book is one in the table. -/
lemma of_booked_sq {i : SqIdx} {q : BookedSq} (h : s.book.sq i = some q) :
    (s.sq i).used = true ∧ q = ⟨(s.sq i).isTx,(s.sq i).llq,(s.sq i).cqIdx,
      UInt32.ofNat (regSqDbBase + i*4),
      if (s.sq i).llq then UInt32.ofNat (i*enaLlqQueueBytes) else 0⟩ := by
  change (if _ then _ else _) = some q at h
  by_cases hu : (s.sq i).used = true
  · rw [if_pos hu] at h
    exact ⟨hu,(Option.some.inj h).symm⟩
  · rw [if_neg hu] at h
    cases h

lemma book_setCq (s : EnaState) (c : CqIdx) (q : EnaCq) :
    (s.setCq c q).book = ⟨Function.update s.book.cq c (q.booked c),s.book.sq⟩ := by
  refine QueueBook.ext (funext fun c' => ?_) rfl
  change (Function.update s.cq c q c').booked c' = Function.update s.book.cq c (q.booked c) c'
  rcases eq_or_ne c' c with rfl | hne
  · rw [Function.update_self,Function.update_self]
  · rw [Function.update_of_ne hne,Function.update_of_ne hne]
    rfl

lemma book_setSq (s : EnaState) (i : SqIdx) (q : EnaSq) :
    (s.setSq i q).book = ⟨s.book.cq,Function.update s.book.sq i (q.booked i)⟩ := by
  refine QueueBook.ext rfl (funext fun i' => ?_)
  change (Function.update s.sq i q i').booked i' = Function.update s.book.sq i (q.booked i) i'
  rcases eq_or_ne i' i with rfl | hne
  · rw [Function.update_self,Function.update_self]
  · rw [Function.update_of_ne hne,Function.update_of_ne hne]
    rfl

lemma book_setCq_same {c : CqIdx} {q : EnaCq} (h : q.booked c = (s.cq c).booked c) :
    (s.setCq c q).book = s.book := by
  rw [book_setCq,h]
  exact QueueBook.ext (Function.update_eq_self c s.book.cq) rfl

lemma book_setSq_same {i : SqIdx} {q : EnaSq} (h : q.booked i = (s.sq i).booked i) :
    (s.setSq i q).book = s.book := by
  rw [book_setSq,h]
  exact QueueBook.ext rfl (Function.update_eq_self i s.book.sq)

lemma book_congr (hsq : s'.sq = s.sq) (hcq : s'.cq = s.cq) : s'.book = s.book := by
  unfold EnaState.book
  rw [hsq,hcq]

lemma book_devReset (s : EnaState) : s.devReset.book = .empty := rfl

end Book

section Exec
variable {s s' : EnaState} {w w' : World} {cmd resp : Bytes} {status : AdminStatus} {b : QueueBook}

lemma QueueBook.after_refused {r : AdminReply} (h : r.status ≠ .success) : b.after r = b := if_pos h

/-- Commands for other things are not booked. -/
lemma QueueBook.after_other {r : AdminReply}
    (h : r.opcode ∉ [some Opcode.createCq,some .destroyCq,some .createSq,some .destroySq]) :
    b.after r = b := by
  unfold QueueBook.after
  split_ifs
  · rfl
  split
  case h_1 hop => exact absurd (by rw [hop]; decide) h
  case h_2 hop => exact absurd (by rw [hop]; decide) h
  case h_3 hop => exact absurd (by rw [hop]; decide) h
  case h_4 hop => exact absurd (by rw [hop]; decide) h
  case h_5 => rfl

lemma QueueBook.after_createCq {r : AdminReply} {c : CqIdx} (h : r.Creates .createCq c) :
    b.after r = ⟨Function.update b.cq c (some (le32At r.resp 12)),b.sq⟩ := by
  unfold QueueBook.after
  rw [if_neg (not_ne_iff.mpr h.status),h.opcode]
  exact QueueBook.ext (set_eq_update h.index _) rfl

lemma QueueBook.after_destroyCq {r : AdminReply} {c : CqIdx} (h : r.Destroys .destroyCq c) :
    b.after r = ⟨Function.update b.cq c none,b.sq⟩ := by
  unfold QueueBook.after
  rw [if_neg (not_ne_iff.mpr h.status),h.opcode]
  exact QueueBook.ext (set_eq_update h.index _) rfl

lemma QueueBook.after_createSq {r : AdminReply} {i : SqIdx} (h : r.Creates .createSq i) :
    b.after r = ⟨b.cq,Function.update b.sq i
      (some ⟨(CreateSqCmd.ofBytes r.cmd).isTx,(CreateSqCmd.ofBytes r.cmd).llq,
      (CreateSqCmd.ofBytes r.cmd).cqIdx,le32At r.resp 4,le32At r.resp 8⟩)⟩ := by
  unfold QueueBook.after
  rw [if_neg (not_ne_iff.mpr h.status),h.opcode]
  exact QueueBook.ext rfl (set_eq_update h.index _)

lemma QueueBook.after_destroySq {r : AdminReply} {i : SqIdx} (h : r.Destroys .destroySq i) :
    b.after r = ⟨b.cq,Function.update b.sq i none⟩ := by
  unfold QueueBook.after
  rw [if_neg (not_ne_iff.mpr h.status),h.opcode]
  exact QueueBook.ext rfl (set_eq_update h.index _)

/-- The book of the driver follows the tables through every command. -/
lemma Tabled.book (h : Tabled s cmd status resp s') : s'.book = s.book.after ⟨cmd,status,resp⟩ := by
  cases h with
  | refused hne hsq hcq =>
    rw [QueueBook.after_refused (r := ⟨cmd,status,resp⟩) hne]
    exact book_congr hsq hcq
  | other hop hsq hcq =>
    rw [QueueBook.after_other (r := ⟨cmd,status,resp⟩) hop]
    exact book_congr hsq hcq
  | createCq hop c =>
    have hr : AdminReply.Creates ⟨cmd,.success,createCqResp c (CreateCqCmd.ofBytes cmd).cqDepth⟩
        .createCq c :=
      ⟨hop,rfl,createCqResp_idx c _⟩
    rw [QueueBook.after_createCq hr,book_setCq,createCqResp_unmask]
    rfl
  | destroyCq hop c hidx =>
    have hr : AdminReply.Destroys ⟨cmd,.success,noResp⟩ .destroyCq c := ⟨hop,rfl,hidx⟩
    rw [QueueBook.after_destroyCq hr,book_setCq]
    rfl
  | createSq hop i =>
    have hr : AdminReply.Creates ⟨cmd,.success,createSqResp i (CreateSqCmd.ofBytes cmd).llq⟩
        .createSq i :=
      ⟨hop,rfl,createSqResp_idx i _⟩
    rw [QueueBook.after_createSq hr,book_setSq,createSqResp_doorbell,createSqResp_llq]
    rfl
  | destroySq hop i hidx =>
    have hr : AdminReply.Destroys ⟨cmd,.success,noResp⟩ .destroySq i := ⟨hop,rfl,hidx⟩
    rw [QueueBook.after_destroySq hr,book_setSq]
    rfl

/-- The device is out of slots only if all are in the book. -/
lemma enaCreateCq_full (h : (enaCreateCq s cmd).1 = .resourceAllocationFailure) :
    Full s.book.cq := by
  unfold enaCreateCq at h
  dsimp only at h
  split_ifs at h
  split at h
  · rename_i hnone
    refine (find_eq_none_iff fun c => ?_).mp hnone
    rw [Bool.not_eq_true',booked_cq]
  · cases h

lemma enaCreateSq_full (s : EnaState) (cmd : Bytes) :
    Holds (fun _ => True) (fun r => r.1 = .resourceAllocationFailure →
    Full s.book.sq) (enaCreateSq s cmd) := by
  unfold enaCreateSq
  dsimp only
  refine holds_ite (fun _ => holds_pure nofun) fun _ => ?_
  refine holds_ite (fun _ => holds_pure nofun) fun _ => ?_
  refine holds_ite (fun _ => holds_pure nofun) fun _ => ?_
  refine holds_ite (fun _ => holds_pure nofun) fun _ => ?_
  refine holds_ite (fun _ => holds_pure nofun) fun _ => ?_
  refine holds_dite (fun _ => ?_) fun _ => holds_pure nofun
  refine holds_ite (fun _ => holds_pure nofun) fun _ => ?_
  refine holds_ite (fun _ => holds_pure nofun) fun _ => ?_
  refine holds_ite (fun _ => holds_throw trivial) fun _ => ?_
  split
  · rename_i hnone
    refine holds_pure fun _ => (find_eq_none_iff fun i => ?_).mp hnone
    rw [Bool.not_eq_true',booked_sq]
  · exact holds_ite (fun _ => holds_pure nofun) fun _ => holds_pure nofun

end Exec

section Between
variable {net : Net} {w₀ w w' : World} {inp : Input}

/-- Doorbells, frames and interrupts leave the book alone. -/
lemma Effect.book (h : Effect w₀ inp w w') (hno : ¬ inp.Configures) : w'.dev.book = w.dev.book := by
  cases h with
  | quiet hq => exact book_congr hq.queues.sq hq.queues.cq
  | cqAdvance c => exact book_setCq_same rfl
  | cqIntr c isTx =>
    have hdata := (irqOnly_cqIntr w c isTx).sameData
    exact book_congr hdata.sq hdata.cq
  | adminIntr =>
    rw [dev_adminIntr]
  | unmask c val =>
    have hdata := (irqOnly_unmask w c val).sameData
    exact book_congr hdata.sq hdata.cq
  | reset hinp => exact absurd hinp hno
  | sqTail i => exact book_setSq_same rfl
  | sqHead i => exact book_setSq_same rfl
  | sqMeta i => exact book_setSq_same rfl
  | queues hinp => exact absurd hinp hno
  | _ => rfl

lemma Path.book (h : Path w₀ inp w w') (hno : ¬ inp.Configures) : w'.dev.book = w.dev.book := by
  induction h with
  | refl => rfl
  | tail _ heff ih => exact (heff.book hno).trans ih

/-- So does every step that neither resets nor runs admin commands. -/
lemma step_book (hw : TableInv w.dev ∧ TxIdle none w.dev) (hs : step net w inp = .ok w')
    (hreset : ¬ inp.Resets) (hadmin : ∀ val, inp ≠ .regWrite regAqDb val) :
    w'.dev.book = w.dev.book := by
  by_cases hconf : inp.Configures
  swap
  · exact (Progress.path (.done hs) hw.1 hw.2).book hconf
  cases inp with
  | regWrite addr val =>
    rcases hconf with rfl | rfl
    · change enaDevCtlWrite w val.toUInt32 = .ok w' at hs
      unfold enaDevCtlWrite at hs
      split_ifs at hs with hbad hone hzero
      · cases hs
        exact absurd ⟨rfl,hone⟩ hreset
      · cases hs
        dsimp only [World.setDev]
        split_ifs <;> rfl
    · exact absurd rfl (hadmin val)
  | qdevReset => exact absurd trivial hreset
  | _ => exact hconf.elim

end Between

section Replies

lemma QueueBook.ofReplies_concat (rs : List AdminReply) (r : AdminReply) :
    ofReplies (rs ++ [r]) = (ofReplies rs).after r := by
  rw [ofReplies,List.foldl_append]
  rfl

/-- A free slot stays free while no command creates it. -/
lemma QueueBook.after_free_cq {b : QueueBook} {r : AdminReply} {c : CqIdx} (h : b.cq c = none)
    (hno : ¬ r.Creates .createCq c) : (b.after r).cq c = none := by
  unfold QueueBook.after
  split_ifs with hst
  · exact h
  rw [not_ne_iff] at hst
  split
  case h_1 hop =>
    have hne : ¬ c.val = r.created := fun he => hno ⟨hop,hst,he.symm⟩
    exact (if_neg hne).trans h
  case h_2 =>
    change (if _ then _ else _) = none
    split_ifs
    · rfl
    · exact h
  all_goals exact h

lemma QueueBook.after_free_sq {b : QueueBook} {r : AdminReply} {i : SqIdx} (h : b.sq i = none)
    (hno : ¬ r.Creates .createSq i) : (b.after r).sq i = none := by
  unfold QueueBook.after
  split_ifs with hst
  · exact h
  rw [not_ne_iff] at hst
  split
  case h_3 hop =>
    have hne : ¬ i.val = r.created := fun he => hno ⟨hop,hst,he.symm⟩
    exact (if_neg hne).trans h
  case h_4 =>
    change (if _ then _ else _) = none
    split_ifs
    · rfl
    · exact h
  all_goals exact h

lemma QueueBook.after_destroyed_cq {b : QueueBook} {r : AdminReply} {c : CqIdx}
    (h : r.Destroys .destroyCq c) :
    (b.after r).cq c = none := by
  rw [after_destroyCq h]
  exact Function.update_self ..

lemma QueueBook.after_destroyed_sq {b : QueueBook} {r : AdminReply} {i : SqIdx}
    (h : r.Destroys .destroySq i) :
    (b.after r).sq i = none := by
  rw [after_destroySq h]
  exact Function.update_self ..

/-- A slot that is destroyed stays free while no command creates it. -/
lemma QueueBook.stays_free {α : Type*} (slot : QueueBook → Option α) {makes : AdminReply → Prop}
    {d : AdminReply} {rs₁ rs₂ : List AdminReply} (hd : ∀ b : QueueBook, slot (b.after d) = none)
    (hkeep : ∀ (b : QueueBook) r, slot b = none → ¬ makes r → slot (b.after r) = none)
    (hno : ∀ r ∈ rs₂, ¬ makes r) :
    slot (ofReplies (rs₁ ++ d :: rs₂)) = none := by
  induction rs₂ using List.reverseRecOn with
  | nil =>
    rw [ofReplies_concat]
    exact hd _
  | append_singleton rs r ih =>
    rw [← List.cons_append,← List.append_assoc,ofReplies_concat]
    exact hkeep _ r (ih fun x hx => hno x (List.mem_append_left _ hx)) (hno r (by simp))

end Replies
end EnaDevice
