import Mathlib.Data.List.Basic
import Mathlib.Tactic

/-! Messages cut into pieces for containers of given sizes, and pieces put together again by the
marks of the first and the last one. -/
namespace EnaDevice

/-- A part of a message. -/
structure Piece (α : Type) where
  first : Bool
  last : Bool
  data : List α
  deriving DecidableEq

namespace Piece
variable {α : Type}

/-- A message cut for containers of the given sizes. -/
def cutInto : Bool → List ℕ → List α → List (Piece α)
  | _, [], _ => []
  | first, n::ns, l => ⟨first,ns.isEmpty,l.take n⟩ :: cutInto false ns (l.drop n)

/-- Containers of one size that a message takes. -/
def count (n len : ℕ) : ℕ := (len + n - 1)/n

/-- A message cut for containers of one size. -/
def cut (n : ℕ) (l : List α) : List (Piece α) :=
  cutInto true (List.replicate (count n l.length) n) l

/-- The messages of which all pieces have come, with what there is of the next one. -/
def assemble : List α → List (Piece α) → List (List α)
  | _, [] => []
  | acc, p::ps =>
    let acc := (if p.first then [] else acc) ++ p.data
    if p.last then acc :: assemble [] ps else assemble acc ps

section Into
variable {first : Bool} {ns : List ℕ} {l acc : List α} {ps : List (Piece α)}

@[simp] lemma cutInto_length (first : Bool) (ns : List ℕ) (l : List α) :
    (cutInto first ns l).length = ns.length := by
  induction ns generalizing first l with
  | nil => rfl
  | cons n ns ih => rw [cutInto,List.length_cons,ih,List.length_cons]

lemma assemble_cutInto (hne : ns ≠ []) (h : l.length ≤ ns.sum) :
    assemble acc (cutInto first ns l ++ ps) = ((if first then [] else acc) ++ l) ::
      assemble [] ps := by
  induction ns generalizing first l acc with
  | nil => exact absurd rfl hne
  | cons n ns ih =>
    rw [List.sum_cons] at h
    rw [cutInto,List.cons_append,assemble]
    cases ns with
    | nil =>
      have htake : l.take n = l := List.take_of_length_le (by simpa using h)
      rw [htake]
      rfl
    | cons m ns =>
      have hrest : (l.drop n).length ≤ (m::ns).sum := by
        rw [List.length_drop]
        omega
      refine (ih nofun hrest).trans ?_
      rw [if_neg Bool.false_ne_true,List.append_assoc,List.take_append_drop]

end Into

section Cut
variable {n : ℕ} {l : List α}

@[simp] lemma cut_length (n : ℕ) (l : List α) : (cut n l).length = count n l.length := by
  rw [cut,cutInto_length,List.length_replicate]

lemma count_pos (hn : 0 < n) {len : ℕ} (hlen : 0 < len) : 0 < count n len :=
  Nat.div_pos (by omega) hn

/-- Just as many containers as are needed. -/
lemma count_eq_iff {k len : ℕ} (hn : 0 < n) (hlen : 0 < len) : count n len = k ↔ len ≤ k*n ∧
    (k-1)*n < len := by
  have hlow := Nat.div_mul_le_self (len + n - 1) n
  have hhigh := Nat.lt_div_mul_add (a := len + n - 1) hn
  have hpos := count_pos hn hlen
  unfold count at hpos ⊢
  constructor
  · rintro rfl
    rw [Nat.sub_mul,Nat.one_mul]
    omega
  · rintro ⟨hle,hlt⟩
    apply Nat.le_antisymm
    · apply Nat.le_of_lt_succ
      rw [Nat.div_lt_iff_lt_mul hn,Nat.succ_mul]
      omega
    · rw [Nat.le_div_iff_mul_le hn]
      cases k with
      | zero => omega
      | succ k =>
        rw [Nat.succ_sub_one] at hlt
        rw [Nat.succ_mul]
        omega

/-- Cutting loses nothing. -/
theorem assemble_cut (hn : 0 < n) {ls : List (List α)} (h : ∀ l ∈ ls, l ≠ []) :
    assemble [] (ls.flatMap (cut n)) = ls := by
  induction ls with
  | nil => rfl
  | cons l ls ih =>
    have hlen := List.length_pos_iff.mpr (h l List.mem_cons_self)
    have hcount := ((count_eq_iff (k := count n l.length) hn hlen).mp rfl).1
    have hne : List.replicate (count n l.length) n ≠ [] := by
      rw [ne_eq,List.replicate_eq_nil_iff]
      exact Nat.ne_of_gt (count_pos hn hlen)
    rw [List.flatMap_cons,cut,assemble_cutInto hne (by rw [List.sum_replicate_nat]; exact hcount),
      ih fun l' hl' => h l' (List.mem_cons_of_mem _ hl')]
    rfl

end Cut

/-- A message of 5 in containers of 2. -/
example : cut 2 [1,2,3,4,5] = [⟨true,false,[1,2]⟩,⟨false,false,[3,4]⟩,⟨false,true,[5]⟩] := by decide

end Piece
end EnaDevice
