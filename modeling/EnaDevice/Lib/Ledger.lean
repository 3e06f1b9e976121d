import Mathlib.Tactic
import Mathlib.Algebra.BigOperators.Fin

/-! Items that are waiting in places, in the order they came, each with an owner as long as the
owner is there. What waits in a place is bounded by what its owners may have waiting. -/
namespace EnaDevice

/-- The items that wait: the place of each, and its owner. -/
abbrev Ledger (χ ι : Type) : Type := List (χ × Option ι)

namespace Ledger
variable {χ ι : Type}

section Places
variable [DecidableEq χ]

/-- The items in a place. -/
def inPlace (l : Ledger χ ι) (c : χ) : ℕ := l.countP fun p => p.1 = c

/-- The oldest item of a place is taken out. -/
def read (l : Ledger χ ι) (c : χ) : Ledger χ ι := l.eraseP fun p => p.1 = c

/-- A place goes away with all that is in it. -/
def clear (l : Ledger χ ι) (c : χ) : Ledger χ ι := l.filter fun p => p.1 ≠ c

lemma inPlace_append (l l' : Ledger χ ι) (c : χ) :
    inPlace (l ++ l') c = l.inPlace c + l'.inPlace c :=
  List.countP_append

lemma inPlace_sublist {l l' : Ledger χ ι} (h : l'.Sublist l) (c : χ) : l'.inPlace c ≤ l.inPlace c :=
  h.countP_le

lemma inPlace_clear (l : Ledger χ ι) (c : χ) : (l.clear c).inPlace c = 0 := by
  refine List.countP_eq_zero.mpr fun p hp => ?_
  simpa using (List.mem_filter.mp hp).2

lemma inPlace_replicate (n : ℕ) (c : χ) (o : Option ι) :
    inPlace (List.replicate n (c,o)) c = n := by
  rw [inPlace,List.countP_replicate,if_pos (by simp)]

lemma inPlace_replicate_of_ne {c d : χ} (hne : d ≠ c) (n : ℕ) (o : Option ι) :
    inPlace (List.replicate n (c,o)) d = 0 := by
  rw [inPlace,List.countP_replicate,if_neg]
  simpa using hne.symm

end Places

section Owners
variable [DecidableEq ι]

/-- The items of an owner. -/
def ownedBy (l : Ledger χ ι) (i : ι) : ℕ := l.countP fun p => p.2 = some i

/-- An owner goes away. -/
def disown (l : Ledger χ ι) (i : ι) : Ledger χ ι :=
  l.map fun p => (p.1,if p.2 = some i then none else p.2)

variable {l : Ledger χ ι} {c : χ} {i j : ι}

lemma mem_disown (h : (c,some j) ∈ l.disown i) : (c,some j) ∈ l ∧ j ≠ i := by
  obtain ⟨p,hp,he⟩ := List.mem_map.mp h
  obtain ⟨hc,ho⟩ := Prod.mk.inj he
  by_cases hi : p.2 = some i
  · rw [if_pos hi] at ho
    cases ho
  · rw [if_neg hi] at ho
    refine ⟨?_,fun hj => hi (by rw [ho,hj])⟩
    rw [← hc,← ho]
    exact hp

lemma ownedBy_disown (hne : j ≠ i) : (l.disown i).ownedBy j = l.ownedBy j := by
  unfold ownedBy disown
  rw [List.countP_map]
  refine List.countP_congr fun p _ => ?_
  simp only [Function.comp_apply, decide_eq_true_eq]
  split_ifs with hp
  · rw [hp]
    constructor
    · intro h
      cases h
    · intro h
      exact absurd (Option.some.inj h).symm hne
  · rfl

lemma ownedBy_sublist {l' : Ledger χ ι} (h : l'.Sublist l) (i : ι) : l'.ownedBy i ≤ l.ownedBy i :=
  h.countP_le

lemma ownedBy_append (l l' : Ledger χ ι) (i : ι) :
    ownedBy (l ++ l') i = l.ownedBy i + l'.ownedBy i :=
  List.countP_append

lemma ownedBy_eq_zero (h : ∀ c, (c,some i) ∉ l) : l.ownedBy i = 0 := by
  refine List.countP_eq_zero.mpr fun p hp hi => ?_
  rw [decide_eq_true_eq] at hi
  exact h p.1 (hi ▸ hp)

lemma ownedBy_replicate (n : ℕ) : ownedBy (List.replicate n (c,some i)) i = n := by
  rw [ownedBy,List.countP_replicate,if_pos (by simp)]

lemma ownedBy_replicate_of_ne (hne : j ≠ i) (n : ℕ) :
    ownedBy (List.replicate n (c,some i)) j = 0 := by
  rw [ownedBy,List.countP_replicate,if_neg]
  simpa using hne.symm

end Owners

section Both
variable [DecidableEq χ] [DecidableEq ι] {l : Ledger χ ι} {c : χ}

/-- The items in a place that have lost their owner. -/
def orphans (l : Ledger χ ι) (c : χ) : ℕ := l.countP fun p => p = (c,none)

lemma inPlace_disown (l : Ledger χ ι) (i : ι) (c : χ) : (l.disown i).inPlace c = l.inPlace c := by
  unfold inPlace disown
  rw [List.countP_map]
  rfl

/-- Everything in a place has lost its owner or belongs to somebody. -/
lemma inPlace_eq [Fintype ι] (l : Ledger χ ι) (c : χ) :
    l.inPlace c = l.orphans c + ∑ i, l.countP fun p => p = (c,some i) := by
  induction l with
  | nil => simp [inPlace,orphans]
  | cons p l ih =>
    unfold inPlace orphans at ih ⊢
    simp only [List.countP_cons, Finset.sum_add_distrib, ih, decide_eq_true_eq]
    obtain ⟨d,o⟩ := p
    by_cases hd : d = c
    · subst hd
      cases o with
      | none => simp; omega
      | some j =>
        simp only [if_true, Prod.mk.injEq, true_and, reduceCtorEq, if_false, Option.some.injEq,
          Finset.sum_ite_eq, Finset.mem_univ]
        omega
    · simp [hd]

/-- What waits in a place is no more than what its owners have waiting, and the rest. -/
theorem inPlace_le [Fintype ι] (owners : Finset ι) (h : ∀ i, (c,some i) ∈ l → i ∈ owners) :
    l.inPlace c ≤ l.orphans c + ∑ i ∈ owners, l.ownedBy i := by
  rw [inPlace_eq]
  refine Nat.add_le_add_left ?_ _
  have hout : ∀ i ∈ Finset.univ, i ∉ owners → l.countP (fun p => p = (c,some i)) = 0 := by
    intro i _ hi
    refine List.countP_eq_zero.mpr fun p hp he => hi (h i ?_)
    rw [decide_eq_true_eq] at he
    exact he ▸ hp
  rw [← Finset.sum_subset (Finset.subset_univ owners) hout]
  refine Finset.sum_le_sum fun i _ => List.countP_mono_left fun p _ he => ?_
  rw [decide_eq_true_eq] at he ⊢
  rw [he]

end Both
end Ledger
end EnaDevice
