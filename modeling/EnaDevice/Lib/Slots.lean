import Mathlib.Data.Fintype.Card
import Mathlib.Tactic

/-! Tables of slots. A slot is free or holds something, and the lowest free slot is the next one
that is given out. -/
namespace EnaDevice.Slots
variable {n : ℕ} {α : Type*} {t : Fin n → Option α}

def Full (t : Fin n → Option α) : Prop := ∀ i, t i ≠ none

/-- The slot that is given out next. -/
def Lowest (t : Fin n → Option α) (i : Fin n) : Prop := t i = none ∧ ∀ j, t j = none → i ≤ j

/-- The number of slots that hold something of a kind. -/
def held (t : Fin n → Option α) (kind : α → Bool) : ℕ :=
  (Finset.univ.filter fun i => (t i).any kind = true).card

/-- Slot `k` gets a new content, if there is a slot `k`. -/
def set (t : Fin n → Option α) (k : ℕ) (x : Option α) : Fin n → Option α := fun i =>
    if i.val = k then x else t i

lemma set_eq_update {i : Fin n} {k : ℕ} (h : k = i.val) (x : Option α) :
    set t k x = Function.update t i x := by
  funext j
  rw [set,h,Function.update_apply]
  simp only [Fin.ext_iff]

/-- The first element of a list of indices that passes a test is the least one. -/
lemma find_finRange_le {p : Fin n → Bool} {i j : Fin n} (h : (List.finRange n).find? p = some i)
    (hj : p j = true) : i ≤ j := by
  by_contra hlt
  rw [List.find?_eq_some_iff_getElem] at h
  obtain ⟨-,k,hk,hget,hbefore⟩ := h
  have hki : k = i.val := by
    rw [← hget]
    simp
  have hjk : j.val < k := by
    rw [hki]
    exact not_le.mp hlt
  have hno := hbefore j.val hjk
  simp [hj] at hno

/-- A search for a free slot ends at the lowest one. -/
lemma lowest_of_find {free : Fin n → Bool} (hfree : ∀ i, free i = true ↔ t i = none) {i : Fin n}
    (h : (List.finRange n).find? free = some i) : Lowest t i :=
  ⟨(hfree i).mp (List.find?_some h),fun j hj => find_finRange_le h ((hfree j).mpr hj)⟩

lemma Lowest.unique {i j : Fin n} (h : Lowest t i) (h' : Lowest t j) : i = j :=
  le_antisymm (h.2 j h'.1) (h'.2 i h.1)

/-- It fails exactly if there is none. -/
lemma find_eq_none_iff {free : Fin n → Bool} (hfree : ∀ i, free i = true ↔ t i = none) :
    (List.finRange n).find? free = none ↔ Full t := by
  rw [List.find?_eq_none]
  constructor
  · exact fun h i hi => h i (List.mem_finRange i) ((hfree i).mpr hi)
  · exact fun h i _ hi => h i ((hfree i).mp hi)

lemma Lowest.find {free : Fin n → Bool} {i : Fin n} (h : Lowest t i)
    (hfree : ∀ i, free i = true ↔ t i = none) :
    (List.finRange n).find? free = some i := by
  cases hfind : (List.finRange n).find? free with
  | none => exact absurd h.1 ((find_eq_none_iff hfree).mp hfind i)
  | some j => rw [h.unique (lowest_of_find hfree hfind)]

lemma Lowest.not_full {i : Fin n} (h : Lowest t i) : ¬ Full t := fun hfull => hfull i h.1

lemma exists_lowest (h : ¬ Full t) : ∃ i, Lowest t i := by
  have hfree : ∀ i, (t i).isNone = true ↔ t i = none := fun i => Option.isNone_iff_eq_none
  cases hfind : (List.finRange n).find? fun i => (t i).isNone with
  | none => exact absurd ((find_eq_none_iff hfree).mp hfind) h
  | some i => exact ⟨i,lowest_of_find hfree hfind⟩

lemma any_of_ne_none {x : Option α} (h : x ≠ none) (kind : α → Bool) :
    x.any kind = true ∨ x.any (fun a => !kind a) = true := by
  obtain ⟨a,rfl⟩ := Option.ne_none_iff_exists'.mp h
  cases hk : kind a <;> simp [hk]

/-- A full table holds as many things as it has slots, each of one kind or the other. -/
lemma card_le_held (h : Full t) (kind : α → Bool) : n ≤ held t kind + held t fun a => !kind a := by
  have hcover : (Finset.univ : Finset (Fin n)) ⊆
    (Finset.univ.filter fun i => (t i).any kind = true) ∪
      Finset.univ.filter fun i => (t i).any (fun a => !kind a) = true := by
    intro i _
    rw [Finset.mem_union,Finset.mem_filter,Finset.mem_filter]
    exact (any_of_ne_none (h i) kind).imp (fun hk => ⟨Finset.mem_univ i,hk⟩) fun hk =>
      ⟨Finset.mem_univ i,hk⟩
  calc n = (Finset.univ : Finset (Fin n)).card := (Finset.card_fin n).symm
    _ ≤ _ := Finset.card_le_card hcover
    _ ≤ _ := Finset.card_union_le _ _

end EnaDevice.Slots
