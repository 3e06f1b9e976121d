import Mathlib.Tactic

/-! Computations that may abort: taking a successful run of `Except` apart, and judging every
outcome of one by a postcondition and a set of tolerated aborts. -/
namespace EnaDevice.Result

variable {ε α β : Type}

@[simp] lemma pure_eq_ok (a : α) : (pure a : Except ε α) = .ok a := rfl

@[simp] lemma ok_bind (a : α) (f : α → Except ε β) : (Except.ok a >>= f) = f a := rfl

@[simp] lemma error_bind (e : ε) (f : α → Except ε β) :
    ((Except.error e : Except ε α) >>= f) = .error e := rfl

lemma bind_eq_ok {x : Except ε α} {f : α → Except ε β} {b : β} :
    (x >>= f) = .ok b ↔ ∃ a, x = .ok a ∧ f a = .ok b := by
  cases x <;> simp

lemma bind_congr_ok {x : Except ε α} {f f' : α → Except ε β} (hf : ∀ a, x = .ok a → f a = f' a) :
    (x >>= f) = (x >>= f') := by
  cases x with
  | ok a => exact hf a rfl
  | error e => rfl

/-- Two computations in lock step: the second runs on images of the values of the first. -/
lemma bind_map {γ δ : Type} {x : Except ε α} {x' : Except ε β} {f : α → Except ε γ}
    {f' : β → Except ε δ} {g : α → β} {h : γ → δ} (hx : x' = x.map g)
    (hf : ∀ a, x = .ok a → f' (g a) = (f a).map h) : (x' >>= f') = (x >>= f).map h := by
  subst hx
  cases x with
  | ok a => exact hf a rfl
  | error e => rfl

/-- The first computation may also be one and the same. -/
lemma bind_same {γ δ : Type} {x x' : Except ε α} {f : α → Except ε γ} {f' : α → Except ε δ}
    {h : γ → δ} (hx : x' = x) (hf : ∀ a, x = .ok a → f' a = (f a).map h) :
    (x' >>= f') = (x >>= f).map h := by
  subst hx
  cases x' with
  | ok a => exact hf a rfl
  | error e => rfl

lemma ite_map {c c' : Prop} [Decidable c] [Decidable c'] {x y : Except ε α} {x' y' : Except ε β}
    {g : α → β} (hc : c' ↔ c) (hx : c → x' = x.map g) (hy : ¬c → y' = y.map g) :
    (if c' then x' else y') = (if c then x else y).map g := by
  by_cases h : c
  · rw [if_pos h,if_pos (hc.mpr h)]
    exact hx h
  · rw [if_neg h,if_neg (mt hc.mp h)]
    exact hy h

lemma dite_map {c : Prop} [Decidable c] {x : c → Except ε α} {y : ¬c → Except ε α}
    {x' : c → Except ε β} {y' : ¬c → Except ε β} {g : α → β} (hx : ∀ h, x' h = (x h).map g)
    (hy : ∀ h, y' h = (y h).map g) :
    (if h : c then x' h else y' h) = (if h : c then x h else y h).map g := by
  by_cases h : c
  · rw [dif_pos h,dif_pos h,hx]
  · rw [dif_neg h,dif_neg h,hy]

/-- A test of a successful outcome, for computations that are run on concrete data. -/
def okAnd (p : α → Bool) : Except ε α → Bool
  | .ok a => p a
  | .error _ => false

lemma exists_of_okAnd {p : α → Bool} {x : Except ε α} (h : okAnd p x = true) :
    ∃ a, x = .ok a ∧ p a = true := by
  cases x with
  | ok a => exact ⟨a,rfl,h⟩
  | error e => cases h

/-- Every outcome of `r` is a value with the property `P` or an abort in `E`. -/
def Holds (E : ε → Prop) (P : α → Prop) : Except ε α → Prop
  | .ok a => P a
  | .error e => E e

section Holds
variable {E : ε → Prop} {P Q : α → Prop} {R : β → Prop}

lemma holds_pure {a : α} (h : P a) : Holds E P (pure a) := h

lemma holds_throw {e : ε} (h : E e) : Holds E P (throw e) := h

lemma holds_bind {x : Except ε α} {f : α → Except ε β} (hx : Holds E P x)
    (hf : ∀ a, x = .ok a → P a → Holds E R (f a)) : Holds E R (x >>= f) := by
  cases x with
  | ok a => exact hf a rfl hx
  | error e => exact hx

lemma holds_mono {x : Except ε α} (hx : Holds E P x) (h : ∀ a, P a → Q a) : Holds E Q x := by
  cases x with
  | ok a => exact h a hx
  | error e => exact hx

lemma holds_imp {F : ε → Prop} {x : Except ε α} (hx : Holds E P x) (he : ∀ e, E e → F e)
    (h : ∀ a, P a → Q a) : Holds F Q x := by
  cases x with
  | ok a => exact h a hx
  | error e => exact he e hx

lemma holds_ite {c : Prop} [Decidable c] {x y : Except ε α} (hx : c → Holds E P x)
    (hy : ¬c → Holds E P y) : Holds E P (if c then x else y) := by
  split_ifs with h
  · exact hx h
  · exact hy h

lemma holds_dite {c : Prop} [Decidable c] {x : c → Except ε α} {y : ¬c → Except ε α}
    (hx : ∀ h, Holds E P (x h)) (hy : ∀ h, Holds E P (y h)) :
    Holds E P (if h : c then x h else y h) := by
  split_ifs with h
  · exact hx h
  · exact hy h

/-- What is known of every value holds where any abort is tolerated. -/
lemma holds_of_ok {x : Except ε α} (h : ∀ a, x = .ok a → P a) : Holds (fun _ => True) P x := by
  cases x with
  | ok a => exact h a rfl
  | error e => trivial

lemma Holds.of_ok {x : Except ε α} {a : α} (h : Holds E P x) (hx : x = .ok a) : P a := by
  subst hx
  exact h

/-- A computation that tolerates no abort has a value. -/
lemma Holds.exists_ok {x : Except ε α} (h : Holds (fun _ => False) P x) : ∃ a, x = .ok a ∧ P a := by
  cases x with
  | ok a => exact ⟨a,rfl,h⟩
  | error e => exact h.elim

lemma Holds.of_error {x : Except ε α} {e : ε} (h : Holds E P x) (hx : x = .error e) : E e := by
  subst hx
  exact h

end Holds

-- the conditions inside a computation can be large; nothing should reduce them by accident
attribute [irreducible] Holds

end EnaDevice.Result
