import Mathlib.Tactic

/-! Free-running 16-bit ring counters. A ring has a power-of-two depth, so that the depth divides
`2^16` an even number of times: masking a counter gives its slot, and the parity of the lap
survives the wrap of the counter. -/
namespace EnaDevice.Counter

lemma depth_pos {d : UInt16} (hd : d.toNat.isPowerOfTwo) : 0 < d.toNat :=
  Nat.pos_of_isPowerOfTwo hd

lemma exists_pow {d : UInt16} (hd : d.toNat.isPowerOfTwo) : ∃ k < 16, d.toNat = 2^k := by
  obtain ⟨k,hk⟩ := hd
  have hlt : 2^k < 2^16 := hk ▸ d.toNat_lt
  exact ⟨k,(Nat.pow_lt_pow_iff_right (by norm_num)).mp hlt,hk⟩

/-- The counter range holds a whole, even number of laps. -/
lemma exists_laps {d : UInt16} (hd : d.toNat.isPowerOfTwo) : ∃ q, 65536 = d.toNat*(2*q) := by
  obtain ⟨k,hk,he⟩ := exists_pow hd
  refine ⟨2^(15-k),?_⟩
  rw [he,← pow_succ',← pow_add,show k + (15-k+1) = 16 by omega]
  rfl

lemma depth_dvd {d : UInt16} (hd : d.toNat.isPowerOfTwo) : d.toNat ∣ 65536 := by
  obtain ⟨q,hq⟩ := exists_laps hd
  exact ⟨2*q,hq⟩

lemma pred_toNat {d : UInt16} (hd : d.toNat.isPowerOfTwo) : (d-1).toNat = d.toNat - 1 := by
  have hp := depth_pos hd
  have hl := d.toNat_lt
  rw [UInt16.toNat_sub,UInt16.toNat_one]
  omega

/-- Masking with `depth - 1` is reduction modulo the depth. -/
lemma nat_mask {d : UInt16} (hd : d.toNat.isPowerOfTwo) (n : ℕ) :
    n &&& (d-1).toNat = n % d.toNat := by
  obtain ⟨k,-,he⟩ := exists_pow hd
  rw [pred_toNat hd,he,Nat.and_two_pow_sub_one_eq_mod]

lemma mask {d : UInt16} (hd : d.toNat.isPowerOfTwo) (t : UInt16) :
    (t &&& (d-1)).toNat = t.toNat % d.toNat := by
  rw [UInt16.toNat_and,nat_mask hd]

lemma mask_eq_zero_iff {d : UInt16} (hd : d.toNat.isPowerOfTwo) (t : UInt16) :
    t &&& (d-1) = 0 ↔ t.toNat % d.toNat = 0 := by
  rw [← mask hd,← UInt16.toNat_inj]
  rfl

/-- Slots do not notice the wrap of the counter. -/
lemma wrap_mod {d : UInt16} (hd : d.toNat.isPowerOfTwo) (n : ℕ) :
    n % 65536 % d.toNat = n % d.toNat := Nat.mod_mod_of_dvd n (depth_dvd hd)

/-- Neither does the parity of the lap. -/
lemma wrap_lap {d : UInt16} (hd : d.toNat.isPowerOfTwo) (n : ℕ) :
    n % 65536 / d.toNat % 2 = n / d.toNat % 2 := by
  obtain ⟨q,hq⟩ := exists_laps hd
  rw [hq,Nat.mod_mul_right_div_self,Nat.mod_mul_right_mod]

/-- Places less than a lap apart are in different slots. -/
lemma slot_ne {k n d : ℕ} (h : k < n) (hlap : n < k + d) : k % d ≠ n % d := by
  intro he
  have hmod : (n - k) % d = 0 := Nat.mod_eq_zero_of_dvd ((Nat.modEq_iff_dvd' h.le).mp he)
  rw [Nat.mod_eq_of_lt (by omega)] at hmod
  omega

/-- The parity of the lap flips exactly when the counter reaches a multiple of the depth. -/
lemma succ_lap (n d : ℕ) :
    (n+1)/d % 2 = if (n+1) % d = 0 then (n/d + 1) % 2 else n/d % 2 := by
  split_ifs with h
  · rw [Nat.succ_div_of_dvd (Nat.dvd_of_mod_eq_zero h)]
  · rw [Nat.succ_div_of_not_dvd (fun hdvd => h (Nat.mod_eq_zero_of_dvd hdvd))]

lemma succ_toNat (t : UInt16) : (t+1).toNat = (t.toNat+1) % 65536 := by
  rw [UInt16.toNat_add]
  rfl

/-- A phase that follows the parity of the lap does so at the next index, also where it wraps. -/
lemma phase_succ {d : UInt16} (hd : d.toNat.isPowerOfTwo) {t : UInt16} {phase : Bool}
    (h : phase = true ↔ t.toNat/d.toNat % 2 = 0) :
    (if (t+1).toNat % d.toNat = 0 then !phase else phase) = true ↔ (t+1).toNat/d.toNat % 2 = 0 := by
  rw [succ_toNat,wrap_mod hd,wrap_lap hd,succ_lap]
  split_ifs
  · rw [Bool.not_eq_true',← Bool.not_eq_true,h]
    omega
  · exact h

lemma mod_eq_zero_iff (a d : UInt16) : a % d = 0 ↔ a.toNat % d.toNat = 0 := by
  rw [← UInt16.toNat_inj,UInt16.toNat_mod]
  rfl

/-- Advancing a counter towards another one shortens their distance by the same amount. -/
lemma sub_add_toNat (t h : UInt16) (n : ℕ) (hn : n ≤ (t-h).toNat) :
    (t - (h + UInt16.ofNat n)).toNat = (t-h).toNat - n := by
  have ht := t.toNat_lt
  have hh := h.toNat_lt
  have hlt := (t-h).toNat_lt
  have hn' : (UInt16.ofNat n).toNat = n := by
    rw [UInt16.toNat_ofNat',Nat.mod_eq_of_lt (by omega)]
  rw [UInt16.toNat_sub,UInt16.toNat_add,hn']
  rw [UInt16.toNat_sub] at hn ⊢
  omega

/-- A counter between an advanced one and the limit is as much further away from where that one
was. -/
lemma toNat_sub_of_advance {t h u : UInt16} {n : ℕ} (hn : n ≤ (t-h).toNat)
    (hle : (u - (h + UInt16.ofNat n)).toNat ≤ (t - (h + UInt16.ofNat n)).toNat) :
    (u-h).toNat = n + (u - (h + UInt16.ofNat n)).toNat := by
  rw [sub_add_toNat t h n hn] at hle
  have hlt := (t-h).toNat_lt
  have hn' : (UInt16.ofNat n).toNat = n := by
    rw [UInt16.toNat_ofNat',Nat.mod_eq_of_lt (by omega)]
  have heq : u - h = UInt16.ofNat n + (u - (h + UInt16.ofNat n)) := by grind
  rw [heq,UInt16.toNat_add,hn',Nat.mod_eq_of_lt (by omega)]

/-- The distance of two counters is that of the numbers they count, while it fits. -/
lemma ofNat_sub_toNat {a b : ℕ} (hle : a ≤ b) (hlt : b - a < 65536) :
    (UInt16.ofNat b - UInt16.ofNat a).toNat = b - a := by
  rw [UInt16.toNat_sub,UInt16.toNat_ofNat',UInt16.toNat_ofNat']
  omega

lemma sub_toNat_eq_zero_iff (t h : UInt16) : (t-h).toNat = 0 ↔ h = t := by
  constructor
  · intro hz
    have ht := t.toNat_lt
    have hh := h.toNat_lt
    rw [UInt16.toNat_sub] at hz
    exact UInt16.toNat_inj.mp (by omega)
  · rintro rfl
    simp

end EnaDevice.Counter
