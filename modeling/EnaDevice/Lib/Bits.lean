import Mathlib.Data.Nat.Bitwise
import Mathlib.Tactic

/-! Bit masks and bit fields of 32-bit words, in arithmetic. -/
namespace EnaDevice.Bits

lemma or_and (a b m : UInt32) : (a ||| b) &&& m = (a &&& m) ||| (b &&& m) := by
  apply UInt32.toNat_inj.mp
  simp only [UInt32.toNat_and, UInt32.toNat_or, Nat.and_or_distrib_right]

/-- A mask that is clear stays clear under a part of it. -/
lemma and_eq_zero_of_or {a m k : UInt32} (h : a &&& (m ||| k) = 0) : a &&& m = 0 ∧ a &&& k = 0 := by
  have hn : a.toNat &&& (m.toNat ||| k.toNat) = 0 := by
    have hz := congrArg UInt32.toNat h
    rwa [UInt32.toNat_and,UInt32.toNat_or] at hz
  rw [Nat.and_or_distrib_left,Nat.or_eq_zero_iff] at hn
  exact ⟨UInt32.toNat_inj.mp (by simpa using hn.1),UInt32.toNat_inj.mp (by simpa using hn.2)⟩

lemma bit_ne_zero (x : UInt32) {n : ℕ} (hn : n < 32) :
    (x &&& UInt32.ofNat (2^n) != 0) = x.toNat.testBit n := by
  have hpow : 2^n < 2^32 := Nat.pow_lt_pow_right (by norm_num) hn
  have hword : (x &&& UInt32.ofNat (2^n)).toNat = (x.toNat.testBit n).toNat*2^n := by
    rw [UInt32.toNat_and,UInt32.toNat_ofNat',Nat.mod_eq_of_lt hpow,Nat.and_two_pow]
  rw [Bool.eq_iff_iff,bne_iff_ne,ne_eq,← UInt32.toNat_inj,hword]
  change ¬ _ = 0 ↔ _
  cases x.toNat.testBit n <;> simp

lemma and_bit (x : UInt32) {n : ℕ} (hn : n < 32) :
    x &&& UInt32.ofNat (2^n) = 0 ∨ x &&& UInt32.ofNat (2^n) = UInt32.ofNat (2^n) := by
  have hpow : 2^n < 2^32 := Nat.pow_lt_pow_right (by norm_num) hn
  rw [← UInt32.toNat_inj,← UInt32.toNat_inj,UInt32.toNat_and,UInt32.toNat_ofNat',
    Nat.mod_eq_of_lt hpow,Nat.and_two_pow]
  cases x.toNat.testBit n
  · exact .inl (Nat.zero_mul _)
  · exact .inr (Nat.one_mul _)

/-- Bit 24 of a word is the lowest bit of its last byte. -/
lemma byte3_bit (x : UInt32) :
    (UInt8.ofNat (x.toNat/65536/256) &&& 1 != 0) = (x &&& UInt32.ofNat (2^24) != 0) := by
  have hbyte : (UInt8.ofNat (x.toNat/65536/256) &&& 1).toNat = x.toNat/2^24 % 2 := by
    rw [UInt8.toNat_and,UInt8.toNat_ofNat',Nat.div_div_eq_div_mul]
    change x.toNat/(65536*256) % 2^8 &&& 1 = _
    rw [Nat.and_one_is_mod]
    omega
  rw [bit_ne_zero x (by norm_num),Nat.testBit_eq_decide_div_mod_eq,Bool.eq_iff_iff,bne_iff_ne,ne_eq,
    ← UInt8.toNat_inj,hbyte,decide_eq_true_iff]
  change ¬ _ = 0 ↔ _
  omega

/-- The field of `k` bits at bit `l`, as masking and shifting give it. -/
lemma field_toNat (x : UInt32) {k l : ℕ} (hkl : k + l ≤ 32) (hl : l < 32) :
    ((x &&& UInt32.ofNat ((2^k-1)*2^l)) >>> UInt32.ofNat l).toNat = x.toNat/2^l % 2^k := by
  have hpos : 0 < 2^k := Nat.two_pow_pos k
  have hmask : (2^k-1)*2^l < 2^32 :=
    calc (2^k-1)*2^l < 2^k*2^l := Nat.mul_lt_mul_of_pos_right (by omega) (Nat.two_pow_pos l)
      _ = 2^(k+l) := (pow_add 2 k l).symm
      _ ≤ 2^32 := Nat.pow_le_pow_right (by norm_num) hkl
  rw [UInt32.toNat_shiftRight,UInt32.toNat_and,UInt32.toNat_ofNat',UInt32.toNat_ofNat',
    Nat.mod_eq_of_lt hmask,Nat.mod_eq_of_lt (by omega : l < 2^32),Nat.mod_eq_of_lt hl,
    Nat.shiftRight_and_distrib,Nat.shiftRight_eq_div_pow,Nat.shiftRight_eq_div_pow,
    Nat.mul_div_cancel _ (Nat.two_pow_pos l),Nat.and_two_pow_sub_one_eq_mod]

/-- A field in place, not shifted, is the low bits. -/
lemma low_toNat (x : UInt32) {k : ℕ} (hk : k ≤ 32) :
    (x &&& UInt32.ofNat (2^k-1)).toNat = x.toNat % 2^k := by
  have hle : 2^k ≤ 2^32 := Nat.pow_le_pow_right (by norm_num) hk
  have hpos : 0 < 2^k := Nat.two_pow_pos k
  rw [UInt32.toNat_and,UInt32.toNat_ofNat',Nat.mod_eq_of_lt (by omega),
    Nat.and_two_pow_sub_one_eq_mod]

/-- A value moved to a field of `k` bits at bit `l`. -/
lemma place_toNat (x : UInt32) {k l : ℕ} (hkl : k + l ≤ 32) (hl : l < 32) :
    ((x <<< UInt32.ofNat l) &&& UInt32.ofNat ((2^k-1)*2^l)).toNat = x.toNat % 2^k*2^l := by
  have hpos : 0 < 2^k := Nat.two_pow_pos k
  have hmask : (2^k-1)*2^l < 2^32 :=
    calc (2^k-1)*2^l < 2^k*2^l := Nat.mul_lt_mul_of_pos_right (by omega) (Nat.two_pow_pos l)
      _ = 2^(k+l) := (pow_add 2 k l).symm
      _ ≤ 2^32 := Nat.pow_le_pow_right (by norm_num) hkl
  have hcut : x.toNat*2^l % 2^32 = x.toNat % 2^(32-l)*2^l := by
    rw [show (2:ℕ)^32 = 2^(32-l)*2^l by rw [← pow_add,Nat.sub_add_cancel hl.le],
      Nat.mul_mod_mul_right]
  rw [UInt32.toNat_and,UInt32.toNat_shiftLeft,UInt32.toNat_ofNat',UInt32.toNat_ofNat',
    Nat.mod_eq_of_lt hmask,Nat.mod_eq_of_lt (by omega : l < 2^32),Nat.mod_eq_of_lt hl,
      Nat.shiftLeft_eq,hcut,← Nat.shiftLeft_eq,
    ← Nat.shiftLeft_eq,← Nat.shiftLeft_and_distrib,Nat.and_two_pow_sub_one_eq_mod,Nat.shiftLeft_eq,
    Nat.mod_mod_of_dvd _ (pow_dvd_pow 2 (by omega))]

/-- Words without common bits: one is below bit `k`, the other has no bit there. -/
lemma or_toNat {a b : UInt32} {k : ℕ} (ha : a.toNat < 2^k) (hb : 2^k ∣ b.toNat) :
    (a ||| b).toNat = b.toNat + a.toNat := by
  obtain ⟨c,hc⟩ := hb
  rw [UInt32.toNat_or,hc,Nat.or_comm,← Nat.two_pow_add_eq_or_of_lt ha]

/-- Two fields joined at bit `k` in a word of `n` bits. -/
lemma join {lo hi k n : ℕ} (hlo : lo < 2^k) (h : hi*2^k < 2^n) :
    lo ||| hi <<< k % 2^n = hi*2^k + lo := by
  rw [Nat.shiftLeft_eq,Nat.mod_eq_of_lt h,Nat.or_comm,Nat.mul_comm,
    ← Nat.two_pow_add_eq_or_of_lt hlo]

/-- A number cut at bit `k` and joined again in a word of `n` bits. -/
lemma join_cut {x k n : ℕ} (h : x < 2^n) : x % 2^k ||| (x/2^k) <<< k % 2^n = x := by
  rw [join (Nat.mod_lt x (Nat.two_pow_pos k)) ((Nat.div_mul_le_self x (2^k)).trans_lt h)]
  exact Nat.div_add_mod' x (2^k)

end EnaDevice.Bits
