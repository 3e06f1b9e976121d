import Mathlib.Tactic

/-! Sums of 16-bit words in ones'-complement arithmetic, as the checksums of IP headers are made:
the words are added with end-around carry, and the complement of the sum is the checksum. -/
namespace EnaDevice.Checksum

/-- The sum of the big-endian words; an odd byte at the end is the upper half of a word. -/
def wordSum : List UInt8 → ℕ
  | [] => 0
  | [a] => a.toNat*256
  | a::b::rest => a.toNat*256 + b.toNat + wordSum rest

/-- One end-around carry. -/
def carry (n : ℕ) : ℕ := n % 65536 + n/65536

/-- Carries until the sum has 16 bits, with the number of carries that may be made. -/
def fold : ℕ → ℕ → ℕ
  | 0, n => n
  | k+1, n => if n < 65536 then n else fold k (carry n)

/-- The ones'-complement sum of some bytes. -/
def onesSum (bytes : List UInt8) : ℕ := fold (wordSum bytes) (wordSum bytes)

/-- The checksum of some bytes: the complement of their sum. -/
def checksum (bytes : List UInt8) : ℕ := 65535 - onesSum bytes

lemma carry_mod (n : ℕ) : carry n % 65535 = n % 65535 := by
  unfold carry
  omega

lemma carry_lt {n : ℕ} (h : 65536 ≤ n) : carry n < n := by
  unfold carry
  omega

lemma carry_pos (n : ℕ) : 0 < carry n ↔ 0 < n := by
  unfold carry
  omega

/-- With enough carries the sum fits in 16 bits and is the same modulo `2^16-1`; it is zero for zero
only. -/
lemma fold_spec {k n : ℕ} (h : n ≤ k) :
    fold k n < 65536 ∧ fold k n % 65535 = n % 65535 ∧ (0 < fold k n ↔ 0 < n) := by
  induction k generalizing n with
  | zero =>
    obtain rfl := Nat.le_zero.mp h
    exact ⟨by decide,rfl,Iff.rfl⟩
  | succ k ih =>
    unfold fold
    split_ifs with hlt
    · exact ⟨hlt,rfl,Iff.rfl⟩
    · have hless := carry_lt (Nat.le_of_not_lt hlt)
      obtain ⟨hsmall,hmod,hpos⟩ := ih (n := carry n) (by omega)
      exact ⟨hsmall,hmod.trans (carry_mod n),hpos.trans (carry_pos n)⟩

lemma onesSum_le (bytes : List UInt8) : onesSum bytes ≤ 65535 :=
  Nat.le_of_lt_succ (fold_spec (le_refl (wordSum bytes))).1

/-- A sum is all ones if it is a multiple of `2^16-1`, but for the sum of nothing but zeros. -/
lemma onesSum_eq_ones {bytes : List UInt8} (hpos : 0 < wordSum bytes)
    (h : wordSum bytes % 65535 = 0) :
    onesSum bytes = 65535 := by
  obtain ⟨hlt,hmod,hne⟩ := fold_spec (le_refl (wordSum bytes))
  have hnonzero := hne.mpr hpos
  change fold (wordSum bytes) (wordSum bytes) = 65535
  omega

/-- Words that start at an even place are added separately. -/
lemma wordSum_append {pre : List UInt8} (h : pre.length % 2 = 0) (post : List UInt8) :
    wordSum (pre ++ post) = wordSum pre + wordSum post := by
  induction pre using wordSum.induct with
  | case1 => rw [List.nil_append,wordSum,Nat.zero_add]
  | case2 a => cases h
  | case3 a b rest ih =>
    have hrest : rest.length % 2 = 0 := by
      simp only [List.length_cons] at h
      omega
    rw [List.cons_append,List.cons_append,wordSum,wordSum,ih hrest]
    omega

/-- A header whose checksum field holds the checksum of the header with the field cleared has a sum
of all ones. -/
theorem onesSum_checksummed {pre post : List UInt8} {hi lo : UInt8} (h : pre.length % 2 = 0)
    (hsum : hi.toNat*256 + lo.toNat = checksum (pre ++ [0,0] ++ post)) :
    onesSum (pre ++ [hi,lo] ++ post) = 65535 := by
  have hsplit : ∀ x y : UInt8, wordSum (pre ++ [x,y] ++ post) =
      wordSum pre + (x.toNat*256 + y.toNat) + wordSum post := by
    intro x y
    rw [List.append_assoc,wordSum_append h,List.cons_append,List.cons_append,List.nil_append,
      wordSum]
    omega
  have hle := onesSum_le (pre ++ [0,0] ++ post)
  obtain ⟨-,hmod,hne⟩ := fold_spec (le_refl (wordSum (pre ++ [0,0] ++ post)))
  change onesSum (pre ++ [0,0] ++ post) % 65535 = _ at hmod
  change 0 < onesSum (pre ++ [0,0] ++ post) ↔ _ at hne
  rw [hsplit 0 0] at hmod hne
  change _ = (wordSum pre + (0*256 + 0) + wordSum post) % 65535 at hmod
  change _ ↔ 0 < wordSum pre + (0*256 + 0) + wordSum post at hne
  rw [checksum] at hsum
  apply onesSum_eq_ones
  · rw [hsplit]
    omega
  · rw [hsplit]
    omega

end EnaDevice.Checksum
