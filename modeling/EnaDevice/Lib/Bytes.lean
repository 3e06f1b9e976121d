import Mathlib.Data.List.Basic
import Mathlib.Tactic

/-! Byte strings with little-endian fields: reading a field at an offset of a packed record,
and writing the two-, four- and eight-byte encodings that such records are made of. -/
namespace EnaDevice

abbrev Bytes := List UInt8

namespace Bytes

/-- Reading past the end of a record returns zero. -/
def u8At (b : Bytes) (off : ℕ) : UInt8 := b.getD off 0

def le16At (b : Bytes) (off : ℕ) : UInt16 :=
  UInt16.ofNat ((u8At b off).toNat + 256*(u8At b (off+1)).toNat)

def le32At (b : Bytes) (off : ℕ) : UInt32 :=
  UInt32.ofNat ((le16At b off).toNat + 65536*(le16At b (off+2)).toNat)

def ofLe16 (x : UInt16) : Bytes := [UInt8.ofNat x.toNat, UInt8.ofNat (x.toNat/256)]

def ofLe32 (x : UInt32) : Bytes :=
  ofLe16 (UInt16.ofNat x.toNat) ++ ofLe16 (UInt16.ofNat (x.toNat/65536))

/-- A record of `n` zero bytes. -/
def zeros (n : ℕ) : Bytes := List.replicate n 0

/-- Extend a record with zero bytes to a fixed size. -/
def pad (n : ℕ) (b : Bytes) : Bytes := b ++ zeros (n - b.length)

@[simp] theorem ofLe16_length (x : UInt16) : (ofLe16 x).length = 2 := rfl
@[simp] theorem ofLe32_length (x : UInt32) : (ofLe32 x).length = 4 := rfl
@[simp] theorem zeros_length (n : ℕ) : (zeros n).length = n := by simp [zeros]

@[simp] theorem pad_length (n : ℕ) (b : Bytes) (h : b.length ≤ n) : (pad n b).length = n := by
  simp only [pad, List.length_append, zeros_length]
  omega

/-- A table of `n` records of `k` bytes each. -/
lemma flatten_ofFn_length {n k : ℕ} (f : Fin n → Bytes) (h : ∀ i, (f i).length = k) :
    (List.ofFn f).flatten.length = n*k := by
  rw [List.length_flatten,List.map_ofFn,List.sum_ofFn]
  simp [h]

lemma u8At_take {b : Bytes} {n k : ℕ} (h : k < n) : u8At (b.take n) k = u8At b k := by
  simp only [u8At, List.getD_eq_getElem?_getD, List.getElem?_take_of_lt h]

lemma le16At_take {b : Bytes} {n k : ℕ} (h : k+1 < n) : le16At (b.take n) k = le16At b k := by
  rw [le16At,u8At_take (by omega),u8At_take h,le16At]

lemma le32At_take {b : Bytes} {n k : ℕ} (h : k+3 < n) : le32At (b.take n) k = le32At b k := by
  rw [le32At,le16At_take (by omega),le16At_take (by omega),le32At]

lemma u8At_append_left {a b : Bytes} {n : ℕ} (h : n < a.length) : u8At (a ++ b) n = u8At a n := by
  rw [u8At,u8At,List.getD_eq_getElem?_getD,List.getD_eq_getElem?_getD,List.getElem?_append_left h]

lemma u8At_append_right (a b : Bytes) (n : ℕ) : u8At (a ++ b) (a.length + n) = u8At b n := by
  rw [u8At,u8At,List.getD_eq_getElem?_getD,List.getD_eq_getElem?_getD,
    List.getElem?_append_right (Nat.le_add_right _ _),Nat.add_sub_cancel_left]

/-- Reading past the end gives zeros, so padding is not seen. -/
lemma u8At_pad (n : ℕ) (b : Bytes) (k : ℕ) : u8At (pad n b) k = u8At b k := by
  rcases Nat.lt_or_ge k b.length with hk | hk
  · exact u8At_append_left hk
  · obtain ⟨j,rfl⟩ := Nat.exists_eq_add_of_le hk
    rw [pad,u8At_append_right,u8At,u8At,zeros,List.getD_eq_getElem?_getD,List.getD_eq_getElem?_getD,
      List.getElem?_replicate,List.getElem?_eq_none (Nat.le_add_right _ _)]
    split_ifs <;> rfl

lemma le16At_pad (n : ℕ) (b : Bytes) (k : ℕ) : le16At (pad n b) k = le16At b k := by
  rw [le16At,u8At_pad,u8At_pad,le16At]

lemma le32At_pad (n : ℕ) (b : Bytes) (k : ℕ) : le32At (pad n b) k = le32At b k := by
  rw [le32At,le16At_pad,le16At_pad,le32At]

lemma le16At_append_right (a b : Bytes) (n : ℕ) : le16At (a ++ b) (a.length + n) = le16At b n := by
  rw [le16At,Nat.add_assoc,u8At_append_right,u8At_append_right,le16At]

lemma le32At_append_right (a b : Bytes) (n : ℕ) : le32At (a ++ b) (a.length + n) = le32At b n := by
  rw [le32At,Nat.add_assoc,le16At_append_right,le16At_append_right,le32At]

lemma le16At_skip16 (x : UInt16) (b : Bytes) (n : ℕ) : le16At (ofLe16 x ++ b)
    (n+2) = le16At b n := by
  rw [Nat.add_comm]
  exact le16At_append_right (ofLe16 x) b n

lemma le16At_skip32 (x : UInt32) (b : Bytes) (n : ℕ) : le16At (ofLe32 x ++ b)
    (n+4) = le16At b n := by
  rw [Nat.add_comm]
  exact le16At_append_right (ofLe32 x) b n

/-- A byte of one record of a table. -/
lemma u8At_table {n k : ℕ} (f : Fin n → Bytes) (hk : ∀ i, (f i).length = k) (i : Fin n) (off : ℕ)
    (h : off < k) (rest : Bytes) : u8At ((List.ofFn f).flatten ++ rest)
    (k*i + off) = u8At (f i) off := by
  induction n with
  | zero => exact i.elim0
  | succ n ih =>
    rw [List.ofFn_succ,List.flatten_cons,List.append_assoc]
    cases i using Fin.cases with
    | zero =>
      change u8At (f 0 ++ _) (k*0 + off) = _
      rw [Nat.mul_zero,Nat.zero_add,u8At_append_left (by rw [hk]; exact h)]
    | succ i =>
      have hoff : k*(i.succ : ℕ) + off = (f 0).length + (k*i + off) := by
        rw [hk,Fin.val_succ,Nat.mul_add,Nat.mul_one]
        omega
      rw [hoff,u8At_append_right]
      exact ih (fun j => f j.succ) (fun j => hk j.succ) i

lemma le16At_table {n k : ℕ} (f : Fin n → Bytes) (hk : ∀ i, (f i).length = k) (i : Fin n) (off : ℕ)
    (h : off + 1 < k) (rest : Bytes) :
    le16At ((List.ofFn f).flatten ++ rest) (k*i + off) = le16At (f i) off := by
  rw [le16At,Nat.add_assoc,u8At_table f hk i _ (by omega),u8At_table f hk i _ h,le16At]

lemma le32At_table {n k : ℕ} (f : Fin n → Bytes) (hk : ∀ i, (f i).length = k) (i : Fin n) (off : ℕ)
    (h : off + 3 < k) (rest : Bytes) :
    le32At ((List.ofFn f).flatten ++ rest) (k*i + off) = le32At (f i) off := by
  rw [le32At,Nat.add_assoc,le16At_table f hk i _ (by omega),le16At_table f hk i _ (by omega),le32At]

/-- The two bytes of a word put together again. -/
lemma le16At_ofLe16 (x : UInt16) (b : Bytes) : le16At (ofLe16 x ++ b) 0 = x := by
  apply UInt16.toNat_inj.mp
  have hx := x.toNat_lt
  change (UInt16.ofNat ((UInt8.ofNat x.toNat).toNat +
    256*(UInt8.ofNat (x.toNat/256)).toNat)).toNat = _
  simp only [UInt16.toNat_ofNat', UInt8.toNat_ofNat']
  omega

lemma le32At_ofLe32 (x : UInt32) (b : Bytes) : le32At (ofLe32 x ++ b) 0 = x := by
  apply UInt32.toNat_inj.mp
  have hx := x.toNat_lt
  have hlo := le16At_ofLe16 (UInt16.ofNat x.toNat) (ofLe16 (UInt16.ofNat (x.toNat/65536)) ++ b)
  have hhi := le16At_ofLe16 (UInt16.ofNat (x.toNat/65536)) b
  change (UInt32.ofNat ((le16At (ofLe16 (UInt16.ofNat x.toNat) ++
    (ofLe16 (UInt16.ofNat (x.toNat/65536)) ++ b)) 0).toNat +
    65536*(le16At (ofLe16 (UInt16.ofNat (x.toNat/65536)) ++ b) 0).toNat)).toNat = _
  rw [hlo,hhi]
  simp only [UInt32.toNat_ofNat', UInt16.toNat_ofNat']
  omega

end Bytes
end EnaDevice
