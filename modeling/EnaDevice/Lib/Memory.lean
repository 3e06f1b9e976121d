import EnaDevice.Lib.Bytes
import EnaDevice.Lib.Counter

/-! Byte-addressed memory behind a 64-bit bus. Addresses wrap modulo `2^64`, a read may fail,
and the destination of a failed read keeps bytes that the memory does not determine. -/
namespace EnaDevice

/-- Contents of the bus, which addresses can be read, and what a failed read leaves behind. -/
structure Memory where
  byte : UInt64 → UInt8
  readable : UInt64 → Bool
  stale : UInt64 → UInt8

/-- The addresses of the `n` bytes that start at `a`. -/
def InRegion (a : UInt64) (n : ℕ) (x : UInt64) : Prop := (x - a).toNat < n

instance (a : UInt64) (n : ℕ) : DecidablePred (InRegion a n) :=
  fun _ => inferInstanceAs (Decidable (_ < _))

/-- The `n` bytes at `a` are all among the `m` bytes at `b`. -/
def Within (a : UInt64) (n : ℕ) (b : UInt64) (m : ℕ) : Prop :=
  ∀ x, InRegion a n x → InRegion b m x

/-- The `n` bytes at `a` and the `m` bytes at `b` have no address in common. -/
def Apart (a : UInt64) (n : ℕ) (b : UInt64) (m : ℕ) : Prop :=
  ∀ x, InRegion a n x → ¬ InRegion b m x

lemma within_of_le (a : UInt64) {n m : ℕ} (h : n ≤ m) : Within a n a m :=
  fun _ hx => Nat.lt_of_lt_of_le hx h

/-- A region at an offset of a larger one; the addresses may wrap. -/
lemma within_add (a off : UInt64) {n m : ℕ} (h : off.toNat + n ≤ m) : Within (a+off) n a m := by
  intro x hx
  unfold InRegion at hx ⊢
  have hsplit : x - a = (x - (a+off)) + off := by grind
  rw [hsplit,UInt64.toNat_add]
  exact (Nat.mod_le _ _).trans_lt (by omega)

lemma Within.trans {a b c : UInt64} {n m k : ℕ} (h : Within a n b m) (h' : Within b m c k) :
    Within a n c k := fun x hx => h' x (h x hx)

lemma Apart.symm {a b : UInt64} {n m : ℕ} (h : Apart a n b m) : Apart b m a n :=
  fun x hx hx' => h x hx' hx

/-- Regions one behind the other, neither of which wraps. -/
lemma apart_of_le {a b : UInt64} {n m : ℕ} (h : a.toNat + n ≤ b.toNat) (hb : b.toNat + m ≤ 2^64) :
    Apart a n b m := by
  intro x hx hx'
  have hxlt := x.toNat_lt
  unfold InRegion at hx hx'
  rw [UInt64.toNat_sub] at hx hx'
  omega

lemma Apart.mono {a b c d : UInt64} {n m k l : ℕ} (h : Apart c k d l) (ha : Within a n c k)
    (hb : Within b m d l) : Apart a n b m := fun x hx hx' => h x (ha x hx) (hb x hx')

namespace Memory

/-- Readable memory with the given bytes at the given addresses and zeros elsewhere. -/
def ofSegments (segs : List (UInt64 × Bytes)) : Memory where
  byte a := (segs.findSome? fun s => s.2[(a - s.1).toNat]?).getD 0
  readable _ := true
  stale _ := 0

def bytesAt (m : Memory) (a : UInt64) (n : ℕ) : Bytes :=
  List.ofFn fun j : Fin n => m.byte (a + UInt64.ofNat j)

def staleAt (m : Memory) (a : UInt64) (n : ℕ) : Bytes :=
  List.ofFn fun j : Fin n => m.stale (a + UInt64.ofNat j)

def okAt (m : Memory) (a : UInt64) (n : ℕ) : Bool :=
  (List.ofFn fun j : Fin n => m.readable (a + UInt64.ofNat j)).all id

/-- Success of the transaction and the destination buffer after it. -/
def read (m : Memory) (a : UInt64) (n : ℕ) : Bool × Bytes :=
  if m.okAt a n then (true, m.bytesAt a n) else (false, m.staleAt a n)

def write (m : Memory) (a : UInt64) (data : Bytes) : Memory :=
  { m with byte := fun x => (data[(x - a).toNat]?).getD (m.byte x) }

@[simp] lemma bytesAt_length (m : Memory) (a : UInt64) (n : ℕ) : (m.bytesAt a n).length = n := by
  simp [bytesAt]

@[simp] lemma staleAt_length (m : Memory) (a : UInt64) (n : ℕ) : (m.staleAt a n).length = n := by
  simp [staleAt]

/-- A destination buffer keeps its size, whatever comes of the read. -/
@[simp] lemma read_length (m : Memory) (a : UInt64) (n : ℕ) : (m.read a n).2.length = n := by
  unfold read
  split_ifs
  · exact bytesAt_length m a n
  · exact staleAt_length m a n

lemma read_of_ok {m : Memory} {a : UInt64} {n : ℕ} (h : m.okAt a n = true) :
    m.read a n = (true,m.bytesAt a n) := if_pos h

lemma u8At_bytesAt (m : Memory) (a : UInt64) {n k : ℕ} (h : k < n) :
    Bytes.u8At (m.bytesAt a n) k = m.byte (a + UInt64.ofNat k) := by
  rw [Bytes.u8At,List.getD_eq_getElem?_getD,List.getElem?_eq_getElem (by simpa using h)]
  simp [bytesAt]

/-- Memory that is set to zero, and what is zero elsewhere stays so. -/
lemma byte_write_zeros (m : Memory) (a : UInt64) (n : ℕ) (x : UInt64) :
    (m.write a (Bytes.zeros n)).byte x = if InRegion a n x then 0 else m.byte x := by
  by_cases h : InRegion a n x
  · have hin : (x - a).toNat < n := h
    simp [write,Bytes.zeros,h,hin]
  · have hout : ¬ (x - a).toNat < n := h
    simp [write,Bytes.zeros,h,hout]

lemma inRegion_add (a : UInt64) {n : ℕ} (j : Fin n) : InRegion a n (a + UInt64.ofNat j) := by
  unfold InRegion
  rw [show a + UInt64.ofNat j - a = UInt64.ofNat j by grind,UInt64.toNat_ofNat']
  exact (Nat.mod_le _ _).trans_lt j.isLt

/-- The same addresses can be read, with the same bytes outside the given ones. -/
structure Agrees (writes : UInt64 → Prop) (m m' : Memory) : Prop where
  readable : m'.readable = m.readable
  byte : ∀ x, ¬ writes x → m'.byte x = m.byte x

namespace Agrees
variable {writes : UInt64 → Prop} {m m' m'' : Memory}

lemma refl (m : Memory) : Agrees writes m m := ⟨rfl,fun _ _ => rfl⟩

lemma mono {writes' : UInt64 → Prop} (h : Agrees writes m m') (hsub : ∀ x, writes x → writes' x) :
    Agrees writes' m m' := ⟨h.1,fun x hx => h.2 x fun hw => hx (hsub x hw)⟩

lemma trans (h : Agrees writes m m') (h' : Agrees writes m' m'') : Agrees writes m m'' :=
  ⟨h'.readable.trans h.readable,fun x hx => (h'.byte x hx).trans (h.byte x hx)⟩

lemma write {a : UInt64} {data : Bytes} (h : ∀ x, InRegion a data.length x → writes x) :
    Agrees writes m (m.write a data) := by
  refine ⟨rfl,fun x hx => ?_⟩
  have hout : ¬ (x - a).toNat < data.length := fun hin => hx (h x hin)
  simp only [Memory.write]
  rw [List.getElem?_eq_none (by omega),Option.getD_none]

lemma okAt (h : Agrees writes m m') (a : UInt64) (n : ℕ) : m'.okAt a n = m.okAt a n := by
  unfold Memory.okAt
  rw [h.readable]

lemma bytesAt (h : Agrees writes m m') {a : UInt64} {n : ℕ}
    (hout : ∀ x, InRegion a n x → ¬ writes x) :
    m'.bytesAt a n = m.bytesAt a n := by
  unfold Memory.bytesAt
  congr 1
  funext j
  exact h.byte _ (hout _ (inRegion_add a j))

lemma read (h : Agrees writes m m') (hs : m'.stale = m.stale) {a : UInt64} {n : ℕ}
    (hout : ∀ x, InRegion a n x → ¬ writes x) : m'.read a n = m.read a n := by
  unfold Memory.read Memory.staleAt
  rw [h.okAt,h.bytesAt hout,hs]

end Agrees

/-- A write elsewhere does not show. -/
lemma bytesAt_write_of_apart (m : Memory) {a b : UInt64} {n : ℕ} {data : Bytes}
    (h : Apart a n b data.length) : (m.write b data).bytesAt a n = m.bytesAt a n :=
  (Agrees.write fun _ hx => hx).bytesAt h

lemma bytesAt_write_self (m : Memory) (a : UInt64) {data : Bytes} (h : data.length ≤ 2^64) :
    (m.write a data).bytesAt a data.length = data := by
  apply List.ext_getElem
  · exact bytesAt_length _ _ _
  intro j hj hj'
  simp only [bytesAt, List.getElem_ofFn, write]
  rw [show a + UInt64.ofNat j - a = UInt64.ofNat j by grind,UInt64.toNat_ofNat',
    Nat.mod_eq_of_lt (by omega),List.getElem?_eq_getElem hj',Option.getD_some]

/-- The `k`-th entry of a ring of `size`-byte entries. -/
def slot (m : Memory) (base : UInt64) (size k : ℕ) : Bytes :=
  m.bytesAt (base + UInt64.ofNat (k*size)) size

lemma slot_within (base : UInt64) {size d k : ℕ} (hk : k < d) :
    Within (base + UInt64.ofNat (k*size)) size base (d*size) := by
  have hle := Nat.mul_le_mul_right size (Nat.succ_le_of_lt hk)
  rw [Nat.succ_mul] at hle
  apply within_add
  rw [UInt64.toNat_ofNat']
  exact (Nat.add_le_add_right (Nat.mod_le _ _) _).trans hle

/-- Entries of one ring do not overlap. -/
lemma slots_apart (base : UInt64) {size d j k : ℕ} (hd : d*size ≤ 2^64) (hj : j < d) (hk : k < d)
    (hne : j ≠ k) :
    Apart (base + UInt64.ofNat (j*size)) size (base + UInt64.ofNat (k*size)) size := by
  have hend : ∀ l < d, l*size + size ≤ 2^64 := by
    intro l hl
    have hle := Nat.mul_le_mul_right size (Nat.succ_le_of_lt hl)
    rw [Nat.succ_mul] at hle
    omega
  have hapart : j*size + size ≤ k*size ∨ k*size + size ≤ j*size := by
    rcases Nat.lt_or_gt_of_ne hne with hlt | hlt
    · left
      have hle := Nat.mul_le_mul_right size (Nat.succ_le_of_lt hlt)
      rwa [Nat.succ_mul] at hle
    · right
      have hle := Nat.mul_le_mul_right size (Nat.succ_le_of_lt hlt)
      rwa [Nat.succ_mul] at hle
  have hjd := hend j hj
  have hkd := hend k hk
  generalize j*size = a at *
  generalize k*size = b at *
  intro x hx hx'
  unfold InRegion at hx hx'
  have hsplit : ∀ c : ℕ, x - (base + UInt64.ofNat c) = x - base - UInt64.ofNat c :=
    fun c => by grind
  rw [hsplit,UInt64.toNat_sub,UInt64.toNat_ofNat'] at hx hx'
  have hlt := (x - base).toNat_lt
  omega

lemma slot_write_self (m : Memory) (base : UInt64) {size k : ℕ} {data : Bytes}
    (h : data.length = size) (hsize : size ≤ 2^64) :
    (m.write (base + UInt64.ofNat (k*size)) data).slot base size k = data := by
  subst h
  exact bytesAt_write_self m _ hsize

lemma slot_write_of_ne (m : Memory) (base : UInt64) {size d j k : ℕ} {data : Bytes}
    (h : data.length = size) (hd : d*size ≤ 2^64) (hj : j < d) (hk : k < d) (hne : j ≠ k) :
    (m.write (base + UInt64.ofNat (k*size)) data).slot base size j = m.slot base size j := by
  apply bytesAt_write_of_apart
  rw [h]
  exact slots_apart base hd hj hk hne

/-- A write apart from a ring leaves all its entries alone. -/
lemma slot_write_of_apart (m : Memory) {base a : UInt64} {size d k : ℕ} {data : Bytes}
    (h : Apart base (d*size) a data.length) (hk : k < d) :
    (m.write a data).slot base size k = m.slot base size k :=
  bytesAt_write_of_apart m (h.mono (slot_within base hk) fun _ hx => hx)

/-- Every entry of the ring can be read. -/
def ringOk (m : Memory) (base : UInt64) (size d : ℕ) : Prop :=
  ∀ k < d, m.okAt (base + UInt64.ofNat (k*size)) size = true

lemma read_slot {m : Memory} {base : UInt64} {size d k : ℕ} (h : m.ringOk base size d)
    (hk : k < d) :
    m.read (base + UInt64.ofNat (k*size)) size = (true,m.slot base size k) := read_of_ok (h k hk)

/-- Entries written into a ring one after another, from the `n`-th on. -/
def writeRing (m : Memory) (base : UInt64) (size d : ℕ) : ℕ → List Bytes → Memory
  | _, [] => m
  | n, e::es => writeRing (m.write (base + UInt64.ofNat (n % d*size)) e) base size d (n+1) es

section WriteRing
variable {base : UInt64} {size d : ℕ} (hd : d*size ≤ 2^64) (hpos : 0 < d)

/-- Only the place in the ring matters. -/
lemma writeRing_mod (m : Memory) (base : UInt64) (size d n : ℕ) (es : List Bytes) :
    m.writeRing base size d (n % d) es = m.writeRing base size d n es := by
  induction es generalizing m n with
  | nil => rfl
  | cons e es ih =>
    rw [writeRing,writeRing,Nat.mod_mod,← ih _ (n % d + 1),← ih _ (n+1),Nat.mod_add_mod]

include hpos in
lemma writeRing_agrees (m : Memory) (n : ℕ) {es : List Bytes} (hlen : ∀ e ∈ es, e.length = size) :
    m.Agrees (InRegion base (d*size)) (m.writeRing base size d n es) := by
  induction es generalizing m n with
  | nil => exact .refl m
  | cons e es ih =>
    refine .trans (.write fun x hx => slot_within base (Nat.mod_lt n hpos) x ?_)
      (ih _ (n+1) fun e' he' => hlen e' (List.mem_cons_of_mem _ he'))
    rw [hlen e List.mem_cons_self] at hx
    exact hx

include hd hpos in
/-- The entries before are not written over, as long as they are less than a lap away. -/
lemma writeRing_slot_of_lt (m : Memory) {n k : ℕ} {es : List Bytes}
    (hlen : ∀ e ∈ es, e.length = size) (hk : k < n) (hroom : n + es.length ≤ k + d) :
    (m.writeRing base size d n es).slot base size (k % d) = m.slot base size (k % d) := by
  induction es generalizing m n with
  | nil => rfl
  | cons e es ih =>
    rw [List.length_cons] at hroom
    rw [writeRing,ih _ (fun e' he' => hlen e' (List.mem_cons_of_mem _ he')) (by omega) (by omega)]
    exact slot_write_of_ne m base (hlen e List.mem_cons_self) hd (Nat.mod_lt k hpos)
      (Nat.mod_lt n hpos)
      (Counter.slot_ne hk (by omega))

include hd hpos in
/-- Every entry is in its place. -/
lemma writeRing_slot (m : Memory) (n : ℕ) {es : List Bytes} (hlen : ∀ e ∈ es, e.length = size)
    (hroom : es.length ≤ d) {j : ℕ} {e : Bytes} (he : es[j]? = some e) :
    (m.writeRing base size d n es).slot base size ((n+j) % d) = e := by
  have hsize : size ≤ 2^64 := (Nat.le_mul_of_pos_left size hpos).trans hd
  induction es generalizing m n j with
  | nil => cases he
  | cons a es ih =>
    have hrest : ∀ e ∈ es, e.length = size := fun e' he' => hlen e' (List.mem_cons_of_mem _ he')
    rw [List.length_cons] at hroom
    cases j with
    | zero =>
      cases he
      refine (writeRing_slot_of_lt hd hpos _ hrest (Nat.lt_succ_self n) (by omega)).trans ?_
      exact slot_write_self m base (hlen _ List.mem_cons_self) hsize
    | succ j =>
      rw [List.getElem?_cons_succ] at he
      rw [writeRing,show n + (j+1) = n + 1 + j by omega]
      exact ih _ (n+1) hrest (by omega) he

end WriteRing
end Memory
end EnaDevice
