import EnaDevice.Lib.Counter

/-! Rings whose consumer learns of new entries from a phase bit in the entry. The producer flips the
phase with every lap, so an entry is new exactly if its phase is that of the lap it is looked for
in. No index is exchanged. -/
namespace EnaDevice.PhaseRing

/-- The phase of the `n`-th entry: it alternates from lap to lap and starts with `true`. -/
def lapPhase (d n : ℕ) : Bool := n/d % 2 == 0

lemma lapPhase_succ (d n : ℕ) :
    lapPhase d (n+1) = if (n+1) % d = 0 then !lapPhase d n else lapPhase d n := by
  unfold lapPhase
  rw [Counter.succ_lap]
  split_ifs with h
  · rcases Nat.mod_two_eq_zero_or_one (n/d) with hp | hp
    · simp [hp,Nat.add_mod]
    · simp [hp,Nat.add_mod]
  · rfl

lemma lapPhase_of_lt {d n : ℕ} (h : n < d) : lapPhase d n = true := by
  simp [lapPhase,Nat.div_eq_of_lt h]

/-- One lap later the phase is the other one. -/
lemma lapPhase_add {d : ℕ} (hd : 0 < d) (n : ℕ) : lapPhase d (n+d) = !lapPhase d n := by
  unfold lapPhase
  rw [Nat.add_div_right n hd]
  rcases Nat.mod_two_eq_zero_or_one (n/d) with hp | hp
  · simp [hp,Nat.add_mod]
  · simp [hp,Nat.add_mod]

/-- A free-running 16-bit index and its phase after `n` entries. -/
structure At (d : ℕ) (idx : UInt16) (phase : Bool) (n : ℕ) : Prop where
  idx : idx = UInt16.ofNat n
  phase : phase = lapPhase d n

section At
variable {d : UInt16} {idx : UInt16} {phase : Bool} {n : ℕ}

lemma At.zero (d : ℕ) (hd : 0 < d) : At d 0 true 0 := ⟨rfl,(lapPhase_of_lt hd).symm⟩

/-- The index finds its slot, also after it wrapped. -/
lemma At.slot (hd : d.toNat.isPowerOfTwo) (h : At d.toNat idx phase n) :
    idx.toNat % d.toNat = n % d.toNat := by
  rw [h.idx,UInt16.toNat_ofNat']
  exact Counter.wrap_mod hd n

lemma At.next_idx (h : At d.toNat idx phase n) : idx + 1 = UInt16.ofNat (n+1) := by
  rw [h.idx,UInt16.ofNat_add]
  rfl

/-- Flipping the phase where the index is a multiple of the depth keeps index and phase aligned. -/
lemma At.succ (hd : d.toNat.isPowerOfTwo) (h : At d.toNat idx phase n) :
    At d.toNat (idx+1) (if (idx+1).toNat % d.toNat = 0 then !phase else phase) (n+1) := by
  refine ⟨h.next_idx,?_⟩
  rw [lapPhase_succ,h.next_idx,UInt16.toNat_ofNat',h.phase]
  have hwrap := Counter.wrap_mod hd (n+1)
  change (if (n+1) % 65536 % d.toNat = 0 then _ else _) = _
  rw [hwrap]

end At

variable {α : Type} {d : ℕ} {phase : α → Bool} {slot slot' : ℕ → α} {pushed : List α}

/-- What the slots hold after the entries `pushed`: the last lap of entries, each with the phase of
its lap, and nothing that looks like an entry where none was written. -/
structure Contents (d : ℕ) (phase : α → Bool) (slot : ℕ → α) (pushed : List α) : Prop where
  written : ∀ n e, pushed[n]? = some e → pushed.length ≤ n + d → slot (n % d) = e
  phases : ∀ n e, pushed[n]? = some e → phase e = lapPhase d n
  clear : ∀ k < d, pushed.length ≤ k → phase (slot k) = false

namespace Contents

lemma empty (h : ∀ k < d, phase (slot k) = false) : Contents d phase slot [] where
  written n e he := by simp at he
  phases n e he := by simp at he
  clear k hk _ := h k hk

/-- Other slots do not matter. -/
lemma congr (h : Contents d phase slot pushed) (hd : 0 < d) (hs : ∀ k < d, slot' k = slot k) :
    Contents d phase slot' pushed where
  written n e he hn := (hs _ (Nat.mod_lt n hd)).trans (h.written n e he hn)
  phases := h.phases
  clear k hk hn := by
    rw [hs k hk]
    exact h.clear k hk hn

/-- A push overwrites the oldest entry or a slot that was never used. -/
lemma push {e : α} (h : Contents d phase slot pushed) (hd : 0 < d)
    (he : phase e = lapPhase d pushed.length) (hself : slot' (pushed.length % d) = e)
    (hother : ∀ k < d, k ≠ pushed.length % d → slot' k = slot k) :
    Contents d phase slot' (pushed ++ [e]) where
  written n e' hn hlen := by
    rw [List.length_append,List.length_singleton] at hlen
    rcases Nat.lt_trichotomy n pushed.length with hlt | rfl | hgt
    · rw [List.getElem?_append_left hlt] at hn
      -- less than a lap before the new entry, so in another slot
      have hne : n % d ≠ pushed.length % d := by
        intro hmod
        have hdvd : d ∣ pushed.length - n := (Nat.modEq_iff_dvd' hlt.le).mp hmod
        have hle := Nat.le_of_dvd (by omega) hdvd
        omega
      rw [hother _ (Nat.mod_lt n hd) hne]
      exact h.written n e' hn (by omega)
    · rw [List.getElem?_concat_length] at hn
      cases hn
      exact hself
    · rw [List.getElem?_eq_none (by simpa using hgt)] at hn
      cases hn
  phases n e' hn := by
    rcases Nat.lt_trichotomy n pushed.length with hlt | rfl | hgt
    · rw [List.getElem?_append_left hlt] at hn
      exact h.phases n e' hn
    · rw [List.getElem?_concat_length] at hn
      cases hn
      exact he
    · rw [List.getElem?_eq_none (by simpa using hgt)] at hn
      cases hn
  clear k hk hlen := by
    rw [List.length_append,List.length_singleton] at hlen
    rw [hother k hk (by rw [Nat.mod_eq_of_lt (by omega)]; omega)]
    exact h.clear k hk (by omega)

/-- The consumer sees the phase it expects exactly if there is an entry that it has not read. -/
lemma fresh_iff (h : Contents d phase slot pushed) (hd : 0 < d) {n : ℕ} (hn : n ≤ pushed.length)
    (hroom : pushed.length ≤ n + d) :
    phase (slot (n % d)) = lapPhase d n ↔ n < pushed.length := by
  constructor
  · intro hphase
    by_contra hge
    have he : pushed.length = n := by omega
    rcases Nat.lt_or_ge n d with hlt | hle
    · rw [Nat.mod_eq_of_lt hlt,h.clear n hlt (by omega),lapPhase_of_lt hlt] at hphase
      cases hphase
    · -- the slot still holds the entry of the lap before
      obtain ⟨k,rfl⟩ := Nat.exists_eq_add_of_le' hle
      have hk : k < pushed.length := by omega
      have hold := List.getElem?_eq_getElem hk
      rw [Nat.add_mod_right,h.written k _ hold (by omega),h.phases k _ hold,
        lapPhase_add hd] at hphase
      simp at hphase
  · intro hlt
    have hnew := List.getElem?_eq_getElem hlt
    rw [h.written n _ hnew hroom,h.phases n _ hnew]

/-- What it reads then is the entry that comes next. -/
lemma read_eq (h : Contents d phase slot pushed) {n : ℕ} (hn : n < pushed.length)
    (hroom : pushed.length ≤ n + d) : pushed[n]? = some (slot (n % d)) := by
  rw [h.written n _ (List.getElem?_eq_getElem hn) hroom,List.getElem?_eq_getElem hn]

/-- A poll that takes the slot which comes next if its phase is the expected one: it finds nothing
exactly if all entries were read, and otherwise the first that was not. -/
lemma poll_iff {γ : Type} {next : γ} {expected : Bool} (h : Contents d phase slot pushed)
    (hd : 0 < d) {n : ℕ} (hn : n ≤ pushed.length) (hroom : pushed.length ≤ n + d)
    (hphase : expected = lapPhase d n) :
    ((if phase (slot (n % d)) = expected then some (slot (n % d),next) else none) = none ↔
      pushed.length = n) ∧
      ∀ e x, (if phase (slot (n % d)) = expected then some (slot (n % d),next) else none) =
        some (e,x) →
        pushed[n]? = some e ∧ x = next := by
  have hfresh := h.fresh_iff hd hn hroom
  rw [← hphase] at hfresh
  by_cases hlt : n < pushed.length
  · rw [if_pos (hfresh.mpr hlt)]
    refine ⟨⟨nofun,fun he => absurd hlt (by omega)⟩,?_⟩
    rintro e x ⟨⟩
    exact ⟨h.read_eq hlt hroom,rfl⟩
  · rw [if_neg (mt hfresh.mp hlt)]
    exact ⟨⟨fun _ => by omega,fun _ => rfl⟩,nofun⟩

end Contents

/-- Reading the first unread entry leaves a FIFO. -/
lemma fifo_read {pushed polled : List α} {e : α} (h : ∃ unread, pushed = polled ++ unread)
    (hnext : pushed[polled.length]? = some e) : ∃ unread, pushed = (polled ++ [e]) ++ unread := by
  obtain ⟨unread,hu⟩ := h
  cases unread with
  | nil =>
    rw [hu,List.append_nil,List.getElem?_eq_none le_rfl] at hnext
    cases hnext
  | cons a rest =>
    rw [hu,List.getElem?_append_right le_rfl,Nat.sub_self,List.getElem?_cons_zero] at hnext
    cases hnext
    exact ⟨rest,by rw [List.append_assoc,hu]; rfl⟩

end EnaDevice.PhaseRing
