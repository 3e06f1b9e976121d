import EnaDevice.Invariant.Safety
import EnaDevice.Tx.Packet

/-! LLQ placement is equivalent to host placement: the same descriptor slots are parsed to the same
packet, wherever the ring is. -/
namespace EnaDevice
open Bytes Result

/-- Descriptor slots laid out in LLQ entries from the head on: two in the first entry, which also
takes the pushed header, and `entry_size/16` in each of the following ones. -/
structure LlqHolds (w : World) (i : SqIdx) (q : EnaSq) (slots : List Bytes) : Prop where
  first : ∀ j < 2, ∀ b, slots[j]? = some b → llqBytes w.llq i q q.head.toNat (16*j) 16 = b
  rest : ∀ k j, j < q.entrySize.toNat/16 → ∀ b, slots[2 + k*(q.entrySize.toNat/16) + j]? = some b →
    llqBytes w.llq i q (q.head.toNat + (1 + k)) (16*j) 16 = b

/-- The same slots one after another in a host ring. -/
def HostHolds (w : World) (q : EnaSq) (slots : List Bytes) : Prop :=
  ∀ j b, slots[j]? = some b →
    w.mem.read (q.base + UInt64.ofNat ((q.head.toNat + j) % q.depth.toNat*16)) 16 = (true,b)

/-- Slots whose parsing ends with the list: as many as a packet can have, or up to a data descriptor
that is marked as the last one. -/
def SlotsEnd (slots : List Bytes) : Prop :=
  slots.length = 18 ∨ (slots.length ≤ 18 ∧ ∃ b, slots.getLast? = some b ∧
    (EnaTxDesc.ofBytes b).isMeta = false ∧ (EnaTxDesc.ofBytes b).isLast = true)

section
variable {w w' : World} {i i' : SqIdx} {s s' : EnaState} {sq sq' : EnaSq} {slots : List Bytes}

/-- What the device reads in a slot. -/
def ReadsSlots (w : World) (i : SqIdx) (sq : EnaSq) (slots : List Bytes) : Prop :=
  ∀ j b, slots[j]? = some b → w.txSlot i sq j = .ofBytes b

lemma LlqHolds.reads (h : LlqHolds w i sq slots) (hok : sq.Ok s) (hl : sq.llq = true) :
    ReadsSlots w i sq slots := by
  have hcases := llqSlot_cases (Q := fun j b => ∀ b', slots[j]? = some b' → b = b') hok hl h.first
    h.rest
  intro j b hb
  rw [← hcases j b hb,World.txSlot,if_pos hl]
  rfl

lemma HostHolds.reads (h : HostHolds w sq slots) (hl : sq.llq = false) :
    ReadsSlots w i sq slots := by
  intro j b hb
  have hread := h j b hb
  rw [World.txSlot,if_neg (by simp [hl])]
  simp only [EnaTxDesc.size]
  rw [hread]

/-- Readers that see the same posted slots take the same decisions. -/
lemma parseFrom_congr (hok : sq.Ok s) (hok' : sq'.Ok s') (hend : SlotsEnd slots)
    (hr : ReadsSlots w i sq slots) (hr' : ReadsSlots w' i' sq' slots)
    (hp : ∀ j < slots.length, sq.slotPos j < (sq.tail - sq.head).toNat)
    (hp' : ∀ j < slots.length, sq'.slotPos j < (sq'.tail - sq'.head).toNat) (n slot : ℕ)
    (hslot : slot + n = 18) (hin : slot < slots.length ∨ n = 0) (p : EnaTxPkt) :
    enaTxParseFrom w i sq n slot p = enaTxParseFrom w' i' sq' n slot p := by
  induction n generalizing slot p with
  | zero => rfl
  | succ n ih =>
    have hlt : slot < slots.length := hin.resolve_right (Nat.succ_ne_zero n)
    have hget := List.getElem?_eq_getElem hlt
    -- a slot that is parsed over has another one behind it, unless the iterations are used up
    have hnext : ((EnaTxDesc.ofBytes slots[slot]).isMeta = true ∨
        (EnaTxDesc.ofBytes slots[slot]).isLast = false) → slot + 1 < slots.length ∨ n = 0 := by
      intro hover
      by_contra hno
      rw [not_or] at hno
      rcases hend with hfull | ⟨-,b,hb,hdata,hlast⟩
      · omega
      · rw [List.getLast?_eq_getElem?,show slots.length - 1 = slot by omega,hget] at hb
        cases hb
        rw [hdata,hlast] at hover
        simp at hover
    rw [enaTxParseFrom,enaTxParseFrom,hok.txSlotPosted,hok'.txSlotPosted,
      decide_eq_true (hp slot hlt),decide_eq_true (hp' slot hlt),ok_bind,ok_bind,hok.txReadSlot,
      hok'.txReadSlot,ok_bind,ok_bind,hr slot _ hget,hr' slot _ hget]
    generalize EnaTxDesc.ofBytes slots[slot] = d at hnext
    cases hmeta : d.isMeta with
    | true =>
      have hrec := ih (slot+1) (by omega) (hnext (.inl hmeta))
      simp only [if_true, hrec]
    | false =>
      cases hlast : d.isLast with
      | true => simp only [Bool.false_eq_true, if_true, if_false]
      | false =>
        have hrec := ih (slot+1) (by omega) (hnext (.inr hlast))
        simp only [Bool.false_eq_true, if_false, hrec]

/-- A posted list of slots is parsed from an LLQ ring as from a host ring, and the packet takes the
LLQ entries that its slots cover. -/
theorem llqParse_eq_hostParse (hok : (w.dev.sq i).Ok w.dev) (hok' : (w'.dev.sq i').Ok w'.dev)
    (hllq : (w.dev.sq i).llq = true) (hhost : (w'.dev.sq i').llq = false) (hpos : slots ≠ [])
    (hend : SlotsEnd slots) (hholds : LlqHolds w i (w.dev.sq i) slots)
    (hholds' : HostHolds w' (w'.dev.sq i') slots)
    (hposted : ((w.dev.sq i).tail - (w.dev.sq i).head).toNat = llqCover (w.dev.sq i) slots.length)
    (hposted' : ((w'.dev.sq i').tail - (w'.dev.sq i').head).toNat = slots.length) :
    enaTxParse w i = enaTxParse w' i' ∧
      ∀ p, enaTxParse w i = .ok (some p) →
        enaTxPktEntries (w.dev.sq i) p.slots = .ok (llqCover (w.dev.sq i) p.slots) := by
  have hlen : 0 < slots.length := List.length_pos_iff.mpr hpos
  refine ⟨?_,?_⟩
  · refine parseFrom_congr hok hok' hend (hholds.reads hok hllq)
      (hholds'.reads hhost) ?_ ?_ 18 0 rfl
      (.inl hlen) EnaTxPkt.zero
    · intro j hj
      rw [hposted,← llqCover_eq hok hllq hlen]
      exact Nat.lt_succ_of_le (TxPacket.slotPos_mono (by omega))
    · intro j hj
      rw [hposted',EnaSq.slotPos,if_neg (by simp [hhost])]
      exact hj
  · intro p hp
    have hslots := (hok.txPkt hp).slots
    rw [hok.txPktEntries hslots,llqCover_eq hok hllq hslots]

/-- Three data descriptors, the last one marked; the second LLQ entry has the third. -/
def threeSlots : List Bytes :=
  [ofLe32 0x04000010 ++ zeros 12,ofLe32 0x00000010 ++ zeros 12,ofLe32 0x08000010 ++ zeros 12]

/-- An LLQ queue and a host queue at head 15 of 16, with the three slots in both. -/
def bothPlacements : World where
  dev := { freshWorld.dev with
    cq := fun _ => ⟨true,0x3000,16,16,true,1,0,true⟩
    sq := fun i => if i = 0 then ⟨true,true,true,0,0,16,128,15,17,EnaTxMeta.zero⟩
      else ⟨true,true,false,0,0x4000,16,0,15,18,EnaTxMeta.zero⟩ }
  mem := .ofSegments [(0x40f0,threeSlots.getD 0 []),
    (0x4000,threeSlots.getD 1 [] ++ threeSlots.getD 2 [])]
  llq n := if n < 1920 then (threeSlots.getD 2 []).getD n 0
    else (threeSlots.getD 0 [] ++ threeSlots.getD 1 []).getD (n-1920) 0
  clock := 0
  linkUp := true
  trace := []

lemma bothPlacements_llqOk : (bothPlacements.dev.sq 0).Ok bothPlacements.dev where
  depth := ⟨⟨4,rfl⟩,by decide,by decide⟩
  cq := ⟨0,by decide⟩
  count := by decide
  llq _ := by decide
  host := by decide

lemma bothPlacements_hostOk : (bothPlacements.dev.sq 1).Ok bothPlacements.dev where
  depth := ⟨⟨4,rfl⟩,by decide,by decide⟩
  cq := ⟨0,by decide⟩
  count := by decide
  llq := by decide
  host _ := by decide

lemma bothPlacements_llqHolds :
    LlqHolds bothPlacements 0 (bothPlacements.dev.sq 0) threeSlots where
  first j hj b hb := by
    interval_cases j
    · cases hb
      decide +kernel
    · cases hb
      decide +kernel
  rest k j hj b hb := by
    have hlt : 2 + k*8 + j < 3 := (List.getElem?_eq_some_iff.mp hb).1
    obtain ⟨rfl,rfl⟩ : k = 0 ∧ j = 0 := by omega
    cases hb
    decide +kernel

lemma bothPlacements_hostHolds : HostHolds bothPlacements (bothPlacements.dev.sq 1) threeSlots := by
  intro j b hb
  have hlt : j < 3 := (List.getElem?_eq_some_iff.mp hb).1
  interval_cases j
  · cases hb
    decide +kernel
  · cases hb
    decide +kernel
  · cases hb
    decide +kernel

theorem llqParse_eq_hostParse_three :
    enaTxParse bothPlacements 0 = enaTxParse bothPlacements 1 ∧
      ∃ p, enaTxParse bothPlacements 0 = .ok (some p) ∧
        enaTxPktEntries (bothPlacements.dev.sq 0) p.slots = .ok 2 := by
  obtain ⟨hsame,hentries⟩ := llqParse_eq_hostParse bothPlacements_llqOk bothPlacements_hostOk rfl
    rfl
    (by decide) (.inr ⟨by decide,_,rfl,by decide,by decide⟩) bothPlacements_llqHolds
    bothPlacements_hostHolds rfl rfl
  obtain ⟨r,hr,hsome⟩ := exists_of_okAnd (p := fun r => r.any fun p => p.slots == 3)
    (x := enaTxParse bothPlacements 0) (by decide +kernel)
  obtain ⟨p,rfl,hslots⟩ := Option.any_eq_true _ _ |>.mp hsome
  refine ⟨hsame,p,hr,?_⟩
  rw [hentries p hr,beq_iff_eq.mp hslots]
  rfl

end
end EnaDevice
