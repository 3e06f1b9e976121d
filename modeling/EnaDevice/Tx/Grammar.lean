import EnaDevice.Invariant.Safety
import EnaDevice.Lib.Bits

/-! The packets that `ena_tx_parse` takes are those of a grammar: an optional meta descriptor and up
to 17 data descriptors, of which the last one and no other says so. -/
namespace EnaDevice
open Bytes Result

/-- Slots that hold the data descriptors of a packet. -/
structure DataSlots (w : World) (i : SqIdx) (sq : EnaSq) (m k : ℕ) : Prop where
  nonempty : m < k
  posted : ∀ j, m ≤ j → j < k → sq.slotPos j < (sq.tail - sq.head).toNat
  data : ∀ j, m ≤ j → j < k → (w.txSlot i sq j).isMeta = false
  last : ∀ j, m ≤ j → j < k → ((w.txSlot i sq j).isLast = true ↔ j+1 = k)

/-- The first `k` slots of a queue are a packet, of which the first `m` are meta descriptors. -/
structure TxGrammar (w : World) (i : SqIdx) (sq : EnaSq) (m k : ℕ) : Prop where
  metas : m ≤ 1
  nonempty : m + 1 ≤ k
  max : k ≤ m + 17
  posted : ∀ j < k, sq.slotPos j < (sq.tail - sq.head).toNat
  metaDesc : m = 1 → (w.txSlot i sq 0).isMeta = true ∧ (w.txSlot i sq 0).extValid = true
  first : m = 0 → (w.txSlot i sq 0).isFirst = true
  data : ∀ j, m ≤ j → j < k → (w.txSlot i sq j).isMeta = false
  last : ∀ j, m ≤ j → j < k → ((w.txSlot i sq j).isLast = true ↔ j+1 = k)

/-- The packet that such slots are. -/
def txPktOf (w : World) (i : SqIdx) (sq : EnaSq) (m k : ℕ) : EnaTxPkt where
  desc := (List.range' m (k - m)).map (w.txSlot i sq)
  slots := k
  haveMeta := decide (m = 1)
  txMeta := if m = 1 then (w.txSlot i sq 0).readMeta else EnaTxMeta.zero

/-- What a meta descriptor says: a segment size of 14 bits in two parts, and the header fields. -/
structure MetaFields (d : EnaTxDesc) (m : EnaTxMeta) : Prop where
  mss : m.mss.toNat = d.lenCtrl.toNat/2^16 % 2^4*2^10 + d.buffAddrLo.toNat/2^22
  l3HdrLen : m.l3HdrLen.toNat = d.buffAddrLo.toNat % 2^8
  l3HdrOff : m.l3HdrOff.toNat = d.buffAddrLo.toNat/2^8 % 2^8
  l4HdrLenWords : m.l4HdrLenWords.toNat = d.buffAddrLo.toNat/2^16 % 2^6

/-- The parser knows which slots are posted, and reads each where it stands. -/
structure TxReadable (w : World) (i : SqIdx) (sq : EnaSq) : Prop where
  posted : ∀ slot avail, enaTxSlotPosted sq slot avail =
    .ok (decide (sq.slotPos slot < avail.toNat))
  read : ∀ slot, enaTxReadSlot w i sq slot = .ok (w.txSlot i sq slot)

section
variable {w : World} {i : SqIdx} {sq : EnaSq} {s : EnaState} {m k : ℕ}

lemma EnaSq.Ok.txReadable (h : sq.Ok s) (w : World) (i : SqIdx) : TxReadable w i sq :=
  ⟨h.txSlotPosted,h.txReadSlot w i⟩

/-- Where the slots of a queue are does not depend on how many are posted. -/
lemma EnaSq.Ok.txReadable_moved (h : sq.Ok s) (w : World) (i : SqIdx) (head tail : UInt16)
    (m : EnaTxMeta) :
    TxReadable w i { sq with head := head, tail := tail, txMeta := m } := by
  have hok : { sq with head := head, tail := head, txMeta := m }.Ok s := by
    refine ⟨h.depth,h.cq,?_,h.llq,h.host⟩
    change head - head ≤ sq.depth
    rw [UInt16.sub_self]
    exact UInt16.zero_le
  exact ⟨hok.txSlotPosted,hok.txReadSlot w i⟩

/-- A slot and the rest. -/
lemma dataSlots_iff : DataSlots w i sq m k ↔
    sq.slotPos m < (sq.tail - sq.head).toNat ∧ (w.txSlot i sq m).isMeta = false ∧
      if (w.txSlot i sq m).isLast then k = m+1 else DataSlots w i sq (m+1) k := by
  constructor
  · intro h
    refine ⟨h.posted m le_rfl h.nonempty,h.data m le_rfl h.nonempty,?_⟩
    have hlast := h.last m le_rfl h.nonempty
    split_ifs with hl
    · exact (hlast.mp hl).symm
    · have hne : m+1 ≠ k := fun he => hl (hlast.mpr he)
      have hlt := h.nonempty
      exact ⟨by omega,fun j hj => h.posted j (by omega),fun j hj => h.data j (by omega),
        fun j hj => h.last j (by omega)⟩
  · rintro ⟨hposted,hdata,hrest⟩
    split_ifs at hrest with hl
    · have honly : ∀ j, m ≤ j → j < k → j = m := fun j hj hk => by omega
      refine ⟨by omega,fun j hj hk => ?_,fun j hj hk => ?_,fun j hj hk => ?_⟩
      · rw [honly j hj hk]
        exact hposted
      · rw [honly j hj hk]
        exact hdata
      · rw [honly j hj hk]
        exact ⟨fun _ => hrest.symm,fun _ => hl⟩
    · have hlt := hrest.nonempty
      have hsplit : ∀ j, m ≤ j → j = m ∨ m+1 ≤ j := fun j hj => by omega
      refine ⟨by omega,fun j hj hk => ?_,fun j hj hk => ?_,fun j hj hk => ?_⟩
      · rcases hsplit j hj with rfl | hj
        · exact hposted
        · exact hrest.posted j hj hk
      · rcases hsplit j hj with rfl | hj
        · exact hdata
        · exact hrest.data j hj hk
      · rcases hsplit j hj with rfl | hj
        · exact ⟨fun h => absurd h hl,fun h => absurd h hlt.ne⟩
        · exact hrest.last j hj hk

/-- A run of data slots ends at its first LAST. -/
lemma DataSlots.unique {k' : ℕ} (h : DataSlots w i sq m k) (h' : DataSlots w i sq m k') :
    k = k' := by
  have hlt := h.nonempty
  have hlt' := h'.nonempty
  rcases Nat.lt_trichotomy k k' with hk | rfl | hk
  · have hlast := (h.last (k-1) (by omega) (by omega)).mpr (by omega)
    have hend := (h'.last (k-1) (by omega) (by omega)).mp hlast
    omega
  · rfl
  · have hlast := (h'.last (k'-1) (by omega) (by omega)).mpr (by omega)
    have hend := (h.last (k'-1) (by omega) (by omega)).mp hlast
    omega

lemma TxGrammar.dataSlots (h : TxGrammar w i sq m k) : DataSlots w i sq m k :=
  ⟨h.nonempty,fun j _ => h.posted j,h.data,h.last⟩

/-- Whether the first slot is a meta descriptor decides on the rest. -/
lemma txGrammar_iff : TxGrammar w i sq m k ↔
    m ≤ 1 ∧ k ≤ m + 17 ∧ DataSlots w i sq m k ∧
      (m = 1 → sq.slotPos 0 < (sq.tail - sq.head).toNat ∧ (w.txSlot i sq 0).isMeta = true ∧
        (w.txSlot i sq 0).extValid = true) ∧
      (m = 0 → (w.txSlot i sq 0).isFirst = true) := by
  constructor
  · intro h
    have hlt := h.nonempty
    exact ⟨h.metas,h.max,h.dataSlots,fun hm => ⟨h.posted 0 (by omega),h.metaDesc hm⟩,h.first⟩
  · rintro ⟨hm,hmax,hdata,hmeta,hfirst⟩
    refine ⟨hm,hdata.nonempty,hmax,fun j hj => ?_,fun h => (hmeta h).2,hfirst,hdata.data,hdata.last⟩
    by_cases hmj : m ≤ j
    · exact hdata.posted j hmj hj
    · obtain ⟨rfl,rfl⟩ : m = 1 ∧ j = 0 := by omega
      exact (hmeta rfl).1

lemma TxGrammar.unique {m' k' : ℕ} (h : TxGrammar w i sq m k) (h' : TxGrammar w i sq m' k') :
    m = m' ∧ k = k' := by
  have hm := h.metas
  have hm' := h'.metas
  have hlt := h.nonempty
  have hlt' := h'.nonempty
  have hsame : m = m' := by
    rcases Nat.le_one_iff_eq_zero_or_eq_one.mp hm with rfl | rfl
    · by_contra hne
      exact Bool.false_ne_true ((h.data 0 le_rfl hlt).symm.trans (h'.metaDesc (by omega)).1)
    · by_contra hne
      exact Bool.false_ne_true ((h'.data 0 (by omega) (by omega)).symm.trans (h.metaDesc rfl).1)
  subst hsame
  exact ⟨rfl,h.dataSlots.unique h'.dataSlots⟩

/-- What the loop has to return, when it holds `acc` at a data slot. -/
def Collects (w : World) (i : SqIdx) (sq : EnaSq) (m slot : ℕ) (acc : EnaTxPkt)
    (o : Option EnaTxPkt) : Prop :=
  ∀ p, o = some p ↔ ∃ k, k ≤ m + 17 ∧ DataSlots w i sq slot k ∧
    p = { acc with
      desc := acc.desc ++ (List.range' slot (k - slot)).map (w.txSlot i sq), slots := k }

lemma Collects.none {slot : ℕ} {acc : EnaTxPkt}
    (h : ∀ k, k ≤ m + 17 → ¬ DataSlots w i sq slot k) : Collects w i sq m slot acc none := by
  intro p
  constructor
  · intro he
    cases he
  · rintro ⟨k,hk,hdata,-⟩
    exact absurd hdata (h k hk)

/-- A descriptor without LAST leaves the packet to the slots behind it. -/
lemma Collects.cons {slot : ℕ} {acc : EnaTxPkt} {o : Option EnaTxPkt}
    (hposted : sq.slotPos slot < (sq.tail - sq.head).toNat)
    (hdata : (w.txSlot i sq slot).isMeta = false) (hlast : ¬ (w.txSlot i sq slot).isLast = true)
    (h : Collects w i sq m (slot+1) { acc with desc := acc.desc ++ [w.txSlot i sq slot] } o) :
    Collects w i sq m slot acc o := by
  intro p
  rw [h p]
  refine exists_congr fun k => and_congr_right fun _ => ?_
  have hiff : DataSlots w i sq slot k ↔ _ := dataSlots_iff
  rw [if_neg hlast] at hiff
  have hslots : DataSlots w i sq slot k ↔ DataSlots w i sq (slot+1) k :=
    hiff.trans ⟨fun h => h.2.2,fun h => ⟨hposted,hdata,h⟩⟩
  rw [hslots]
  refine and_congr_right fun hrest => ?_
  have hlt := hrest.nonempty
  rw [show k - slot = (k - (slot+1)) + 1 by omega,List.range'_succ,List.map_cons,List.append_assoc]
  rfl

/-- From a data slot on, the loop takes the slots up to the first LAST. -/
lemma TxReadable.parseData (h : TxReadable w i sq) {E : Fault → Prop} (n slot : ℕ) (acc : EnaTxPkt)
    (hn : n + slot = 18) (hslot : slot = m + acc.desc.length) (hlen : acc.desc.length ≤ 17)
    (hm : m ≤ 1) (hmeta : acc.haveMeta = decide (m = 1))
    (hstart : slot = 0 → (w.txSlot i sq 0).isMeta = false ∧ (w.txSlot i sq 0).isFirst = true) :
    Holds E (Collects w i sq m slot acc) (enaTxParseFrom w i sq n slot acc) := by
  induction n generalizing slot acc with
  | zero =>
    refine holds_pure (.none fun k hk hdata => ?_)
    have hlt := hdata.nonempty
    omega
  | succ n ih =>
    unfold enaTxParseFrom
    simp only [h.posted, h.read, ok_bind]
    refine holds_ite (fun hno => holds_pure (.none fun k _ hdata => ?_)) fun hyes => ?_
    · exact absurd (dataSlots_iff.mp hdata).1 (by simpa using hno)
    have hposted : sq.slotPos slot < (sq.tail - sq.head).toNat := by simpa using hyes
    refine holds_ite (fun hmd => ?_) fun hmd => ?_
    · -- a meta descriptor is refused behind the first slot
      have hne : slot ≠ 0 := by
        rintro rfl
        exact Bool.false_ne_true ((hstart rfl).1.symm.trans hmd)
      rw [if_pos (.inl hne)]
      refine holds_pure (.none fun k _ hdata => ?_)
      exact Bool.false_ne_true ((dataSlots_iff.mp hdata).2.1.symm.trans hmd)
    have hdesc : (w.txSlot i sq slot).isMeta = false := by simpa using hmd
    refine holds_ite (fun hfirst => ?_) fun _ => ?_
    · obtain ⟨hnil,hno,hnot⟩ := hfirst
      rw [hmeta] at hno
      have hzero : slot = 0 := by
        rw [Bool.not_eq_true',decide_eq_false_iff_not] at hno
        omega
      subst hzero
      rw [(hstart rfl).2] at hnot
      exact absurd hnot (by decide)
    refine holds_ite (fun hfull => holds_pure (.none fun k hk hdata => ?_)) fun hroom => ?_
    · have hlt := hdata.nonempty
      have hlen17 : acc.desc.length = 17 := hfull
      omega
    have hlt : acc.desc.length < 17 := lt_of_le_of_ne hlen hroom
    rw [decide_eq_true (show acc.desc.length < enaMaxPktDescs from hlt),check_true,ok_bind]
    refine holds_ite (fun hlast => holds_pure ?_) fun hlast => ?_
    · intro p
      constructor
      · rintro ⟨⟩
        refine ⟨slot+1,by omega,dataSlots_iff.mpr ⟨hposted,hdesc,?_⟩,?_⟩
        · rw [if_pos hlast]
        · rw [Nat.add_sub_cancel_left]
          rfl
      · rintro ⟨k,-,hdata,rfl⟩
        have hend := (dataSlots_iff.mp hdata).2.2
        rw [if_pos hlast] at hend
        subst hend
        rw [Nat.add_sub_cancel_left]
        rfl
    · refine holds_mono (ih (slot+1) { acc with desc := _ } (by omega) ?_ ?_ hmeta ?_) fun o ho =>
        ho.cons hposted hdesc hlast
      · rw [List.length_append,List.length_singleton]
        omega
      · rw [List.length_append,List.length_singleton]
        exact hlt
      · intro hz
        omega

/-- The parser takes the packets of the grammar, and returns what is in their slots. -/
theorem TxReadable.parse_iff (h : TxReadable w i sq) {E : Fault → Prop} :
    Holds E (fun o => ∀ p, o = some p ↔ ∃ m k, TxGrammar w i sq m k ∧ p = txPktOf w i sq m k)
      (enaTxParseFrom w i sq 18 0 EnaTxPkt.zero) := by
  have hnone : (∀ m k, ¬ TxGrammar w i sq m k) → ∀ p, none = some p ↔
      ∃ m k, TxGrammar w i sq m k ∧ p = txPktOf w i sq m k := by
    intro hno p
    constructor
    · intro he
      cases he
    · rintro ⟨m,k,hg,-⟩
      exact absurd hg (hno m k)
  by_cases hposted : sq.slotPos 0 < (sq.tail - sq.head).toNat
  · cases hmd : (w.txSlot i sq 0).isMeta with
    | true =>
      have hone : ∀ m k, TxGrammar w i sq m k → m = 1 := by
        intro m k hg
        by_contra hne
        have hm := hg.metas
        have hlt := hg.nonempty
        exact Bool.false_ne_true ((hg.data 0 (by omega) (by omega)).symm.trans hmd)
      unfold enaTxParseFrom
      simp only [h.posted, h.read, ok_bind, hposted, decide_true, hmd, if_true, Bool.not_true,
        Bool.false_eq_true, if_false]
      refine holds_ite (fun hbad => holds_pure (hnone fun m k hg => ?_)) fun hgood => ?_
      · have hext := (hg.metaDesc (hone m k hg)).2
        rcases hbad with hz | hno
        · exact hz rfl
        · rw [hext] at hno
          cases hno
      · have hext : (w.txSlot i sq 0).extValid = true := by simpa using hgood
        refine holds_mono (h.parseData (m := 1) 17 1
          ⟨[],0,true,(w.txSlot i sq 0).readMeta⟩ rfl rfl (Nat.zero_le _) le_rfl rfl
          fun hz => absurd hz one_ne_zero) fun o ho p => ?_
        rw [ho p]
        constructor
        · rintro ⟨k,hk,hdata,rfl⟩
          refine ⟨1,k,txGrammar_iff.mpr ⟨le_rfl,hk,hdata,fun _ => ⟨hposted,hmd,hext⟩,fun hz => ?_⟩,
            rfl⟩
          cases hz
        · rintro ⟨m,k,hg,rfl⟩
          obtain rfl := hone m k hg
          exact ⟨k,hg.max,hg.dataSlots,rfl⟩
    | false =>
      have hzero : ∀ m k, TxGrammar w i sq m k → m = 0 := by
        intro m k hg
        by_contra hne
        have hm := hg.metas
        exact Bool.false_ne_true (hmd.symm.trans (hg.metaDesc (by omega)).1)
      cases hfirst : (w.txSlot i sq 0).isFirst with
      | true =>
        refine holds_mono (h.parseData (m := 0) 18 0 EnaTxPkt.zero rfl rfl (Nat.zero_le _)
          zero_le_one rfl fun _ => ⟨hmd,hfirst⟩) fun o ho p => ?_
        rw [ho p]
        constructor
        · rintro ⟨k,hk,hdata,rfl⟩
          refine ⟨0,k,txGrammar_iff.mpr ⟨zero_le_one,hk,hdata,fun hz => ?_,fun _ => hfirst⟩,rfl⟩
          cases hz
        · rintro ⟨m,k,hg,rfl⟩
          obtain rfl := hzero m k hg
          exact ⟨k,hg.max,hg.dataSlots,rfl⟩
      | false =>
        unfold enaTxParseFrom
        simp only [h.posted, h.read, ok_bind, hposted, decide_true, hmd, Bool.not_true,
          Bool.false_eq_true, if_false]
        rw [if_pos ⟨rfl,rfl,by rw [hfirst]; rfl⟩]
        refine holds_pure (hnone fun m k hg => ?_)
        exact Bool.false_ne_true (hfirst.symm.trans (hg.first (hzero m k hg)))
  · unfold enaTxParseFrom
    simp only [h.posted, ok_bind, decide_eq_false hposted, Bool.not_false, if_true]
    refine holds_pure (hnone fun m k hg => hposted (hg.posted 0 ?_))
    have hlt := hg.nonempty
    omega

lemma EnaTxDesc.readMeta_fields (d : EnaTxDesc) : MetaFields d d.readMeta := by
  have hlt := d.buffAddrLo.toNat_lt
  refine ⟨?_,?_,?_,?_⟩
  · have hlo := Bits.field_toNat d.buffAddrLo (show 10 + 22 ≤ 32 by norm_num) (by norm_num)
    have hhi := Bits.field_toNat d.lenCtrl (show 4 + 16 ≤ 32 by norm_num) (by norm_num)
    change (((d.buffAddrLo &&& UInt32.ofNat ((2^10-1)*2^22)) >>> UInt32.ofNat 22) |||
      (((d.lenCtrl &&& UInt32.ofNat ((2^4-1)*2^16)) >>> UInt32.ofNat 16) <<< 10)).toUInt16.toNat = _
    rw [UInt32.toNat_toUInt16,UInt32.toNat_or,UInt32.toNat_shiftLeft,hlo,hhi]
    change (d.buffAddrLo.toNat/2^22 % 2^10 ||| (d.lenCtrl.toNat/2^16 % 2^4) <<< 10 % 2^32) % 2^16 =
      _
    have hlow : d.buffAddrLo.toNat/2^22 % 2^10 = d.buffAddrLo.toNat/2^22 :=
      Nat.mod_eq_of_lt (by omega)
    have hhigh : d.lenCtrl.toNat/2^16 % 2^4 < 2^4 := Nat.mod_lt _ (by norm_num)
    have hjoin := Bits.join (Nat.mod_lt (d.buffAddrLo.toNat/2^22) (Nat.two_pow_pos 10))
      (show d.lenCtrl.toNat/2^16 % 2^4*2^10 < 2^32 by omega)
    rw [hjoin,hlow]
    omega
  · have hfield := Bits.low_toNat d.buffAddrLo (show 8 ≤ 32 by norm_num)
    have hmask : genmask 7 0 = UInt32.ofNat (2^8-1) := rfl
    change (d.buffAddrLo &&& genmask 7 0).toUInt8.toNat = _
    rw [hmask,UInt32.toNat_toUInt8,hfield]
    omega
  · have hfield := Bits.field_toNat d.buffAddrLo (show 8 + 8 ≤ 32 by norm_num) (by norm_num)
    have hmask : genmask 15 8 = UInt32.ofNat ((2^8-1)*2^8) := rfl
    change ((d.buffAddrLo &&& genmask 15 8) >>> UInt32.ofNat 8).toUInt8.toNat = _
    rw [hmask,UInt32.toNat_toUInt8,hfield]
    omega
  · have hfield := Bits.field_toNat d.buffAddrLo (show 6 + 16 ≤ 32 by norm_num) (by norm_num)
    have hmask : genmask 21 16 = UInt32.ofNat ((2^6-1)*2^16) := rfl
    change ((d.buffAddrLo &&& genmask 21 16) >>> UInt32.ofNat 16).toUInt8.toNat = _
    rw [hmask,UInt32.toNat_toUInt8,hfield]
    omega

end

section
variable {net : Net} {w₀ w : World} {i : SqIdx} {head tail : UInt16} {m₀ : EnaTxMeta}

/-- `ena_tx_parse` accepts the packets of the grammar and nothing else, in any ring with any
counters. The packet is unique; 17 buffers and a meta descriptor are accepted, 18 data descriptors
are not. -/
theorem txParse_grammar (h : Reachable net w₀) (hu : (w₀.dev.sq i).used = true)
    (hsq : w.dev.sq i = { w₀.dev.sq i with head := head, tail := tail, txMeta := m₀ }) :
    (∃ o, enaTxParse w i = .ok o) ∧
    (∀ p, enaTxParse w i = .ok (some p) ↔
      ∃ m k, TxGrammar w i (w.dev.sq i) m k ∧ p = txPktOf w i (w.dev.sq i) m k) ∧
    (∀ m k m' k', TxGrammar w i (w.dev.sq i) m k → TxGrammar w i (w.dev.sq i) m' k' → m = m' ∧
    k = k') ∧
    (∀ p, enaTxParse w i = .ok (some p) → p.slots = p.haveMeta.toNat + p.desc.length ∧
      (p.haveMeta = true → MetaFields (w.txSlot i (w.dev.sq i) 0) p.txMeta)) ∧
    (TxGrammar w i (w.dev.sq i) 1 18 →
      ∃ p, enaTxParse w i = .ok (some p) ∧ p.desc.length = 17 ∧ p.haveMeta = true) ∧
    ∀ m ≤ 1, (m = 1 → (w.txSlot i (w.dev.sq i) 0).isMeta = true) →
      (∀ j, m ≤ j → j < m + 18 → (w.txSlot i (w.dev.sq i) j).isMeta = false) →
      (∀ j, m ≤ j → j < m + 17 → (w.txSlot i (w.dev.sq i) j).isLast = false) →
      enaTxParse w i = .ok none := by
  have hreads : TxReadable w i (w.dev.sq i) := by
    rw [hsq]
    exact (h.tables.1.sq i hu).txReadable_moved w i head tail m₀
  obtain ⟨o,ho,hiff⟩ := hreads.parse_iff.exists_ok
  have hparse : enaTxParse w i = .ok o := ho
  have hsome : ∀ p, enaTxParse w i = .ok (some p) ↔
      ∃ m k, TxGrammar w i (w.dev.sq i) m k ∧ p = txPktOf w i (w.dev.sq i) m k := by
    intro p
    rw [hparse,← hiff p]
    exact ⟨fun he => Except.ok.inj he,fun he => by rw [he]⟩
  refine ⟨⟨o,hparse⟩,hsome,fun m k m' k' hg hg' => hg.unique hg',?_,?_,?_⟩
  · intro p hp
    obtain ⟨m,k,hg,rfl⟩ := (hsome p).mp hp
    have hm := hg.metas
    have hlt := hg.nonempty
    refine ⟨?_,fun hhave => ?_⟩
    · have hlen : (txPktOf w i (w.dev.sq i) m k).desc.length = k - m := by simp [txPktOf]
      rw [hlen]
      change k = (decide (m = 1)).toNat + (k - m)
      rcases Nat.le_one_iff_eq_zero_or_eq_one.mp hm with rfl | rfl
      · change k = 0 + (k - 0)
        omega
      · change k = 1 + (k - 1)
        omega
    · have hone : m = 1 := of_decide_eq_true hhave
      change MetaFields _ (if m = 1 then _ else _)
      rw [if_pos hone]
      exact EnaTxDesc.readMeta_fields _
  · intro hg
    refine ⟨_,(hsome _).mpr ⟨1,18,hg,rfl⟩,?_,rfl⟩
    simp [txPktOf]
  · intro m hm hmeta hdata hlast
    cases o with
    | none => exact hparse
    | some p =>
      obtain ⟨m',k,hg,-⟩ := (hiff p).mp rfl
      have hm' := hg.metas
      have hlt := hg.nonempty
      have hmax := hg.max
      have hsame : m' = m := by
        rcases Nat.le_one_iff_eq_zero_or_eq_one.mp hm with rfl | rfl
        · by_contra hne
          exact Bool.false_ne_true ((hdata 0 le_rfl (by omega)).symm.trans
            (hg.metaDesc (by omega)).1)
        · by_contra hne
          exact Bool.false_ne_true ((hg.data 0 (by omega) (by omega)).symm.trans (hmeta rfl))
      subst hsame
      have hend := (hg.last (k-1) (by omega) (by omega)).mpr (by omega)
      exact absurd ((hlast (k-1) (by omega) (by omega)).symm.trans hend) Bool.false_ne_true

/-- A meta descriptor with a segment size of 1460, and the descriptor of a buffer. -/
def metaAndBuffer : Bytes :=
  ofLe32 0x00814000 ++ ofLe32 0 ++ ofLe32 0x6d050e14 ++ ofLe32 0 ++
    ofLe32 0x0800000e ++ ofLe32 0 ++ ofLe32 0x5000 ++ ofLe32 0

/-- The two slots before the counters wrap are a packet with a meta descriptor. -/
theorem txParse_grammar_meta :
    ∃ w₀ w p m k, run Net.nonIp freshWorld (driverSetup [createCqCmd,createSqCmd sqIdentityTx]
        [(0x40e0,metaAndBuffer)]) = .ok w₀ ∧
      w = w₀.setSq 0 { w₀.dev.sq 0 with head := 65534, tail := 0 } ∧
      enaTxParse w 0 = .ok (some p) ∧ p.txMeta.mss = 1460 ∧ TxGrammar w 0 (w.dev.sq 0) m k ∧
      p = txPktOf w 0 (w.dev.sq 0) m k ∧ MetaFields (w.txSlot 0 (w.dev.sq 0) 0) p.txMeta := by
  obtain ⟨w₀,hrun,hw⟩ := exists_of_okAnd
    (p := fun w : World => (w.dev.sq 0).used && okAnd (fun o : Option EnaTxPkt =>
      match o with
      | some p => p.haveMeta && p.txMeta.mss == 1460
      | none => false) (enaTxParse (w.setSq 0 { w.dev.sq 0 with head := 65534, tail := 0 }) 0))
    (x := run Net.nonIp freshWorld (driverSetup [createCqCmd,createSqCmd sqIdentityTx]
      [(0x40e0,metaAndBuffer)])) (by decide +kernel)
  rw [Bool.and_eq_true] at hw
  obtain ⟨o,hparse,ho⟩ := exists_of_okAnd hw.2
  cases o with
  | none => cases ho
  | some p =>
    simp only [Bool.and_eq_true, beq_iff_eq] at ho
    have hmain := txParse_grammar (w := w₀.setSq 0 { w₀.dev.sq 0 with head := 65534, tail := 0 })
      (reachable_of_run hrun) hw.1 (World.setSq_sq _ _ _)
    obtain ⟨m,k,hg,hp⟩ := (hmain.2.1 p).mp hparse
    exact ⟨w₀,_,p,m,k,hrun,rfl,hparse,ho.2,hg,hp,(hmain.2.2.2.1 p hparse).2 ho.1⟩

end
end EnaDevice
