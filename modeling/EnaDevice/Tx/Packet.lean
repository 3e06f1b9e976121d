import EnaDevice.Tx.Grammar

/-! Packets as a driver posts them: what their descriptors say, where the descriptors stand in a
host ring or an LLQ ring, and that `ena_tx_parse` reads the packet back. -/
namespace EnaDevice
open Bytes Result

/-- A buffer of a packet: its address and its bytes. -/
structure TxBuf where
  addr : UInt64
  data : Bytes
  deriving DecidableEq

/-- A packet without offloads. -/
structure TxPacket where
  /-- a meta descriptor comes first -/
  haveMeta : Bool
  reqId : UInt16
  compReq : Bool
  /-- the bytes pushed with the descriptors -/
  header : Bytes
  bufs : List TxBuf
  deriving DecidableEq

/-- A meta descriptor with `ext_valid`. -/
structure EncodesMeta (d : EnaTxDesc) : Prop where
  metaDesc : d.lenCtrl.toNat.testBit 23 = true
  extValid : d.lenCtrl.toNat.testBit 14 = true

/-- The descriptor of a buffer, with 16 bits of length and 48 bits of address. -/
structure EncodesBuf (d : EnaTxDesc) (b : TxBuf) (last : Prop) : Prop where
  metaDesc : d.lenCtrl.toNat.testBit 23 = false
  last : d.lenCtrl.toNat.testBit 27 = true ↔ last
  length : d.lenCtrl.toNat % 2^16 = b.data.length
  addrLo : d.buffAddrLo.toNat = b.addr.toNat % 2^32
  addrHi : d.buffAddrHiHdrSz.toNat % 2^16 = b.addr.toNat/2^32

/-- What the first data descriptor says about its packet; no offload is asked for. -/
structure EncodesPacket (d : EnaTxDesc) (p : TxPacket) : Prop where
  first : p.haveMeta = false → d.lenCtrl.toNat.testBit 26 = true
  compReq : d.lenCtrl.toNat.testBit 28 = p.compReq
  reqIdLo : d.metaCtrl.toNat/2^22 = p.reqId.toNat % 2^10
  reqIdHi : d.lenCtrl.toNat/2^16 % 2^6 = p.reqId.toNat/2^10
  hdrLen : d.buffAddrHiHdrSz.toNat/2^24 = p.header.length
  tso : d.metaCtrl.toNat.testBit 7 = false
  l3Csum : d.metaCtrl.toNat.testBit 13 = false
  l4Csum : d.metaCtrl.toNat.testBit 14 = false

instance (d : EnaTxDesc) : Decidable (EncodesMeta d) :=
  decidable_of_iff (d.lenCtrl.toNat.testBit 23 = true ∧ d.lenCtrl.toNat.testBit 14 = true)
    ⟨fun ⟨hm,he⟩ => ⟨hm,he⟩,fun h => ⟨h.metaDesc,h.extValid⟩⟩

instance (d : EnaTxDesc) (b : TxBuf) (last : Prop) [Decidable last] :
    Decidable (EncodesBuf d b last) :=
  decidable_of_iff (d.lenCtrl.toNat.testBit 23 = false ∧
  (d.lenCtrl.toNat.testBit 27 = true ↔ last) ∧
      d.lenCtrl.toNat % 2^16 = b.data.length ∧ d.buffAddrLo.toNat = b.addr.toNat % 2^32 ∧
      d.buffAddrHiHdrSz.toNat % 2^16 = b.addr.toNat/2^32)
    ⟨fun ⟨hm,hlast,hlen,hlo,hhi⟩ => ⟨hm,hlast,hlen,hlo,hhi⟩,
      fun h => ⟨h.metaDesc,h.last,h.length,h.addrLo,h.addrHi⟩⟩

instance (d : EnaTxDesc) (p : TxPacket) : Decidable (EncodesPacket d p) :=
  decidable_of_iff ((p.haveMeta = false → d.lenCtrl.toNat.testBit 26 = true) ∧
      d.lenCtrl.toNat.testBit 28 = p.compReq ∧ d.metaCtrl.toNat/2^22 = p.reqId.toNat % 2^10 ∧
      d.lenCtrl.toNat/2^16 % 2^6 = p.reqId.toNat/2^10 ∧
      d.buffAddrHiHdrSz.toNat/2^24 = p.header.length ∧ d.metaCtrl.toNat.testBit 7 = false ∧
      d.metaCtrl.toNat.testBit 13 = false ∧ d.metaCtrl.toNat.testBit 14 = false)
    ⟨fun ⟨hfirst,hcomp,hlo,hhi,hhdr,htso,hl3,hl4⟩ => ⟨hfirst,hcomp,hlo,hhi,hhdr,htso,hl3,hl4⟩,
      fun h => ⟨h.first,h.compReq,h.reqIdLo,h.reqIdHi,h.hdrLen,h.tso,h.l3Csum,h.l4Csum⟩⟩

namespace EncodesMeta
variable {d : EnaTxDesc}

lemma isMeta (h : EncodesMeta d) : d.isMeta = true :=
  (Bits.bit_ne_zero d.lenCtrl (by norm_num)).trans h.metaDesc

lemma isExtValid (h : EncodesMeta d) : d.extValid = true :=
  (Bits.bit_ne_zero d.lenCtrl (by norm_num)).trans h.extValid

end EncodesMeta

namespace EncodesBuf
variable {d : EnaTxDesc} {b : TxBuf} {last : Prop}

lemma isMeta (h : EncodesBuf d b last) : d.isMeta = false :=
  (Bits.bit_ne_zero d.lenCtrl (by norm_num)).trans h.metaDesc

lemma isLast (h : EncodesBuf d b last) : d.isLast = true ↔ last := by
  rw [EnaTxDesc.isLast,bit,Bits.bit_ne_zero d.lenCtrl (by norm_num)]
  exact h.last

lemma len (h : EncodesBuf d b last) : d.len = b.data.length := by
  have hlow := Bits.low_toNat d.lenCtrl (show 16 ≤ 32 by norm_num)
  exact hlow.trans h.length

lemma addr (h : EncodesBuf d b last) : d.addr = b.addr := by
  have hhi := (Bits.low_toNat d.buffAddrHiHdrSz (show 16 ≤ 32 by norm_num)).trans h.addrHi
  have hmask : d.buffAddrHiHdrSz &&& genmask 15 0 = d.buffAddrHiHdrSz &&& UInt32.ofNat (2^16-1) :=
    rfl
  apply UInt64.toNat_inj.mp
  rw [EnaTxDesc.addr,hmask,UInt64.toNat_or,UInt64.toNat_shiftLeft,UInt32.toNat_toUInt64,
    UInt32.toNat_toUInt64,hhi,h.addrLo]
  exact Bits.join_cut b.addr.toNat_lt

end EncodesBuf

namespace EncodesPacket
variable {d : EnaTxDesc} {p : TxPacket}

lemma isFirst (h : EncodesPacket d p) (hmeta : p.haveMeta = false) : d.isFirst = true :=
  (Bits.bit_ne_zero d.lenCtrl (by norm_num)).trans (h.first hmeta)

lemma isCompReq (h : EncodesPacket d p) : d.compReq = p.compReq :=
  (Bits.bit_ne_zero d.lenCtrl (by norm_num)).trans h.compReq

lemma hdrLen_eq (h : EncodesPacket d p) : d.hdrLen = p.header.length := by
  have hfield := Bits.field_toNat d.buffAddrHiHdrSz (show 8 + 24 ≤ 32 by norm_num) (by norm_num)
  have hlt := d.buffAddrHiHdrSz.toNat_lt
  rw [← h.hdrLen]
  refine hfield.trans (Nat.mod_eq_of_lt ?_)
  omega

/-- The two parts of the request id. -/
lemma reqId_eq (h : EncodesPacket d p) : d.reqId = p.reqId := by
  have hlo := Bits.field_toNat d.metaCtrl (show 10 + 22 ≤ 32 by norm_num) (by norm_num)
  have hhi := Bits.field_toNat d.lenCtrl (show 6 + 16 ≤ 32 by norm_num) (by norm_num)
  rw [h.reqIdLo,Nat.mod_mod] at hlo
  rw [h.reqIdHi] at hhi
  have hlt := p.reqId.toNat_lt
  apply UInt16.toNat_inj.mp
  change (((d.metaCtrl &&& UInt32.ofNat ((2^10-1)*2^22)) >>> UInt32.ofNat 22) |||
    (((d.lenCtrl &&& UInt32.ofNat ((2^6-1)*2^16)) >>> UInt32.ofNat 16) <<< 10)).toUInt16.toNat = _
  rw [UInt32.toNat_toUInt16,UInt32.toNat_or,UInt32.toNat_shiftLeft,hlo,hhi]
  change (p.reqId.toNat % 2^10 ||| (p.reqId.toNat/2^10) <<< 10 % 2^32) % 2^16 = _
  rw [Bits.join_cut (hlt.trans (by norm_num)),Nat.mod_eq_of_lt hlt]

lemma offloads (h : EncodesPacket d p) :
    d.metaCtrl &&& (txTsoEn ||| txL3CsumEn ||| txL4CsumEn) = 0 := by
  have hbit : ∀ n < 32, d.metaCtrl.toNat.testBit n = false → bit n &&& d.metaCtrl = 0 := by
    intro n hn hclear
    have hne := Bits.bit_ne_zero d.metaCtrl hn
    rw [hclear,bne_eq_false_iff_eq] at hne
    rw [UInt32.and_comm]
    exact hne
  rw [UInt32.and_comm,Bits.or_and,Bits.or_and,hbit 7 (by norm_num) h.tso,
    hbit 13 (by norm_num) h.l3Csum,hbit 14 (by norm_num) h.l4Csum]
  rfl

end EncodesPacket

/-- The queue with other counters and another cached meta descriptor. -/
def EnaSq.moved (q : EnaSq) (head tail : UInt16) (m : EnaTxMeta) : EnaSq :=
  { q with head := head, tail := tail, txMeta := m }

/-- Bytes of an LLQ ring, at an offset of an entry. -/
def llqBytes (llq : ℕ → UInt8) (i : SqIdx) (q : EnaSq) (entry off len : ℕ) : Bytes :=
  List.ofFn fun j : Fin len =>
    llq (i.val*enaLlqQueueBytes + (entry % q.depth.toNat*q.entrySize.toNat + off) + j)

/-- Each slot of an LLQ packet is one of the two in its first entry or one of those in a later
one. -/
lemma llqSlot_cases {q : EnaSq} {s : EnaState} {llq : ℕ → UInt8} {i : SqIdx} {head : ℕ}
    {Q : ℕ → Bytes → Prop} (hok : q.Ok s) (hl : q.llq = true)
    (first : ∀ j < 2, Q j (llqBytes llq i q head (16*j) 16))
    (rest : ∀ k j, j < q.entrySize.toNat/16 → Q (2 + k*(q.entrySize.toNat/16) + j)
      (llqBytes llq i q (head + (1 + k)) (16*j) 16)) (j : ℕ) :
    Q j (llqBytes llq i q (head + q.llqLine j) (q.llqOff j) 16) := by
  unfold EnaSq.llqLine EnaSq.llqOff
  simp only [enaLlqDescsBeforeHeader, EnaTxDesc.size]
  split_ifs with hfirst
  · rw [Nat.mul_comm]
    exact first j hfirst
  · have hper : 0 < q.entrySize.toNat/16 := by
      rcases hok.entrySize_cases hl with he | he <;> rw [he] <;> norm_num
    have hsplit := Nat.div_add_mod (j - 2) (q.entrySize.toNat/16)
    have hslot : 2 + (j - 2)/(q.entrySize.toNat/16)*(q.entrySize.toNat/16) +
        (j - 2) % (q.entrySize.toNat/16) = j := by
      rw [Nat.mul_comm]
      omega
    have hrest := rest ((j - 2)/(q.entrySize.toNat/16)) _ (Nat.mod_lt (j - 2) hper)
    rw [hslot,Nat.mul_comm 16] at hrest
    exact hrest

/-- The number of LLQ entries that cover some slots. -/
def llqCover (q : EnaSq) (n : ℕ) : ℕ :=
  1 + (n - 2 + (q.entrySize.toNat/16 - 1))/(q.entrySize.toNat/16)

/-- The entries that cover some slots have all of them, and the last one has the last slot. -/
lemma llqCover_eq {sq : EnaSq} {s : EnaState} (hok : sq.Ok s) (hl : sq.llq = true) {n : ℕ}
    (hn : 0 < n) :
    sq.slotPos (n - 1) + 1 = llqCover sq n := by
  unfold EnaSq.slotPos llqCover EnaSq.llqLine
  simp only [enaLlqDescsBeforeHeader, EnaTxDesc.size]
  rw [if_pos hl]
  rcases hok.entrySize_cases hl with he | he <;> rw [he] <;> split_ifs <;> omega

namespace TxPacket

/-- The bytes that go out: the pushed header, then the buffers. -/
def frame (p : TxPacket) : Bytes := p.header ++ (p.bufs.map TxBuf.data).flatten

def metaSlots (p : TxPacket) : ℕ := p.haveMeta.toNat

/-- Descriptor slots: the meta descriptor and one for each buffer. -/
def slots (p : TxPacket) : ℕ := p.metaSlots + p.bufs.length

/-- The descriptor in a slot says what the packet has there. -/
structure Encodes (p : TxPacket) (slot : ℕ) (d : EnaTxDesc) : Prop where
  metaDesc : slot < p.metaSlots → EncodesMeta d
  buf : ∀ k b, slot = p.metaSlots + k → p.bufs[k]? = some b → EncodesBuf d b (k+1 = p.bufs.length)
  first : slot = p.metaSlots → EncodesPacket d p

/-- The check of one slot. -/
def encodesAt (p : TxPacket) (slot : ℕ) (d : EnaTxDesc) : Bool :=
  if slot < p.metaSlots then decide (EncodesMeta d)
  else (p.bufs[slot - p.metaSlots]?).all (fun b =>
      decide (EncodesBuf d b (slot - p.metaSlots + 1 = p.bufs.length))) &&
    (slot != p.metaSlots || decide (EncodesPacket d p))

lemma Encodes.of_encodesAt {p : TxPacket} {slot : ℕ} {d : EnaTxDesc}
    (h : p.encodesAt slot d = true) :
    p.Encodes slot d := by
  unfold encodesAt at h
  split_ifs at h with hm
  · exact ⟨fun _ => of_decide_eq_true h,fun _ _ hk => absurd hm (by omega),
      fun hf => absurd hm (by omega)⟩
  · rw [Bool.and_eq_true] at h
    refine ⟨fun hlt => absurd hlt hm,?_,?_⟩
    · rintro k b rfl hb
      have hbuf := h.1
      rw [Nat.add_sub_cancel_left,hb] at hbuf
      exact of_decide_eq_true hbuf
    · rintro rfl
      simpa using h.2

/-- Ring entries that the packet takes. -/
def entries (p : TxPacket) (q : EnaSq) : ℕ :=
  if q.llq then 1 + (p.slots - 2 + (q.entrySize.toNat/16 - 1))/(q.entrySize.toNat/16) else p.slots

/-- In an LLQ ring the first entry has two slots and the header, the others have slots only. -/
structure PlacedLlq (p : TxPacket) (q : EnaSq) (i : SqIdx) (head : UInt16) (llq : ℕ → UInt8) :
    Prop where
  first : ∀ j < 2, j < p.slots →
    p.Encodes j (.ofBytes (llqBytes llq i q head.toNat (16*j) 16))
  rest : ∀ k j, j < q.entrySize.toNat/16 → 2 + k*(q.entrySize.toNat/16) + j < p.slots →
    p.Encodes (2 + k*(q.entrySize.toNat/16) + j)
      (.ofBytes (llqBytes llq i q (head.toNat + (1 + k)) (16*j) 16))
  header : llqBytes llq i q head.toNat 32 p.header.length = p.header
  fits : p.header.length + 32 ≤ q.entrySize.toNat

/-- In a host ring each entry is a slot, and there is no pushed header. -/
structure PlacedHost (p : TxPacket) (q : EnaSq) (head : UInt16) (m : Memory) : Prop where
  slots : ∀ j < p.slots,
    p.Encodes j (.ofBytes (m.slot q.base 16 ((head.toNat + j) % q.depth.toNat)))
  header : p.header = []

/-- The guest memory that the device reads for the packet: slots of a host ring and the buffers. -/
def reads (p : TxPacket) (q : EnaSq) (head : UInt16) : List (UInt64 × ℕ) :=
  (if q.llq then [] else (List.range p.slots).map fun j =>
    (q.base + UInt64.ofNat ((head.toNat + j) % q.depth.toNat*16),16)) ++
  p.bufs.map fun b => (b.addr,b.data.length)

/-- The packet stands in the ring from an entry on, in memory that can be read and that the given
writes leave alone. -/
structure Posted (p : TxPacket) (q : EnaSq) (i : SqIdx) (writes : UInt64 → Prop) (m : Memory)
    (llq : ℕ → UInt8) (head : UInt16) : Prop where
  nonempty : p.bufs ≠ []
  max : p.bufs.length ≤ 17
  llq : q.llq = true → p.PlacedLlq q i head llq
  host : q.llq = false → p.PlacedHost q head m
  data : ∀ b ∈ p.bufs, m.bytesAt b.addr b.data.length = b.data
  readable : ∀ r ∈ p.reads q head, m.okAt r.1 r.2 = true
  apart : ∀ r ∈ p.reads q head, ∀ x, InRegion r.1 r.2 x → ¬ writes x

section
variable {p : TxPacket} {q : EnaSq} {i : SqIdx} {writes : UInt64 → Prop} {head : UInt16}
  {s : EnaState} {w : World}

lemma slots_pos (h : p.bufs ≠ []) : p.metaSlots < p.slots :=
  Nat.lt_add_of_pos_right (List.length_pos_iff.mpr h)

lemma mem_reads_slot (hl : q.llq = false) {j : ℕ} (hj : j < p.slots) :
    (q.base + UInt64.ofNat ((head.toNat + j) % q.depth.toNat*16),16) ∈ p.reads q head := by
  rw [reads,if_neg (by simp [hl])]
  exact List.mem_append_left _ (List.mem_map.mpr ⟨j,List.mem_range.mpr hj,rfl⟩)

lemma mem_reads_buf {b : TxBuf} (hb : b ∈ p.bufs) : (b.addr,b.data.length) ∈ p.reads q head :=
  List.mem_append_right _ (List.mem_map.mpr ⟨b,hb,rfl⟩)

/-- The last slot is in the last entry. -/
lemma entries_eq (hok : q.Ok s) (hne : p.bufs ≠ []) :
    q.slotPos (p.slots - 1) + 1 = p.entries q := by
  have hpos := slots_pos hne
  unfold entries
  split_ifs with hl
  · exact llqCover_eq hok hl (by omega)
  · rw [EnaSq.slotPos,if_neg hl]
    omega

lemma slotPos_mono {j k : ℕ} (h : j ≤ k) : q.slotPos j ≤ q.slotPos k := by
  unfold EnaSq.slotPos EnaSq.llqLine
  split_ifs
  · exact le_rfl
  · exact Nat.zero_le _
  · omega
  · exact Nat.add_le_add_left (Nat.div_le_div_right (by omega)) 1
  · exact h

lemma slotPos_lt (hok : q.Ok s) (hne : p.bufs ≠ []) {j : ℕ} (hj : j < p.slots) :
    q.slotPos j < p.entries q := by
  rw [← entries_eq hok hne]
  exact Nat.lt_succ_of_le (slotPos_mono (by omega))

/-- The device finds each descriptor where the driver put it. -/
lemma Posted.encodes (h : p.Posted q i writes w.mem w.llq head) (hok : q.Ok s) (tail : UInt16)
    (m : EnaTxMeta) {j : ℕ} (hj : j < p.slots) :
    p.Encodes j (w.txSlot i (q.moved head tail m) j) := by
  unfold World.txSlot
  by_cases hl : q.llq = true
  · have hplaced := h.llq hl
    rw [if_pos (show (q.moved head tail m).llq = true from hl)]
    exact llqSlot_cases (Q := fun j b => j < p.slots → p.Encodes j (.ofBytes b)) hok hl
      hplaced.first hplaced.rest j hj
  · have hl : q.llq = false := by simpa using hl
    rw [if_neg (show ¬ (q.moved head tail m).llq = true by simp [EnaSq.moved,hl])]
    have hread := Memory.read_of_ok (h.readable _ (mem_reads_slot hl hj))
    change p.Encodes j (.ofBytes (w.mem.read (q.base +
      UInt64.ofNat ((head.toNat + j) % q.depth.toNat*16)) 16).2)
    rw [hread]
    exact (h.host hl).slots j hj

/-- The check of a packet in a host ring, all of whose bytes lie above the writes. -/
def postedAbove (p : TxPacket) (q : EnaSq) (lo : ℕ) (m : Memory) (head : UInt16) : Bool :=
  !q.llq && decide (0 < p.bufs.length ∧ p.bufs.length ≤ 17 ∧ p.header = []) &&
  (List.range p.slots).all (fun j =>
    p.encodesAt j (.ofBytes (m.slot q.base 16 ((head.toNat + j) % q.depth.toNat)))) &&
  p.bufs.all (fun b => m.bytesAt b.addr b.data.length == b.data) &&
  (p.reads q head).all fun r => m.okAt r.1 r.2 && decide (lo ≤ r.1.toNat ∧ r.1.toNat + r.2 ≤ 2^64)

lemma Posted.of_above {m : Memory} {llq : ℕ → UInt8} (lo : ℕ) (h : p.postedAbove q lo m head = true)
    (hwrites : ∀ x, writes x → x.toNat < lo) : p.Posted q i writes m llq head := by
  simp only [postedAbove, Bool.and_eq_true, Bool.not_eq_true', decide_eq_true_eq, List.all_eq_true,
    List.mem_range, beq_iff_eq] at h
  obtain ⟨⟨⟨⟨hl,hpos,hmax,hheader⟩,hslots⟩,hdata⟩,hreads⟩ := h
  refine ⟨List.length_pos_iff.mp hpos,hmax,fun hl' => absurd hl' (by simp [hl]),
    fun _ => ⟨fun j hj => .of_encodesAt (hslots j hj),hheader⟩,hdata,fun r hr => (hreads r hr).1,?_⟩
  intro r hr x hx hw
  obtain ⟨-,hlo,hhi⟩ := hreads r hr
  have hlt := hwrites x hw
  have hxlt := x.toNat_lt
  rw [InRegion,UInt64.toNat_sub] at hx
  omega

/-- The writes leave the packet as it is. -/
lemma Posted.agrees {mem mem' : Memory} {llq : ℕ → UInt8} (h : p.Posted q i writes mem llq head)
    (hm : mem.Agrees writes mem') : p.Posted q i writes mem' llq head := by
  refine ⟨h.nonempty,h.max,h.llq,?_,?_,?_,h.apart⟩
  · intro hl
    refine ⟨fun j hj => ?_,(h.host hl).header⟩
    rw [Memory.slot,hm.bytesAt (h.apart _ (mem_reads_slot hl hj))]
    exact (h.host hl).slots j hj
  · intro b hb
    rw [hm.bytesAt (h.apart _ (mem_reads_buf hb))]
    exact h.data b hb
  · intro r hr
    rw [hm.okAt]
    exact h.readable r hr

/-- The data descriptors, as the device reads them. -/
def descs (p : TxPacket) (w : World) (i : SqIdx) (sq : EnaSq) : List EnaTxDesc :=
  (List.range' p.metaSlots p.bufs.length).map (w.txSlot i sq)

/-- A packet that is encoded in posted slots is one of the grammar. -/
lemma txGrammar {sq : EnaSq} (hne : p.bufs ≠ []) (hmax : p.bufs.length ≤ 17)
    (hdesc : ∀ j < p.slots, p.Encodes j (w.txSlot i sq j))
    (hposted : ∀ j < p.slots, sq.slotPos j < (sq.tail - sq.head).toNat) :
    TxGrammar w i sq p.metaSlots p.slots := by
  have hslots := slots_pos hne
  have hbuf : ∀ j, p.metaSlots ≤ j → j < p.slots →
      ∃ b, EncodesBuf (w.txSlot i sq j) b (j+1 = p.slots) := by
    intro j hj hlt
    obtain ⟨k,rfl⟩ := Nat.exists_eq_add_of_le hj
    have hk : k < p.bufs.length := Nat.lt_of_add_lt_add_left hlt
    have henc := (hdesc _ hlt).buf k _ rfl (List.getElem?_eq_getElem hk)
    refine ⟨p.bufs[k],henc.metaDesc,henc.last.trans ?_,henc.length,henc.addrLo,henc.addrHi⟩
    rw [slots,Nat.add_assoc,Nat.add_right_inj]
  refine ⟨Bool.toNat_le _,hslots,Nat.add_le_add_left hmax _,hposted,fun hm => ?_,fun hm => ?_,
    fun j hj hlt => ?_,fun j hj hlt => ?_⟩
  · have henc := (hdesc 0 (by omega)).metaDesc (by omega)
    exact ⟨henc.isMeta,henc.isExtValid⟩
  · have henc := (hdesc 0 (by omega)).first hm.symm
    exact henc.isFirst (Bool.toNat_eq_zero.mp hm)
  · obtain ⟨b,hb⟩ := hbuf j hj hlt
    exact hb.isMeta
  · obtain ⟨b,hb⟩ := hbuf j hj hlt
    exact hb.isLast

/-- The device parses the packet that was posted. -/
lemma parse_eq {sq : EnaSq} (hok : sq.Ok s) (hmax : p.bufs.length ≤ 17)
    (hdesc : ∀ j < p.slots, p.Encodes j (w.txSlot i sq j))
    (hposted : ∀ j < p.slots, sq.slotPos j < (sq.tail - sq.head).toNat) (hne : p.bufs ≠ []) :
    ∃ m, enaTxParseFrom w i sq (enaMaxPktDescs + 1) 0 EnaTxPkt.zero =
      .ok (some ⟨p.descs w i sq,p.slots,p.haveMeta,m⟩) := by
  obtain ⟨o,hparse,ho⟩ := (hok.txReadable w i).parse_iff.exists_ok
  have hsome := (ho _).mpr ⟨_,_,txGrammar hne hmax hdesc hposted,rfl⟩
  have hbufs : p.slots - p.metaSlots = p.bufs.length := Nat.add_sub_cancel_left _ _
  have hmeta : decide (p.metaSlots = 1) = p.haveMeta := by
    rw [metaSlots]
    cases p.haveMeta <;> rfl
  rw [txPktOf,hbufs,hmeta] at hsome
  rw [hsome] at hparse
  exact ⟨_,hparse⟩

end
end TxPacket
end EnaDevice
