import EnaDevice.Driver.Posting

/-! Sending through LLQ memory: lines that the driver writes through BAR 2, where they stand in the
ring, and the packets that the device sends from them. -/
namespace EnaDevice.Driver
open Bytes Result Slots

/-- The bytes of a line from an offset on. -/
def lineBytes (line : Bytes) (off len : ℕ) : Bytes := List.ofFn fun j : Fin len =>
    u8At line (off + j)

/-- Lines that are pushed one after another. -/
def enaTxqPushLines (s : Session) (t : EnaTxQueue) : List Bytes →
    Except Abort (EnaTxQueue × Session)
  | [] => .ok (t,s)
  | line::lines => do
    let (t,s) ← enaTxqPushLine s t line
    enaTxqPushLines s t lines

/-- Lines that are pushed and rung in together. -/
def sendLines (q : Qtest) (s : Session) (t : EnaTxQueue) (lines : List Bytes) :
    Except Abort (EnaTxQueue × Session) := do
  let (t,s) ← enaTxqPushLines s t lines
  let s ← enaTxqDoorbell q s t
  return (t,s)

/-- The LLQ queue as the driver has it is the device's. -/
structure LlqPair (t : EnaTxQueue) (i : SqIdx) (sq : EnaSq) : Prop where
  llq : t.llq = true ∧ sq.llq = true
  depth : t.depth = sq.depth
  lineSize : t.lineSize.toNat = sq.entrySize.toNat
  offset : MapsLlq t.llqOff i
  doorbell : RingsSq t.dbOff i

/-- The lines of a packet: two descriptors and the pushed header in the first, descriptors in the
others. -/
structure InLines (sq : EnaSq) (p : TxPacket) (lines : List Bytes) : Prop where
  count : lines.length = p.entries sq
  first : ∀ line, lines[0]? = some line → ∀ j < 2, j < p.slots →
    p.Encodes j (.ofBytes (lineBytes line (16*j) 16))
  rest : ∀ k line, lines[1 + k]? = some line → ∀ j < sq.entrySize.toNat/16,
    2 + k*(sq.entrySize.toNat/16) + j < p.slots →
      p.Encodes (2 + k*(sq.entrySize.toNat/16) + j) (.ofBytes (lineBytes line (16*j) 16))
  header : ∀ line, lines[0]? = some line → lineBytes line 32 p.header.length = p.header
  fits : p.header.length + 32 ≤ sq.entrySize.toNat

/-- The lines stand in the LLQ ring from an entry on. -/
def LinesAt (llq : ℕ → UInt8) (i : SqIdx) (sq : EnaSq) (n : ℕ) (lines : List Bytes) : Prop :=
  ∀ k line, lines[k]? = some line → ∀ off len, off + len ≤ sq.entrySize.toNat →
    llqBytes llq i sq (n + k) off len = lineBytes line off len

/-- The device's part of LLQ memory starts where the driver writes. -/
lemma mapsLlq_toNat {off : UInt32} {i : SqIdx} {sq : EnaSq} (h : MapsLlq off i)
    (hl : sq.llq = true) :
    off.toNat = i.val*enaLlqQueueBytes := by
  -- memory that has a one at the driver's offset only
  obtain ⟨w,hw⟩ : ∃ w : World, w.llq = fun k => if k = off.toNat then 1 else 0 :=
    ⟨{ World.powerOn (fun _ => 0) false with llq := _ },rfl⟩
  have hbytes := Except.ok.inj ((mapsLlq i w sq 0 1 hl (by decide)).symm.trans
    (h w sq 0 1 hl (by decide)))
  have hhead : w.llq (UInt32.ofNat (i*enaLlqQueueBytes)).toNat = w.llq off.toNat := by
    simpa using hbytes
  have hone : w.llq off.toNat = 1 := by
    rw [hw]
    exact if_pos rfl
  have hat : off.toNat = (UInt32.ofNat (i*enaLlqQueueBytes)).toNat := by
    by_contra hne
    have hzero : w.llq (UInt32.ofNat (i*enaLlqQueueBytes)).toNat = 0 := by
      rw [hw]
      exact if_neg (Ne.symm hne)
    rw [hone,hzero] at hhead
    exact absurd hhead (by decide)
  have hnat := @offset_toNat 0 enaLlqQueueBytes i (by decide)
  rw [Nat.zero_add] at hnat
  exact hat.trans hnat

/-- LLQ memory with a line in an entry. -/
def withLine (llq : ℕ → UInt8) (i : SqIdx) (sq : EnaSq) (n : ℕ) (line : Bytes) :
    ℕ → UInt8 := fun j =>
  let off := i.val*enaLlqQueueBytes + n % sq.depth.toNat*sq.entrySize.toNat
  if off ≤ j ∧ j < off + sq.entrySize.toNat then u8At line (j - off) else llq j

/-- Two buffers behind a pushed header, in one line. -/
example : InLines ⟨true,true,true,0,0,16,128,0,0,EnaTxMeta.zero⟩
    ⟨false,7,true,List.replicate 14 2,[⟨0x5000,List.replicate 46 3⟩,⟨0x6000,List.replicate 10 4⟩]⟩
    [enaTxDescFill 0x5000 46 7 (txFlags true false true) 0 14 ++
      enaTxDescFill 0x6000 10 0 (txFlags false true false) 0 0 ++ List.replicate 14 2] where
  count := by decide
  first := by
    rintro _ ⟨⟩ j hj -
    obtain rfl | rfl : j = 0 ∨ j = 1 := by omega
    · exact .of_encodesAt (by decide)
    · exact .of_encodesAt (by decide)
  rest := by
    intro k line hk
    rw [List.getElem?_eq_none (by rw [List.length_singleton]; omega)] at hk
    cases hk
  header := by
    rintro _ ⟨⟩
    decide
  fits := by decide

/-- The session with other LLQ memory. -/
def Session.withLlq (s : Session) (llq : ℕ → UInt8) : Session :=
  { s with w := { s.w with llq := llq } }

/-- The queue with another tail. -/
def EnaTxQueue.withTail (t : EnaTxQueue) (tail : UInt16) : EnaTxQueue := { t with tail := tail }

@[simp] lemma withTail_tail (t : EnaTxQueue) (tail : UInt16) : (t.withTail tail).tail = tail := rfl

lemma withTail_withTail (t : EnaTxQueue) (a b : UInt16) :
    (t.withTail a).withTail b = t.withTail b := rfl

@[simp] lemma withLlq_llq (s : Session) (llq : ℕ → UInt8) : (s.withLlq llq).w.llq = llq := rfl

lemma withLlq_withLlq (s : Session) (a b : ℕ → UInt8) :
    (s.withLlq a).withLlq b = s.withLlq b := rfl

section Push
variable {s : Session} {t : EnaTxQueue} {i : SqIdx} {sq : EnaSq} {lines : List Bytes} {line : Bytes}
  {llq : ℕ → UInt8} {n m off len : ℕ}

lemma llqBytes_withLine (h : off + len ≤ sq.entrySize.toNat) :
    llqBytes (withLine llq i sq n line) i sq n off len = lineBytes line off len := by
  unfold llqBytes lineBytes
  congr 1
  funext j
  have hj := j.isLt
  unfold withLine
  dsimp only
  rw [if_pos (by omega)]
  congr 1
  omega

/-- The other entries keep their bytes. -/
lemma llqBytes_withLine_ne (hne : n % sq.depth.toNat ≠ m % sq.depth.toNat)
    (h : off + len ≤ sq.entrySize.toNat) :
    llqBytes (withLine llq i sq n line) i sq m off len = llqBytes llq i sq m off len := by
  unfold llqBytes
  congr 1
  funext j
  have hj := j.isLt
  unfold withLine
  dsimp only
  rw [if_neg]
  rintro ⟨hlo,hhi⟩
  rcases Nat.lt_or_gt_of_ne hne with hlt | hgt
  · have hle := Nat.mul_le_mul_right sq.entrySize.toNat (Nat.succ_le_of_lt hlt)
    rw [Nat.succ_mul] at hle
    omega
  · have hle := Nat.mul_le_mul_right sq.entrySize.toNat (Nat.succ_le_of_lt hgt)
    rw [Nat.succ_mul] at hle
    omega

lemma LlqPair.withTail (h : LlqPair t i sq) (tail : UInt16) : LlqPair (t.withTail tail) i sq :=
  ⟨h.llq,h.depth,h.lineSize,h.offset,h.doorbell⟩

lemma enaTxqPushLine_eq (h : LlqPair t i sq) (hd : sq.depth.toNat.isPowerOfTwo) (line : Bytes) :
    enaTxqPushLine s t line = .ok (t.withTail (t.tail + 1),
      s.withLlq (withLine s.w.llq i sq t.tail.toNat line)) := by
  unfold enaTxqPushLine withLine EnaTxQueue.withTail Session.withLlq
  rw [h.llq.1,h.depth,Counter.mask hd,mapsLlq_toNat h.offset h.llq.2,h.lineSize]
  rfl

lemma llqBytes_mod (h : n % sq.depth.toNat = m % sq.depth.toNat) :
    llqBytes llq i sq n off len = llqBytes llq i sq m off len := by
  unfold llqBytes
  rw [h]

lemma enaTxqPushLines_cons {t' : EnaTxQueue} {s' : Session}
    (h : enaTxqPushLine s t line = .ok (t',s')) :
    enaTxqPushLines s t (line::lines) = enaTxqPushLines s' t' lines := by
  rw [enaTxqPushLines,h,ok_bind]

/-- Pushed lines stand in the entries from the tail on, and the other entries are as before. -/
lemma enaTxqPushLines_eq (h : LlqPair t i sq) (hd : sq.depth.toNat.isPowerOfTwo)
    (hfit : lines.length ≤ sq.depth.toNat) :
    ∃ llq, enaTxqPushLines s t lines =
        .ok (t.withTail (t.tail + UInt16.ofNat lines.length),s.withLlq llq) ∧
      LinesAt llq i sq t.tail.toNat lines ∧
      ∀ m, (∀ k < lines.length, (t.tail.toNat + k) % sq.depth.toNat ≠ m % sq.depth.toNat) →
        ∀ off len, off + len ≤ sq.entrySize.toNat →
          llqBytes llq i sq m off len = llqBytes s.w.llq i sq m off len := by
  induction lines generalizing s t with
  | nil =>
    have hsame : t.tail + UInt16.ofNat (List.length ([] : List Bytes)) = t.tail := UInt16.add_zero _
    refine ⟨s.w.llq,?_,nofun,fun _ _ _ _ _ => rfl⟩
    rw [enaTxqPushLines,hsame]
    rfl
  | cons line lines ih =>
    rw [List.length_cons] at hfit
    obtain ⟨llq,hpush,hat,hrest⟩ := ih (s := s.withLlq (withLine s.w.llq i sq t.tail.toNat line))
      (h.withTail (t.tail + 1)) (by omega)
    -- rewritten, not unfolded: to compare the two queues field by field is slow at the tails
    rw [withTail_tail,withTail_withTail,withLlq_withLlq] at hpush
    rw [withTail_tail] at hat hrest
    rw [withLlq_llq] at hrest
    have hentry : ∀ k, ((t.tail + 1).toNat + k) % sq.depth.toNat = (t.tail.toNat + (k + 1)) %
        sq.depth.toNat := by
      intro k
      rw [Counter.succ_toNat,Nat.add_mod,Counter.wrap_mod hd,← Nat.add_mod]
      congr 1
      omega
    have hnext : t.tail + 1 + UInt16.ofNat lines.length = t.tail +
        UInt16.ofNat (line::lines).length := by
      rw [List.length_cons,Nat.add_comm,UInt16.ofNat_add,UInt16.add_assoc]
      rfl
    refine ⟨llq,?_,?_,?_⟩
    · rw [enaTxqPushLines_cons (enaTxqPushLine_eq h hd line),hpush,hnext]
    · intro k l hk off len hlen
      cases k with
      | zero =>
        obtain rfl : line = l := Option.some.inj hk
        -- the lines behind it are in other entries
        rw [Nat.add_zero,hrest t.tail.toNat (fun k hk => ?_) off len hlen,llqBytes_withLine hlen]
        rw [hentry]
        exact (Counter.slot_ne (by omega) (by omega)).symm
      | succ k =>
        rw [← hat k l hk off len hlen]
        exact llqBytes_mod (hentry k).symm
    · intro m hm off len hlen
      have hne := hm 0 (Nat.succ_pos _)
      rw [Nat.add_zero] at hne
      rw [hrest m (fun k hk => ?_) off len hlen,llqBytes_withLine_ne hne hlen]
      rw [hentry]
      exact hm (k + 1) (Nat.succ_lt_succ hk)

end Push

section Send
variable {s : Session} {t : EnaTxQueue} {i : SqIdx} {c : CqIdx} {sq : EnaSq} {d : EnaState}
  {llq : ℕ → UInt8} {p : TxPacket} {lines : List Bytes} {head : UInt16} {writes : UInt64 → Prop}
  {m : Memory}

/-- A packet whose lines stand in the ring is placed there. -/
lemma InLines.placed (h : InLines sq p lines) (hok : sq.Ok d) (hl : sq.llq = true)
    (hat : LinesAt llq i sq head.toNat lines) : p.PlacedLlq sq i head llq := by
  have hsize : 128 ≤ sq.entrySize.toNat := by
    rcases hok.entrySize_cases hl with he | he <;> omega
  have hcount := h.count
  rw [TxPacket.entries,if_pos hl] at hcount
  have hline : ∀ k < lines.length, ∃ line, lines[k]? = some line := fun k hk =>
    ⟨_,List.getElem?_eq_getElem hk⟩
  obtain ⟨line,hfirst⟩ := hline 0 (by rw [hcount]; exact Nat.lt_add_right _ Nat.one_pos)
  refine ⟨fun j hj hs => ?_,fun k j hj hs => ?_,?_,h.fits⟩
  · have hbytes := hat 0 line hfirst (16*j) 16 (by omega)
    rw [Nat.add_zero] at hbytes
    rw [hbytes]
    exact h.first line hfirst j hj hs
  · have hpos : 0 < sq.entrySize.toNat/16 := Nat.div_pos (by omega) (by decide)
    have hk : 1 + k < lines.length := by
      have hle : (k + 1)*(sq.entrySize.toNat/16) ≤ p.slots - 2 + (sq.entrySize.toNat/16 - 1) := by
        rw [Nat.succ_mul]
        omega
      rw [hcount]
      exact Nat.add_lt_add_left (Nat.lt_of_succ_le ((Nat.le_div_iff_mul_le hpos).mpr hle)) 1
    obtain ⟨next,hnext⟩ := hline (1 + k) hk
    have hslot : 16*j + 16 ≤ sq.entrySize.toNat := by omega
    rw [hat (1 + k) next hnext (16*j) 16 hslot]
    exact h.rest k next hnext j hj hs
  · have hbytes := hat 0 line hfirst 32 p.header.length (by rw [Nat.add_comm]; exact h.fits)
    rw [Nat.add_zero] at hbytes
    rw [hbytes]
    exact h.header line hfirst

/-- A packet with its lines, whose buffers stand in memory that is left alone. -/
structure SentIn (sq : EnaSq) (writes : UInt64 → Prop) (m : Memory) (x : TxPacket × List Bytes) :
    Prop where
  nonempty : x.1.bufs ≠ []
  max : x.1.bufs.length ≤ 17
  lines : InLines sq x.1 x.2
  loaded : Loaded m writes x.1

lemma LinesAt.append {lines' : List Bytes} {n : ℕ} (h : LinesAt llq i sq n (lines ++ lines')) :
    LinesAt llq i sq n lines ∧ LinesAt llq i sq (n + lines.length) lines' := by
  refine ⟨fun k line hk => h k line ?_,fun k line hk => ?_⟩
  · rw [List.getElem?_append_left (List.getElem?_eq_some_iff.mp hk).1]
    exact hk
  · rw [Nat.add_assoc]
    refine h (lines.length + k) line ?_
    rw [List.getElem?_append_right (Nat.le_add_right _ _),Nat.add_sub_cancel_left]
    exact hk

/-- Only the place in the ring matters. -/
lemma LinesAt.wrap {n n' : ℕ} (h : LinesAt llq i sq n lines)
    (hn : n % sq.depth.toNat = n' % sq.depth.toNat) :
    LinesAt llq i sq n' lines := by
  intro k line hk off len hlen
  rw [← h k line hk off len hlen]
  exact llqBytes_mod (Nat.ModEq.add_right k hn).symm

variable {ls : List (TxPacket × List Bytes)}

lemma txEntries_lines (hls : ∀ x ∈ ls, SentIn sq writes m x) :
    txEntries sq (ls.map Prod.fst) = (ls.flatMap Prod.snd).length := by
  induction ls with
  | nil => rfl
  | cons x ls ih =>
    have hhead := (hls x List.mem_cons_self).lines.count
    have htail := ih fun y hy => hls y (List.mem_cons_of_mem x hy)
    unfold txEntries at htail ⊢
    rw [List.flatMap_cons,List.length_append,hhead,List.map_cons,List.map_cons,List.sum_cons,htail]

/-- Packets whose lines stand in the ring are posted. -/
lemma postedFrom_of_lines (hok : sq.Ok d) (hl : sq.llq = true)
    (hls : ∀ x ∈ ls, SentIn sq writes m x)
    (hat : LinesAt llq i sq head.toNat (ls.flatMap Prod.snd)) :
    PostedFrom sq i writes m llq head (ls.map Prod.fst) := by
  induction ls generalizing head with
  | nil => trivial
  | cons x ls ih =>
    have hx := hls x List.mem_cons_self
    rw [List.flatMap_cons] at hat
    obtain ⟨hhere,hbehind⟩ := hat.append
    have hreads : ∀ r ∈ x.1.reads sq head, ∃ b ∈ x.1.bufs, r = (b.addr,b.data.length) := by
      intro r hr
      rw [TxPacket.reads,if_pos hl,List.nil_append] at hr
      obtain ⟨b,hb,he⟩ := List.mem_map.mp hr
      exact ⟨b,hb,he.symm⟩
    refine ⟨⟨hx.nonempty,hx.max,fun _ => hx.lines.placed hok hl hhere,
      fun hno => absurd hl (by simp [hno]),hx.loaded.data,fun r hr => ?_,fun r hr => ?_⟩,?_⟩
    · obtain ⟨b,hb,rfl⟩ := hreads r hr
      exact hx.loaded.readable b hb
    · obtain ⟨b,hb,rfl⟩ := hreads r hr
      exact hx.loaded.apart b hb
    · refine ih (fun y hy => hls y (List.mem_cons_of_mem x hy)) (hbehind.wrap ?_)
      rw [hx.lines.count,UInt16.toNat_add,UInt16.toNat_ofNat',
        ← Nat.mod_mod_of_dvd _ (Counter.depth_dvd hok.depth.pow)]
      congr 1
      omega

end Send

/-- Packets with their lines that the driver may send: they fit the queue, and the buffers stand in
memory apart from the CQ. -/
structure SendableLines (t : EnaTxQueue) (sq : EnaSq) (m : Memory)
    (ls : List (TxPacket × List Bytes)) : Prop where
  packets : ∀ x ∈ ls, SentIn sq (InRegion t.cqRing (t.depth.toNat*t.cqEntrySize.toNat)) m x
  room : (ls.flatMap Prod.snd).length ≤ sq.depth.toNat

/-- A driver at its LLQ pair since the creation, with the packets sent and what its bursts made the
device do. Between bursts it fills its buffers. -/
inductive LineRun (q : Qtest) (i : SqIdx) (c : CqIdx) (s₀ : Session) :
    EnaTxQueue → Session → List TxPacket → List Event → Prop
  | create {s : Session} {log : List (Bytes × UInt8)} {depth : UInt16} {words : UInt8}
    {vector : UInt32} {cqRing sqRing : UInt64} {t : EnaTxQueue} (h : Calls q s log)
    (htables : TableInv s.w.dev ∧ TxIdle none s.w.dev) (hcq : CqArgs depth words vector cqRing)
    (hclear : (rings s.d).Clear cqRing (depth.toNat*(words*4).toNat))
    (hllq : s.w.dev.llqEnabled = true ∧ s.w.dev.llqEntrySize = 128)
    (hsize : depth.toNat*128 ≤ enaLlqQueueBytes) (hc : Lowest s.w.dev.book.cq c)
    (hi : Lowest s.w.dev.book.sq i)
    (hcreate : enaTxqCreate q s depth words vector true cqRing sqRing = .ok (t,s₀)) :
    LineRun q i c s₀ t s₀ [] []
  | write {t : EnaTxQueue} {s : Session} {sent : List TxPacket} {out : List Event}
    (h : LineRun q i c s₀ t s sent out) (addr : UInt64) (data : Bytes) :
    LineRun q i c s₀ t (qtestMemwrite s addr data) sent out
  | send {t t' : EnaTxQueue} {s s' : Session} {sent : List TxPacket} {out : List Event}
    {ls : List (TxPacket × List Bytes)} (h : LineRun q i c s₀ t s sent out)
    (hls : SendableLines t (s₀.w.dev.sq i) s.w.mem ls)
    (hs : sendLines q s t (ls.flatMap Prod.snd) = .ok (t',s')) :
    LineRun q i c s₀ t' s' (sent ++ ls.map Prod.fst) (out ++ s'.w.trace.drop s.w.trace.length)

/-- Driver and device after some packets. -/
structure LineState (i : SqIdx) (c : CqIdx) (s₀ : Session) (t : EnaTxQueue) (s : Session)
    (sent : List TxPacket) (out : List Event) : Prop where
  tables : TableInv s₀.w.dev
  used : (s₀.w.dev.sq i).used = true
  isTx : (s₀.w.dev.sq i).isTx = true
  cqIdx : (s₀.w.dev.sq i).cqIdx.toNat = c.val
  pair : LlqPair t i (s₀.w.dev.sq i)
  cq : t.cqRing = (s₀.w.dev.cq c).base ∧ t.depth = (s₀.w.dev.cq c).depth ∧
    t.cqEntrySize = (s₀.w.dev.cq c).entrySize
  tail : t.tail = UInt16.ofNat (txEntries (s₀.w.dev.sq i) sent)
  progress : TxProgress i c s₀.w.dev t.tail t.tail (sent.countP TxPacket.compReq) s.w
  trace : TxTrace i c s₀.w.dev 0 sent out

section Run
variable {q : Qtest} {i : SqIdx} {c : CqIdx} {s₀ s : Session} {t : EnaTxQueue}
  {sent : List TxPacket} {out : List Event} {ls : List (TxPacket × List Bytes)}

lemma LineState.create {log : List (Bytes × UInt8)} {depth : UInt16} {words : UInt8}
    {vector : UInt32} {cqRing sqRing : UInt64} (h : Calls q s log)
    (htables : TableInv s.w.dev ∧ TxIdle none s.w.dev) (hcq : CqArgs depth words vector cqRing)
    (hclear : (rings s.d).Clear cqRing (depth.toNat*(words*4).toNat))
    (hllq : s.w.dev.llqEnabled = true ∧ s.w.dev.llqEntrySize = 128)
    (hsize : depth.toNat*128 ≤ enaLlqQueueBytes) (hc : Lowest s.w.dev.book.cq c)
    (hi : Lowest s.w.dev.book.sq i)
    (hcreate : enaTxqCreate q s depth words vector true cqRing sqRing = .ok (t,s₀)) :
    LineState i c s₀ t s₀ [] [] := by
  have hhost : true = false → sqRing ≠ 0 ∧ sqRing.toNat < 2^48 := fun hno => absurd hno (by decide)
  obtain ⟨t₁,s₁,log',hcreate₁,-,hnew⟩ := txqCreate_new q h hcq hhost
    (fun _ => ⟨hllq.1,by rw [hllq.2]; exact hsize⟩) hclear hc hi
  obtain ⟨rfl,rfl⟩ := Prod.mk.inj (Except.ok.inj (hcreate₁.symm.trans hcreate))
  have hline : t₁.lineSize = 128 := by
    rw [enaTxqCreate_eq] at hcreate
    obtain ⟨x,-,hx⟩ := bind_eq_ok.mp hcreate
    rw [← (Prod.mk.inj (Except.ok.inj hx)).1]
  have hsq₀ : s₁.w.dev.sq i = askedSq s.w.dev true true (UInt16.ofNat c) depth sqRing := by
    rw [hnew.sqs,Function.update_self]
  have hcq₀ : s₁.w.dev.cq c = askedCq depth words vector cqRing := by
    rw [hnew.cqs,Function.update_self]
  obtain ⟨hring,hentry,hdepth⟩ := hnew.cqRing
  obtain ⟨-,hl,hsqDepth⟩ := hnew.sqRing
  obtain ⟨htables₀,-⟩ := hnew.tables htables
  refine ⟨htables₀,by rw [hsq₀]; rfl,by rw [hsq₀]; rfl,?_,
    ⟨⟨hl,by rw [hsq₀]; rfl⟩,by rw [hsq₀]; exact hsqDepth,?_,hnew.llqOff hl,hnew.doorbell⟩,?_,
      hnew.tail.1,?_,⟨rfl,rfl⟩⟩
  · rw [hsq₀]
    exact idx_toNat c
  · rw [hsq₀,hline]
    exact congrArg UInt16.toNat hllq.2.symm
  · rw [hcq₀]
    exact ⟨hring,hdepth,hentry⟩
  · refine ⟨htables₀,⟨(s₁.w.dev.sq i).txMeta,?_⟩,rfl,rfl,rfl⟩
    rw [hsq₀,hnew.tail.1]
    rfl

/-- The lines are pushed, the doorbell rings, and the packets are sent. -/
lemma LineState.send (q : Qtest) (h : LineState i c s₀ t s sent out)
    (hls : SendableLines t (s₀.w.dev.sq i) s.w.mem ls) :
    ∃ t' s', sendLines q s t (ls.flatMap Prod.snd) = .ok (t',s') ∧
      LineState i c s₀ t' s' (sent ++ ls.map Prod.fst)
        (out ++ s'.w.trace.drop s.w.trace.length) := by
  have hok := h.tables.sq i h.used
  have hentries := txEntries_lines hls.packets
  obtain ⟨llq,hpush,hat,-⟩ := enaTxqPushLines_eq (s := s) h.pair hok.depth.pow hls.room
  have hpushed := h.progress.overwritten s.w.mem llq
  -- completions are written into the CQ's ring, away from the buffers
  have hwrites : ∀ k x,
      CqWrites (EnaCq.advance^[sent.countP TxPacket.compReq] (s₀.w.dev.cq c)) k x →
      InRegion t.cqRing (t.depth.toNat*t.cqEntrySize.toNat) x := by
    intro k x hx
    rw [h.cq.1,h.cq.2.1,h.cq.2.2]
    exact CqWrites.inRing (h.tables.cq c (used_cq h.tables h.used h.cqIdx)) hx
  have hposted : TxBurst.Posted ⟨s.w.mem,llq,
        (t.tail + UInt16.ofNat (ls.flatMap Prod.snd).length).toUInt32.toUInt64,ls.map Prod.fst⟩
      (s₀.w.dev.sq i) i (EnaCq.advance^[sent.countP TxPacket.compReq] (s₀.w.dev.cq c)) t.tail := by
    refine ⟨postedFrom_of_lines hok h.pair.llq.2 (fun x hx => ?_) ?_,?_,?_⟩
    · have hsent := hls.packets x hx
      exact ⟨hsent.nonempty,hsent.max,hsent.lines,hsent.loaded.weaken (hwrites _)⟩
    · exact hat
    · rw [hentries]
      exact hls.room
    · rw [hentries]
      exact toUInt16_widen _
  obtain ⟨w',es,hstep,hprogress,htrace,hes⟩ := hpushed.doorbell q.net h.tables h.used h.isTx h.cqIdx
    rfl rfl hposted
  dsimp only at hprogress hes
  rw [hentries] at hprogress
  have hring : enaTxqDoorbell q (s.withLlq llq)
      (t.withTail (t.tail + UInt16.ofNat (ls.flatMap Prod.snd).length)) =
        .ok { s with w := w' } :=
    enaTxqDoorbell_eq (h.pair.withTail _).doorbell hstep
  have hsend : sendLines q s t (ls.flatMap Prod.snd) =
      .ok (t.withTail (t.tail + UInt16.ofNat (ls.flatMap Prod.snd).length),{ s with w := w' }) := by
    unfold sendLines
    rw [hpush,ok_bind]
    dsimp only
    rw [hring,ok_bind]
    rfl
  have hdrop : w'.trace.drop s.w.trace.length = es := by
    rw [htrace]
    exact List.drop_left
  refine ⟨_,_,hsend,h.tables,h.used,h.isTx,h.cqIdx,h.pair.withTail _,h.cq,?_,?_,?_⟩
  · rw [withTail_tail,txEntries_append,hentries,h.tail,UInt16.ofNat_add]
  · rw [withTail_tail,List.countP_append]
    exact hprogress
  · dsimp only
    rw [hdrop]
    refine h.trace.append ?_
    rw [UInt16.zero_add,← h.tail]
    exact hes

lemma LineRun.state (h : LineRun q i c s₀ t s sent out) : LineState i c s₀ t s sent out := by
  induction h with
  | create h htables hcq hclear hllq hsize hc hi hcreate =>
    exact .create h htables hcq hclear hllq hsize hc hi hcreate
  | write _ addr data ih =>
    exact { ih with progress := ih.progress.overwritten _ _ }
  | send _ hls hs ih =>
    obtain ⟨t',s',hsend,hstate⟩ := ih.send _ hls
    obtain ⟨rfl,rfl⟩ := Prod.mk.inj (Except.ok.inj (hs.symm.trans hsend))
    exact hstate

/-- From the creation of an LLQ pair on: the frames of the packets sent that pass went to the
backend in order, with a completion for each packet that asked for it, and any packets that there is
room for are sent. -/
theorem lines_transmit (h : LineRun q i c s₀ t s sent out) :
    TxTrace i c s₀.w.dev 0 sent out ∧ ∀ ls, SendableLines t (s₀.w.dev.sq i) s.w.mem ls →
      ∃ t' s', sendLines q s t (ls.flatMap Prod.snd) = .ok (t',s') := by
  refine ⟨h.state.trace,fun ls hls => ?_⟩
  obtain ⟨t',s',hsend,-⟩ := h.state.send q hls
  exact ⟨t',s',hsend⟩

end Run
end EnaDevice.Driver
