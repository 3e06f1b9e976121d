import EnaDevice.Tx.Frame
import EnaDevice.Twin.Indistinct

/-! Doorbells of independent TX queues commute. Each of them makes a change to the world that the
other one neither sees nor disturbs. -/
namespace EnaDevice
open Bytes Result

/-- The change from `w` to `w'` that a doorbell of an SQ on a CQ made, for another world to wear. -/
def txChange (j : SqIdx) (c : CqIdx) (w w' : World) : Guise where
  dev s := { s with
    sq := Function.update s.sq j (w'.dev.sq j)
    cq := Function.update s.cq c (w'.dev.cq c)
    irq := fun v => if (w.dev.cq c).vec = some v then w'.dev.irq v else s.irq v
    txPkts := s.txPkts + (w'.dev.txPkts - w.dev.txPkts)
    txBytes := s.txBytes + (w'.dev.txBytes - w.dev.txBytes)
    txDrops := s.txDrops + (w'.dev.txDrops - w.dev.txDrops) }
  mem m := { m with byte := fun x => if (w.dev.cq c).InRing x then w'.mem.byte x else m.byte x }
  past := w'.trace

/-- The heads at which the packets of a posted burst start. -/
inductive TxHead (w : World) (i : SqIdx) (sq : EnaSq) : UInt16 → Prop
  | start : TxHead w i sq sq.head
  | next {head : UInt16} {p : EnaTxPkt} {n : ℕ} (h : TxHead w i sq head) (hne : head ≠ sq.tail)
    (hp : enaTxParseFrom w i { sq with head := head } (enaMaxPktDescs+1) 0 EnaTxPkt.zero =
      .ok (some p))
    (hn : enaTxPktEntries sq p.slots = .ok n) : TxHead w i sq (head + UInt16.ofNat n)

/-- The address of a descriptor slot of a host ring, from the head on. -/
def EnaSq.hostSlot (sq : EnaSq) (slot : ℕ) : UInt64 :=
  sq.base + UInt64.ofNat (((sq.head.toNat + slot) &&& (sq.depth - 1).toNat)*EnaTxDesc.size)

/-- The descriptors and buffers of the packets in a posted burst are outside the given addresses. -/
structure TxApart (w : World) (i : SqIdx) (sq : EnaSq) (writes : UInt64 → Prop) : Prop where
  desc : ∀ head, TxHead w i sq head → head ≠ sq.tail →
    TxLooksAt w i { sq with head := head } (fun slot => sq.llq = false →
      ∀ x, InRegion (EnaSq.hostSlot { sq with head := head } slot) EnaTxDesc.size x → ¬ writes x)
      (enaMaxPktDescs+1) 0
  buf : ∀ head p, TxHead w i sq head →
    enaTxParseFrom w i { sq with head := head } (enaMaxPktDescs+1) 0 EnaTxPkt.zero = .ok (some p) →
    ∀ d ∈ p.desc, ∀ x, InRegion d.addr d.len x → ¬ writes x

section Reads
variable {w w' : World} {i : SqIdx} {sq : EnaSq} {slot : ℕ}

lemma enaTxReadSlot_congr (hllq : w'.llq = w.llq)
    (hread : sq.llq = false → w'.mem.read (sq.hostSlot slot) EnaTxDesc.size =
      w.mem.read (sq.hostSlot slot) EnaTxDesc.size) :
    enaTxReadSlot w' i sq slot = enaTxReadSlot w i sq slot := by
  unfold enaTxReadSlot
  cases hl : sq.llq with
  | true =>
    simp only [if_true]
    refine bind_congr_ok fun line _ => bind_congr_ok fun off _ => ?_
    unfold enaLlqRead
    rw [hllq]
  | false =>
    have hsame : enaDmaRead w' (sq.hostSlot slot) EnaTxDesc.size =
      enaDmaRead w (sq.hostSlot slot) EnaTxDesc.size := hread hl
    unfold EnaSq.hostSlot at hsame
    simp only [Bool.false_eq_true, if_false]
    rw [hsame]

lemma TxLooksAt.congr {P : ℕ → Prop} {n : ℕ}
    (h : TxLooksAt w i sq (fun slot => P slot ∧
      enaTxReadSlot w' i sq slot = enaTxReadSlot w i sq slot)
      n slot) : TxLooksAt w' i sq P n slot := by
  induction n generalizing slot with
  | zero => trivial
  | succ n ih =>
    intro hposted
    obtain ⟨⟨hp,hsame⟩,hnext⟩ := h hposted
    exact ⟨hp,fun d hd hon => ih (hnext d (hsame ▸ hd) hon)⟩

/-- The cached meta descriptor does not matter to the parser. -/
lemma enaTxParseFrom_meta (w : World) (i : SqIdx) (sq : EnaSq) (m : EnaTxMeta) (n slot : ℕ)
    (p : EnaTxPkt) : enaTxParseFrom w i { sq with txMeta := m } n slot p =
      enaTxParseFrom w i sq n slot p := by
  induction n generalizing slot p with
  | zero => rfl
  | succ n ih =>
    have hposted : enaTxSlotPosted { sq with txMeta := m } slot (sq.tail - sq.head) =
      enaTxSlotPosted sq slot (sq.tail - sq.head) := rfl
    have hread : enaTxReadSlot w i { sq with txMeta := m } slot = enaTxReadSlot w i sq slot := rfl
    rw [enaTxParseFrom,enaTxParseFrom,hposted,hread]
    simp only [ih]

lemma enaTxParseFrom_single {d : EnaTxDesc} (hd : enaTxReadSlot w i sq 0 = .ok d)
    (hmeta : d.isMeta = false) (hfirst : d.isFirst = true) (hlast : d.isLast = true)
    (hend : sq.head + 1 = sq.tail) (n : ℕ) :
    enaTxParseFrom w i sq (n+1) 0 EnaTxPkt.zero =
      .ok (some { EnaTxPkt.zero with desc := [d], slots := 1 }) := by
  have hposted : enaTxSlotPosted sq 0 (sq.tail - sq.head) = .ok true := by
    have hone : sq.tail - sq.head = 1 := by grind
    rw [hone]
    unfold enaTxSlotPosted
    cases sq.llq <;> rfl
  rw [enaTxParseFrom,hposted]
  change (enaTxReadSlot w i sq 0 >>= _) = _
  rw [hd]
  change (if d.isMeta then _ else if _ ∧ _ ∧ _ then _ else _) = _
  rw [hmeta,hfirst]
  change (if d.isLast then _ else _) = _
  rw [hlast]
  rfl

/-- A burst of one packet in a single descriptor. -/
lemma txApart_single {d : EnaTxDesc} {writes : UInt64 → Prop} (hd : enaTxReadSlot w i sq 0 = .ok d)
    (hmeta : d.isMeta = false) (hfirst : d.isFirst = true) (hlast : d.isLast = true)
    (hend : sq.head + 1 = sq.tail)
    (hdesc : ∀ x, InRegion (sq.hostSlot 0) EnaTxDesc.size x → ¬ writes x)
    (hbuf : ∀ x, InRegion d.addr d.len x → ¬ writes x) : TxApart w i sq writes := by
  have hp := enaTxParseFrom_single hd hmeta hfirst hlast hend enaMaxPktDescs
  have hn : enaTxPktEntries sq 1 = .ok 1 := by
    unfold enaTxPktEntries
    cases sq.llq <;> rfl
  have hheads : ∀ head, TxHead w i sq head → head = sq.head ∨ head = sq.tail := by
    intro head h
    induction h with
    | start => exact .inl rfl
    | @next head p' n h hne hp' hn' ih =>
      obtain rfl := ih.resolve_right hne
      obtain rfl := Option.some.inj (Except.ok.inj (hp.symm.trans hp'))
      obtain rfl := Except.ok.inj (hn.symm.trans hn')
      exact .inr hend
  have hempty : enaTxParseFrom w i { sq with head := sq.tail } (enaMaxPktDescs+1) 0 EnaTxPkt.zero =
      .ok none := by
    have hposted : enaTxSlotPosted { sq with head := sq.tail } 0 (sq.tail - sq.tail) =
        .ok false := by
      rw [UInt16.sub_self]
      unfold enaTxSlotPosted
      cases sq.llq <;> rfl
    rw [enaTxParseFrom,hposted]
    rfl
  refine ⟨fun head hhead hne => ?_,fun head p' hhead hp' e he => ?_⟩
  · obtain rfl := (hheads head hhead).resolve_right hne
    refine fun _ => ⟨fun _ => hdesc,fun d' hd' hon => ?_⟩
    obtain rfl := Except.ok.inj (hd.symm.trans hd')
    rcases hon with ⟨h,-⟩ | ⟨-,h,-⟩
    · exact absurd h (by rw [hmeta]; decide)
    · exact absurd h (by rw [hlast]; decide)
  · rcases hheads head hhead with rfl | rfl
    · obtain rfl := Option.some.inj (Except.ok.inj (hp.symm.trans hp'))
      obtain rfl := List.mem_singleton.mp he
      exact hbuf
    · cases hempty.symm.trans hp'

/-- Descriptors and buffers are read from memory and from LLQ memory only. -/
lemma TxHead.of_mem (hmem : w'.mem = w.mem) (hllq : w'.llq = w.llq) {head : UInt16}
    (h : TxHead w i sq head) :
    TxHead w' i sq head := by
  induction h with
  | start => exact .start
  | @next head p n h hne hp hn ih =>
    refine .next ih hne ?_ hn
    rw [← hp]
    exact enaTxParseFrom_congr (fun _ => rfl)
      (txLooksAt_of_all (fun slot => enaTxReadSlot_congr hllq fun _ => by rw [hmem]) _ _)

lemma TxApart.of_mem (hmem : w'.mem = w.mem) (hllq : w'.llq = w.llq) {writes : UInt64 → Prop}
    (h : TxApart w i sq writes) : TxApart w' i sq writes := by
  have hread : ∀ (sq : EnaSq) slot, enaTxReadSlot w' i sq slot = enaTxReadSlot w i sq slot :=
    fun sq slot => enaTxReadSlot_congr hllq fun _ => by rw [hmem]
  refine ⟨fun head hhead hne => ?_,fun head p hhead hp => ?_⟩
  · refine TxLooksAt.congr (w := w) ?_
    exact (h.desc head (hhead.of_mem hmem.symm hllq.symm) hne).mono fun slot hout =>
      ⟨hout,hread _ slot⟩
  · refine h.buf head p (hhead.of_mem hmem.symm hllq.symm) ?_
    rw [← hp]
    exact (enaTxParseFrom_congr (fun _ => rfl) (txLooksAt_of_all (hread _) _ _)).symm

end Reads

section Change
variable {i j : SqIdx} {c d : CqIdx} {w w' : World}

lemma counter_comm (x y n : UInt64) : x + y + n = x + n + y := by
  rw [UInt64.add_assoc,UInt64.add_comm y,← UInt64.add_assoc]

lemma txChange_sparesTx (hne : i ≠ j) : (txChange j d w w').SparesTx i where
  sq _ := Function.update_of_ne hne _ _
  setSq s q := by
    unfold txChange EnaState.setSq
    simp only [Function.update_comm hne.symm]
  macaddr _ := rfl
  mtu _ := rfl
  txDrops s := by
    unfold txChange
    simp only [counter_comm _ 1]
  txCount s n := by
    unfold txChange
    simp only [counter_comm _ 1,counter_comm _ n]

/-- The CQ of another queue, bound to another vector and with a ring elsewhere, is left alone. -/
lemma txChange_sparesRing {q : EnaCq} (hne : c ≠ d)
    (hvec : ∀ v, q.vec = some v → (w.dev.cq d).vec ≠ some v) (hok : q.Ok)
    (hring : ∀ x, q.InRing x → ¬ (w.dev.cq d).InRing x) :
    (txChange j d w w').SparesRing c q where
  cq := by
    refine ⟨fun s => Function.update_of_ne hne _ _,fun s q => ?_⟩
    unfold txChange EnaState.setCq
    simp only [Function.update_comm hne.symm]
  irq v hv := by
    refine ⟨fun s => if_neg (hvec v hv),fun s irq => ?_⟩
    unfold txChange EnaState.setIrq
    simp only
    congr 1
    funext u
    by_cases hu : u = v
    · subst hu
      rw [if_neg (hvec u hv),Function.update_self,Function.update_self]
    · rw [Function.update_of_ne hu,Function.update_of_ne hu]
  write m data hlen := by
    unfold txChange Memory.write
    simp only
    congr 1
    funext x
    by_cases hx : (w.dev.cq d).InRing x
    · -- the written entry is not in the other ring
      have hout : ¬ (x - q.slotAddr).toNat < data.length := by
        intro hin
        exact hring x (hok.slot_within x (Nat.lt_of_lt_of_le hin hlen)) hx
      rw [if_pos hx,if_pos hx,List.getElem?_eq_none (by omega),Option.getD_none]
    · rw [if_neg hx,if_neg hx]

lemma txChange_agrees (m : Memory) :
    Memory.Agrees (w.dev.cq d).InRing m ((txChange j d w w').mem m) :=
  ⟨rfl,fun _ hx => if_neg hx⟩

lemma txChange_reads {m : Memory} {a : UInt64} {n : ℕ}
    (hout : ∀ x, InRegion a n x → ¬ (w.dev.cq d).InRing x) : (txChange j d w w').Reads m a n :=
  ⟨(txChange_agrees m).okAt a n,fun _ => (txChange_agrees m).bytesAt hout⟩

/-- The change of a doorbell, worn by the world it started from, gives the world it ended in. -/
lemma TxFrame.wear (h : TxFrame j d w w') :
    (txChange j d w w').wear { w with trace := [] } = w' := by
  obtain ⟨_,_,_,hsq⟩ := h.sq
  obtain ⟨_,_,hcq⟩ := h.cq
  have hcount : ∀ x y : UInt64, x + (y - x) = y := fun x y => by grind
  have hdev : (txChange j d w w').dev w.dev = w'.dev := by
    have hirq : (fun v => if (w.dev.cq d).vec = some v then w'.dev.irq v else w.dev.irq v) =
        w'.dev.irq := by
      funext v
      split_ifs with hv
      · rfl
      · exact (h.irq v hv).symm
    have hsq' : Function.update w.dev.sq j (w'.dev.sq j) = w'.dev.sq := by
      rw [hsq,Function.update_self]
    have hcq' : Function.update w.dev.cq d (w'.dev.cq d) = w'.dev.cq := by
      rw [hcq,Function.update_self]
    unfold txChange
    simp only [hsq',hcq',hirq,hcount]
    exact h.rest.symm
  have hmem : (txChange j d w w').mem w.mem = w'.mem := by
    have hbyte : (fun x => if (w.dev.cq d).InRing x then w'.mem.byte x else w.mem.byte x) =
        w'.mem.byte := by
      funext x
      split_ifs with hx
      · rfl
      · exact (h.mem.byte x hx).symm
    unfold txChange
    simp only [hbyte]
    rw [← h.mem.readable,← h.stale]
  unfold Guise.wear
  simp only [hdev,hmem,← h.llq,← h.clock,← h.linkUp]
  unfold txChange
  simp

end Change

section Loop
variable {net : Net} {i j : SqIdx} {c d : CqIdx} {w w' u u' b : World}

/-- The head moves to the next packet, or the burst is over. -/
lemma TxStepped.head (h : TxStepped i u u') : (u'.dev.sq i).head = (u'.dev.sq i).tail ∨
    ∃ n, u.TxNext i n ∧ (u'.dev.sq i).head = (u.dev.sq i).head + UInt16.ofNat n := by
  cases h with
  | discarded =>
    left
    rw [txTaken_sq]
    change (u.dev.sq i).head + UInt16.ofNat ((u.dev.sq i).tail - (u.dev.sq i).head).toNat =
      (u.dev.sq i).tail
    rw [UInt16.ofNat_toNat]
    grind
  | taken m n hn hq =>
    refine .inr ⟨n,hn,?_⟩
    rw [txTaken_sq,hq.sq]
  | completed m n hn hq =>
    refine .inr ⟨n,hn,?_⟩
    rw [txCompleted_sq,txTaken_sq,hq.sq]

/-- In the middle of serving the burst that was posted in `b`. -/
structure TxServing (i : SqIdx) (b u : World) : Prop where
  ran : TxRan i b u
  head : (u.dev.sq i).head = (u.dev.sq i).tail ∨ TxHead b i (b.dev.sq i) (u.dev.sq i).head

/-- What the parser makes of the head packet is what it would have made of it at the start. -/
lemma TxServing.parse (h : TxServing i b u) (hframe : TxFrame i c b u)
    (hne : (u.dev.sq i).head ≠ (u.dev.sq i).tail)
    (hapart : TxApart b i (b.dev.sq i) fun x => (b.dev.cq c).InRing x ∨ (w.dev.cq d).InRing x)
    (hji : i ≠ j) :
    enaTxParse u i = enaTxParseFrom b i { b.dev.sq i with head := (u.dev.sq i).head }
      (enaMaxPktDescs+1) 0
        EnaTxPkt.zero ∧
      enaTxParse ((txChange j d w w').wear u) i = enaTxParse u i := by
  have hhead := h.head.resolve_left hne
  obtain ⟨hd,m,hsq⟩ := TxRan.sq h.ran
  have hhd : (u.dev.sq i).head = hd := by rw [hsq]
  have htail : hd ≠ (b.dev.sq i).tail := by
    rw [hsq] at hne
    exact hne
  rw [hhd] at hhead ⊢
  have hlooks := hapart.desc hd hhead htail
  have hreads : TxLooksAt b i { b.dev.sq i with head := hd } (fun slot =>
      enaTxReadSlot ((txChange j d w w').wear u) i { b.dev.sq i with head := hd } slot =
        enaTxReadSlot u i { b.dev.sq i with head := hd } slot ∧
      enaTxReadSlot u i { b.dev.sq i with head := hd } slot =
        enaTxReadSlot b i { b.dev.sq i with head := hd } slot) (enaMaxPktDescs+1) 0 := by
    refine hlooks.mono fun slot hout => ⟨?_,?_⟩
    · exact enaTxReadSlot_congr rfl fun hl => (txChange_agrees (j := j) u.mem).read rfl
        fun x hx hin => hout hl x hx (.inr hin)
    · exact enaTxReadSlot_congr hframe.llq fun hl => hframe.mem.read hframe.stale
        fun x hx hin => hout hl x hx (.inl hin)
  have hparse : enaTxParse u i = enaTxParseFrom u i { b.dev.sq i with head := hd }
    (enaMaxPktDescs+1) 0
      EnaTxPkt.zero := by
    unfold enaTxParse
    rw [hsq]
    exact enaTxParseFrom_meta u i { b.dev.sq i with head := hd } m _ _ _
  constructor
  · rw [hparse]
    exact enaTxParseFrom_congr (fun _ => rfl) (hreads.mono fun _ hs => hs.2)
  · have hsq' : ((txChange j d w w').wear u).dev.sq i = u.dev.sq i :=
      (txChange_sparesTx hji).sq u.dev
    rw [hparse]
    unfold enaTxParse
    rw [hsq',hsq]
    rw [enaTxParseFrom_meta _ i { b.dev.sq i with head := hd } m]
    exact enaTxParseFrom_congr (fun _ => rfl) hreads.congr

/-- The other doorbell: its CQ and vector are others, and its ring is apart from this queue's ring,
descriptors and buffers. -/
structure TxIndependent (i j : SqIdx) (c d : CqIdx) (b w : World) : Prop where
  sq : i ≠ j
  cq : c ≠ d
  vec : ∀ v, (b.dev.cq c).vec = some v → (w.dev.cq d).vec ≠ some v
  ring : ∀ x, (b.dev.cq c).InRing x → ¬ (w.dev.cq d).InRing x
  apart : TxApart b i (b.dev.sq i) fun x => (b.dev.cq c).InRing x ∨ (w.dev.cq d).InRing x

lemma wear_txDoorbellLoop (hi : TxIndependent i j c d b w) (hb : TableInv b.dev)
    (hu : (b.dev.sq i).used = true) (htx : (b.dev.sq i).isTx = true)
    (hc : (b.dev.sq i).cqIdx.toNat = c.val) (n : ℕ) (h : TxServing i b u) :
    enaTxDoorbellLoop net i n ((txChange j d w w').wear u) =
      (enaTxDoorbellLoop net i n u).map (txChange j d w w').wear := by
  have hspares : (txChange j d w w').SparesTx i := txChange_sparesTx hi.sq
  have hend : (((txChange j d w w').wear u).dev.sq i).head =
    (((txChange j d w w').wear u).dev.sq i).tail ↔
      (u.dev.sq i).head = (u.dev.sq i).tail := by
    rw [Guise.wear_dev,hspares.sq]
  induction n generalizing u with
  | zero =>
    rw [enaTxDoorbellLoop,enaTxDoorbellLoop]
    exact ite_map hend (fun _ => rfl) fun _ => rfl
  | succ n ih =>
    rw [enaTxDoorbellLoop,enaTxDoorbellLoop]
    refine ite_map hend (fun _ => rfl) fun hne => ?_
    have hpath : Path b (.regWrite (regSqDbBase + 4*i.val) 0) b u :=
      h.ran.path hb htx (doorbell_regWrite i 0)
    have hw := hpath.tableInv hb
    obtain ⟨hd,m,hsq⟩ := TxRan.sq h.ran
    have huu : (u.dev.sq i).used = true := by rw [hsq]; exact hu
    have hframe : TxFrame i c b u := h.ran.frame hb htx hc
    obtain ⟨hparse,hsame⟩ := h.parse hframe hne hi.apart hi.sq
    have hbuf : ∀ p, enaTxParse u i = .ok (some p) → ∀ e ∈ p.desc,
        (txChange j d w w').Reads u.mem e.addr e.len := by
      intro p hp e he
      refine txChange_reads fun x hx hin => ?_
      exact hi.apart.buf _ p (h.head.resolve_left hne) (hparse.symm.trans hp) e he x hx (.inr hin)
    have hring : ∀ c', cqAt (u.dev.sq i).cqIdx = .ok c' →
        (txChange j d w w').SparesRing c' (u.dev.cq c') := by
      intro c' hc'
      have hcu : (u.dev.sq i).cqIdx.toNat = c.val := by rw [hsq]; exact hc
      obtain rfl : c = c' := Except.ok.inj ((cqAt_eq hcu).symm.trans hc')
      obtain ⟨c'',hc'',huc,-⟩ := (hw.sq i huu).cq
      obtain rfl : c = c'' := Fin.ext (hcu.symm.trans hc'')
      obtain ⟨tail,phase,hcq⟩ := hframe.cq_eq
      have hok := hw.cq c huc
      rw [hcq] at hok ⊢
      exact txChange_sparesRing hi.cq hi.vec hok hi.ring
    refine bind_map (Guise.wear_txDoorbellStep hspares hw huu hsame hbuf hring) fun u₁ hu₁ => ?_
    have hstep := (enaTxDoorbellStep_cases (E := fun _ => True) net hw huu).of_ok hu₁
    have hserving : TxServing i b u₁ := by
      refine ⟨h.ran.tail hstep,hstep.head.imp id ?_⟩
      rintro ⟨k,hk,hhead⟩
      obtain ⟨p,hp,hn⟩ := hk.packet
      rw [hhead]
      refine .next (h.head.resolve_left hne) ?_ (hparse.symm.trans hp) ?_
      · rw [hsq] at hne ⊢
        exact hne
      · rw [hsq] at hn
        exact hn
    refine ih hserving ?_
    rw [Guise.wear_dev,hspares.sq]

/-- The same doorbell, rung in the world that the other doorbell has changed. -/
lemma wear_sqDoorbell {val : UInt32} (hw : TableInv u.dev)
    (hu : (u.dev.sq i).used = true) (htx : (u.dev.sq i).isTx = true)
    (hc : (u.dev.sq i).cqIdx.toNat = c.val)
    (hi : val.toUInt16 - (u.dev.sq i).head ≤ (u.dev.sq i).depth →
      TxIndependent i j c d (u.setSq i { u.dev.sq i with tail := val.toUInt16 }) w) (hij : i ≠ j)
    (hcd : c ≠ d) :
    enaSqDoorbell net ((txChange j d w w').wear u) i val =
      (enaSqDoorbell net u i val).map (txChange j d w w').wear := by
  have hspares : (txChange j d w w').SparesTx i := txChange_sparesTx hij
  have hsq : ((txChange j d w w').wear u).dev.sq i = u.dev.sq i := hspares.sq u.dev
  unfold enaSqDoorbell
  dsimp only
  rw [hsq]
  refine ite_map Iff.rfl (fun _ => rfl) fun _ => ite_map Iff.rfl (fun _ => rfl) fun hcount => ?_
  replace hcount := UInt16.not_lt.mp hcount
  have htail : Effect u (.regWrite (regSqDbBase + 4*i.val) 0) u
      (u.setSq i { u.dev.sq i with tail := val.toUInt16 }) :=
    .sqTail i val.toUInt16 (doorbell_regWrite i 0) hcount
  have hset : ((txChange j d w w').wear u).setSq i { u.dev.sq i with tail := val.toUInt16 } =
      (txChange j d w w').wear (u.setSq i { u.dev.sq i with tail := val.toUInt16 }) :=
    Guise.wear_setDev (hspares.setSq _ _).symm
  rw [if_pos htx,if_pos htx,hset]
  have hb := htail.tableInv hw
  have hi := hi hcount
  generalize hbe : u.setSq i { u.dev.sq i with tail := val.toUInt16 } = b at hb hi
  have hbsq : b.dev.sq i = { u.dev.sq i with tail := val.toUInt16 } := by
    rw [← hbe]
    exact World.setSq_sq _ _ _
  have hub : (b.dev.sq i).used = true := by rw [hbsq]; exact hu
  have htxb : (b.dev.sq i).isTx = true := by rw [hbsq]; exact htx
  have hcb : (b.dev.sq i).cqIdx.toNat = c.val := by rw [hbsq]; exact hc
  have hsqb : ((txChange j d w w').wear b).dev.sq i = b.dev.sq i := hspares.sq b.dev
  have hcqb : ((txChange j d w w').wear b).dev.cq c = b.dev.cq c := Function.update_of_ne hcd _ _
  unfold enaTxDoorbell
  dsimp only
  rw [hsqb]
  refine bind_same rfl fun _ _ => bind_same rfl fun c' hc' => ?_
  obtain rfl : c = c' := Except.ok.inj ((cqAt_eq hcb).symm.trans hc')
  rw [hcqb]
  refine ite_map Iff.rfl (fun _ => rfl) fun _ => ?_
  exact wear_txDoorbellLoop hi hb hub htxb hcb _ ⟨.refl,.inr .start⟩

end Loop

/-- The doorbell of an SQ. -/
def sqDoorbell (i : SqIdx) (val : UInt64) : Input := .regWrite (regSqDbBase + 4*i.val) val

def Event.isDmaWrite : Event → Bool
  | .dmaWrite .. => true
  | _ => false

/-- The frames and interrupts among some events, in their order. -/
def outward (es : List Event) : List Event := es.filter fun e => !e.isDmaWrite

lemma outward_event (g : Guise) (es : List Event) : outward (es.map g.event) = outward es := by
  unfold outward
  induction es with
  | nil => rfl
  | cons e es ih =>
    have he : (g.event e).isDmaWrite = e.isDmaWrite := by cases e <;> rfl
    rw [List.map_cons,List.filter_cons,List.filter_cons,he,ih]
    cases e <;> rfl

/-- Either order of two inputs ends in the same state and memory, and each of the two sends the same
frames and interrupts in both orders. -/
def InputsCommute (net : Net) (w : World) (a b : Input) : Prop :=
  ∃ wa wb wab wba ea eb ea' eb', step net w a = .ok wa ∧ step net wa b = .ok wab ∧
    step net w b = .ok wb ∧ step net wb a = .ok wba ∧ wab.dev = wba.dev ∧ wab.mem = wba.mem ∧
    wa.trace = w.trace ++ ea ∧ wab.trace = wa.trace ++ eb' ∧
    wb.trace = w.trace ++ eb ∧ wba.trace = wb.trace ++ ea' ∧
    outward ea' = outward ea ∧ outward eb' = outward eb

/-- What the doorbell of a TX queue looks at, unless it is ignored, is outside the given
addresses. -/
def TxClear (w : World) (i : SqIdx) (val : UInt64) (writes : UInt64 → Prop) : Prop :=
  val.toUInt32.toUInt16 - (w.dev.sq i).head ≤ (w.dev.sq i).depth →
    TxApart w i { w.dev.sq i with tail := val.toUInt32.toUInt16 } writes

/-- Two CQs on different vectors, with disjoint rings that are also outside of what the doorbells of
their TX queues look at. -/
structure TxDisjoint (w : World) (i j : SqIdx) (c d : CqIdx) (x y : UInt64) : Prop where
  cq : c ≠ d
  vec : ∀ v, (w.dev.cq c).vec = some v → (w.dev.cq d).vec ≠ some v
  ring : ∀ x, (w.dev.cq c).InRing x → ¬ (w.dev.cq d).InRing x
  left : TxClear w i x fun a => (w.dev.cq c).InRing a ∨ (w.dev.cq d).InRing a
  right : TxClear w j y fun a => (w.dev.cq c).InRing a ∨ (w.dev.cq d).InRing a

/-- A TX queue with its CQ. -/
structure TxQueue (s : EnaState) (i : SqIdx) (c : CqIdx) : Prop where
  used : (s.sq i).used = true
  isTx : (s.sq i).isTx = true
  cqIdx : (s.sq i).cqIdx.toNat = c.val

section Commute
variable {net : Net} {i j : SqIdx} {c d : CqIdx} {w w' u u' : World} {x y : UInt64}

lemma TxDisjoint.symm (h : TxDisjoint w i j c d x y) : TxDisjoint w j i d c y x where
  cq := h.cq.symm
  vec v hd hc := h.vec v hc hd
  ring a hd hc := h.ring a hc hd
  left hy := by
    have hr := h.right hy
    simp only [or_comm] at hr ⊢
    exact hr
  right hx := by
    have hl := h.left hx
    simp only [or_comm] at hl ⊢
    exact hl

lemma TxDisjoint.sq (h : TxDisjoint w i j c d x y) (hi : TxQueue w.dev i c)
    (hj : TxQueue w.dev j d) :
    i ≠ j := by
  rintro rfl
  exact h.cq (Fin.ext (hi.cqIdx.symm.trans hj.cqIdx))

lemma step_sqDoorbell (net : Net) (w : World) (i : SqIdx) (val : UInt64) :
    step net w (sqDoorbell i val) = enaSqDoorbell net w i val.toUInt32 :=
      enaRegWrite_doorbell net w i val

lemma TxQueue.frame (h : TxQueue w.dev i c) (net : Net) (hw : TableInv w.dev) (val : UInt64) :
    ∃ w', step net w (sqDoorbell i val) = .ok w' ∧ TxFrame i c w w' := by
  rw [step_sqDoorbell]
  exact (enaSqDoorbell_frame net val.toUInt32 hw h.used h.isTx h.cqIdx).exists_ok

/-- The second of two independent doorbells does what it would have done alone. -/
lemma TxDisjoint.second (h : TxDisjoint w i j c d x y) (hw : TableInv w.dev)
    (hi : TxQueue w.dev i c) (hj : TxQueue w.dev j d)
    (hu : step net { w with trace := [] } (sqDoorbell i x) = .ok u) (hframe : TxFrame j d w w') :
    step net w' (sqDoorbell i x) = .ok ((txChange j d w w').wear u) := by
  have hind : x.toUInt32.toUInt16 - (w.dev.sq i).head ≤ (w.dev.sq i).depth → TxIndependent i j c d
      ({ w with trace := [] }.setSq i { w.dev.sq i with tail := x.toUInt32.toUInt16 }) w := by
    intro hcount
    refine ⟨h.sq hi hj,h.cq,h.vec,h.ring,?_⟩
    have hsq : ({ w with trace := [] }.setSq i
      { w.dev.sq i with tail := x.toUInt32.toUInt16 }).dev.sq i =
      { w.dev.sq i with tail := x.toUInt32.toUInt16 } := World.setSq_sq _ _ _
    rw [hsq]
    refine TxApart.of_mem (w := w) ?_ ?_ (h.left hcount)
    · rfl
    · rfl
  rw [step_sqDoorbell] at hu ⊢
  conv_lhs => rw [← hframe.wear]
  rw [wear_sqDoorbell (u := { w with trace := [] }) hw hi.used hi.isTx hi.cqIdx hind
    (h.sq hi hj) h.cq,hu]
  rfl

lemma TxDisjoint.dev_comm (h : TxDisjoint w i j c d x y) (hij : i ≠ j) (s : EnaState) :
    (txChange j d w u').dev ((txChange i c w u).dev s) = (txChange i c w u).dev
      ((txChange j d w u').dev s) := by
  have hirq : ∀ v (p q r : EnaIrq), (if (w.dev.cq d).vec = some v then p
      else if (w.dev.cq c).vec = some v then q else r) =
      if (w.dev.cq c).vec = some v then q else if (w.dev.cq d).vec = some v then p else r := by
    intro v p q r
    split_ifs with hd hc
    · exact absurd hd (h.vec v hc)
    · rfl
    · rfl
    · rfl
  unfold txChange
  simp only [Function.update_comm hij,Function.update_comm h.cq,hirq,counter_comm]

lemma TxDisjoint.mem_comm (h : TxDisjoint w i j c d x y) (m : Memory) :
    (txChange j d w u').mem ((txChange i c w u).mem m) = (txChange i c w u).mem
      ((txChange j d w u').mem m) := by
  unfold txChange
  simp only
  congr 1
  funext a
  split_ifs with hd hc
  · exact absurd hd (h.ring a hc)
  · rfl
  · rfl
  · rfl

/-- A doorbell alone, with its events. -/
lemma TxQueue.alone (h : TxQueue w.dev i c) (net : Net) (hw : TableInv w.dev) (val : UInt64) :
    ∃ u, step net { w with trace := [] } (sqDoorbell i val) = .ok u ∧
      step net w (sqDoorbell i val) = .ok (u.after w.trace) ∧ TxFrame i c w (u.after w.trace) := by
  obtain ⟨w',hstep,hframe⟩ := h.frame net hw val
  have hafter : { w with trace := [] }.after w.trace = w := by
    unfold World.after
    simp only [List.append_nil]
  have hmap : step net ({ w with trace := [] }.after w.trace) (sqDoorbell i val) =
    (step net { w with trace := [] } (sqDoorbell i val)).map (World.after w.trace) :=
      step_after w.trace hw
  rw [hafter,hstep] at hmap
  cases hu : step net { w with trace := [] } (sqDoorbell i val) with
  | error f =>
    rw [hu] at hmap
    cases hmap
  | ok u =>
    rw [hu] at hmap
    obtain rfl : w' = u.after w.trace := Except.ok.inj hmap
    exact ⟨u,rfl,hstep,hframe⟩

lemma TxDisjoint.commute (h : TxDisjoint w i j c d x y) (hw : TableInv w.dev)
    (hi : TxQueue w.dev i c) (hj : TxQueue w.dev j d) : InputsCommute net w (sqDoorbell i x)
    (sqDoorbell j y) := by
  obtain ⟨u,hu,hstepi,hframei⟩ := hi.alone net hw x
  obtain ⟨v,hv,hstepj,hframej⟩ := hj.alone net hw y
  have hji := h.second hw hi hj hu hframej
  have hij := h.symm.second hw hj hi hv hframei
  -- each doorbell alone makes its change to the state they both start from
  have hui : u.dev = (txChange i c w (u.after w.trace)).dev w.dev :=
    (congrArg World.dev hframei.wear).symm
  have huj : v.dev = (txChange j d w (v.after w.trace)).dev w.dev :=
    (congrArg World.dev hframej.wear).symm
  have hmi : u.mem = (txChange i c w (u.after w.trace)).mem w.mem :=
    (congrArg World.mem hframei.wear).symm
  have hmj : v.mem = (txChange j d w (v.after w.trace)).mem w.mem :=
    (congrArg World.mem hframej.wear).symm
  refine ⟨_,_,_,_,u.trace,v.trace,_,_,hstepi,hij,hstepj,hji,?_,?_,rfl,rfl,rfl,rfl,
    outward_event _ _,outward_event _ _⟩
  · rw [Guise.wear_dev,Guise.wear_dev,huj,hui]
    exact (h.dev_comm (h.sq hi hj) w.dev).symm
  · rw [Guise.wear_mem,Guise.wear_mem,hmj,hmi]
    exact (h.mem_comm w.mem).symm

/-- The doorbell of a TX queue stays in the frame of its queue, and doorbells of independent queues
commute. -/
theorem tx_doorbells_isolated (h : Reachable net w) :
    (∀ i val, (w.dev.sq i).used = true → (w.dev.sq i).isTx = true →
      ∃ c w', TxQueue w.dev i c ∧ step net w (sqDoorbell i val) = .ok w' ∧ TxFrame i c w w') ∧
    ∀ i j c d x y, TxQueue w.dev i c → TxQueue w.dev j d → TxDisjoint w i j c d x y →
      InputsCommute net w (sqDoorbell i x) (sqDoorbell j y) := by
  refine ⟨fun i val hu htx => ?_,fun _ _ _ _ _ _ hi hj hd => hd.commute h.tables.1 hi hj⟩
  obtain ⟨c,hc,-⟩ := (h.tables.1.sq i hu).cq
  have hi : TxQueue w.dev i c := ⟨hu,htx,hc⟩
  obtain ⟨w',hstep,hframe⟩ := hi.frame net h.tables.1 val
  exact ⟨c,w',hi,hstep,hframe⟩

/-- Two CQs on vectors 1 and 2, each with a TX queue, and a descriptor in each of the queues. -/
def twoTxQueues : List Input := driverSetup
  [createCqCmd,pad 64 ([0,0,3,0,0x20,4] ++ ofLe16 16 ++ ofLe32 2 ++ ofLe32 0x5000),
    createSqCmd sqIdentityTx,pad 64
      ([1,0,1,0,sqIdentityTx,0,1,1] ++ ofLe16 1 ++ ofLe16 16 ++ ofLe32 0x6000)]
  [(0x4000,ofLe32 0x1c000010 ++ ofLe32 0 ++ ofLe32 0x7000),
    (0x6000,ofLe32 0x1c000020 ++ ofLe32 0 ++ ofLe32 0x8000)]

def twoTxCq (base : UInt64) (vec : UInt32) : EnaCq := ⟨true,base,16,16,true,vec,0,true⟩

def twoTxSq (base : UInt64) (cqIdx : UInt16) : EnaSq :=
  ⟨true,true,false,cqIdx,base,16,0,0,1,EnaTxMeta.zero⟩

/-- Regions between the two rings, or behind both. -/
lemma twoTxCq_apart {a : UInt64} {n : ℕ}
    (h : 0x3100 ≤ a.toNat ∧ a.toNat + n ≤ 0x5000 ∨ 0x5100 ≤ a.toNat ∧ a.toNat + n ≤ 2^64)
    (x : UInt64) (hx : InRegion a n x) :
    ¬ ((twoTxCq 0x3000 1).InRing x ∨ (twoTxCq 0x5000 2).InRing x) := by
  rintro (hc | hd)
  · have hap : Apart 0x3000 0x100 a n :=
      apart_of_le (by change 0x3000 + 0x100 ≤ a.toNat; omega) (by omega)
    exact hap x hc hx
  · rcases h with h | h
    · exact apart_of_le (b := 0x5000) (m := 0x100) h.2 (by decide) x hx hd
    · have hap : Apart 0x5000 0x100 a n :=
        apart_of_le (by change 0x5000 + 0x100 ≤ a.toNat; omega) h.2
      exact hap x hd hx

theorem tx_doorbells_isolated_two :
    ∃ w, run Net.nonIp freshWorld twoTxQueues = .ok w ∧ TxQueue w.dev 0 0 ∧ TxQueue w.dev 1 1 ∧
      TxDisjoint w 0 1 0 1 1 1 ∧ InputsCommute Net.nonIp w (sqDoorbell 0 1) (sqDoorbell 1 1) := by
  obtain ⟨w,hrun,htest⟩ := exists_of_okAnd (p := fun w : World =>
      decide ({ w.dev.sq 0 with tail := 1 } = twoTxSq 0x4000 0 ∧
        { w.dev.sq 1 with tail := 1 } = twoTxSq 0x6000 1 ∧
        w.dev.cq 0 = twoTxCq 0x3000 1 ∧ w.dev.cq 1 = twoTxCq 0x5000 2 ∧
        enaTxReadSlot w 0 (twoTxSq 0x4000 0) 0 = .ok ⟨0x1c000010,0,0x7000,0⟩ ∧
        enaTxReadSlot w 1 (twoTxSq 0x6000 1) 0 = .ok ⟨0x1c000020,0,0x8000,0⟩))
    (x := run Net.nonIp freshWorld twoTxQueues) (by decide +kernel)
  obtain ⟨hsq,hsq',hcq,hcq',hread,hread'⟩ := of_decide_eq_true htest
  have hi : TxQueue w.dev 0 0 := by
    have hsq := congrArg (fun q => (q.used,q.isTx,q.cqIdx)) hsq
    simp only [twoTxSq,Prod.mk.injEq] at hsq
    exact ⟨hsq.1,hsq.2.1,by rw [hsq.2.2]; rfl⟩
  have hj : TxQueue w.dev 1 1 := by
    have hsq' := congrArg (fun q => (q.used,q.isTx,q.cqIdx)) hsq'
    simp only [twoTxSq,Prod.mk.injEq] at hsq'
    exact ⟨hsq'.1,hsq'.2.1,by rw [hsq'.2.2]; rfl⟩
  have hd : TxDisjoint w 0 1 0 1 1 1 := by
    refine ⟨by decide,?_,?_,fun _ => ?_,fun _ => ?_⟩
    · rw [hcq,hcq']
      decide
    · rw [hcq,hcq']
      intro x hx hx'
      exact apart_of_le (a := 0x3000) (b := 0x5000) (n := 0x100) (m := 0x100) (by decide)
        (by decide) x hx hx'
    · rw [hcq,hcq']
      change TxApart w 0 { w.dev.sq 0 with tail := 1 } _
      rw [hsq]
      exact txApart_single hread (by decide) (by decide) (by decide) (by decide)
        (twoTxCq_apart (by decide)) (twoTxCq_apart (by decide))
    · rw [hcq,hcq']
      change TxApart w 1 { w.dev.sq 1 with tail := 1 } _
      rw [hsq']
      exact txApart_single hread' (by decide) (by decide) (by decide) (by decide)
        (twoTxCq_apart (by decide)) (twoTxCq_apart (by decide))
  exact ⟨w,hrun,hi,hj,hd,(tx_doorbells_isolated (reachable_of_run hrun)).2 _ _ _ _ _ _ hi hj hd⟩

end Commute
end EnaDevice
