import EnaDevice.Lib.Ledger
import EnaDevice.Rx.Delivery
import EnaDevice.Rx.Flush
import EnaDevice.Tx.Genuine

/-! Room for completions. A driver reads completions when it likes; how many can be waiting in a CQ
is decided by how many descriptors it has posted to the SQs that complete into it. -/
namespace EnaDevice
open Bytes Result Relation

/-- The device and the completions that the driver has not read yet: the CQ of each, and the SQ that
it is for as long as that SQ is there. -/
structure Driven where
  w : World
  unread : Ledger CqIdx SqIdx

/-- The queue that an input makes the device complete for. -/
def Input.serves (net : Net) (w : World) : Input → Option SqIdx
  | .receive frame => enaRxSq w.dev (enaRssHash net w.dev frame)
  | inp => inp.doorbell

/-- A completion that an event pushes. -/
def Event.pushed (o : Option SqIdx) : Event → Option (CqIdx × Option SqIdx)
  | .dmaWrite (.cq c) _ _ _ => some (c,o)
  | _ => none

/-- What a successful command does to the unread completions: those of a destroyed SQ belong to
nobody any more, and those of a destroyed CQ are gone. -/
def executedAccount (l : Ledger CqIdx SqIdx) (cmd : Bytes) : Ledger CqIdx SqIdx :=
  if h : (le16At cmd 4).toNat < 16 then
    match Opcode.ofCode (u8At cmd 2) with
    | some .destroySq => l.disown ⟨(le16At cmd 4).toNat,h⟩
    | some .destroyCq => l.clear ⟨(le16At cmd 4).toNat,h⟩
    | _ => l
  else l

/-- The unread completions after an event. -/
def Event.account (o : Option SqIdx) (l : Ledger CqIdx SqIdx) : Event → Ledger CqIdx SqIdx
  | .reset => []
  | .adminExec cmd status => if status = AdminStatus.success.code then executedAccount l cmd else l
  | e => l ++ (e.pushed o).toList

/-- The unread completions after some events. -/
def account (o : Option SqIdx) (l : Ledger CqIdx SqIdx) (es : List Event) : Ledger CqIdx SqIdx :=
  es.foldl (Event.account o) l

namespace Driven

/-- After a step of the device. -/
def after (net : Net) (s : Driven) (inp : Input) (w' : World) : Driven :=
  ⟨w',account (inp.serves net s.w) s.unread (w'.trace.drop s.w.trace.length)⟩

/-- The driver does not post more than the SQ holds, counting what it has posted and what it has not
read the completions of. -/
def Disciplined (s : Driven) (inp : Input) : Prop :=
  ∀ i addr val, inp = .regWrite addr val → inp.doorbell = some i → (s.w.dev.sq i).used = true →
    val.toUInt32.toUInt16 - (s.w.dev.sq i).head ≤ (s.w.dev.sq i).depth →
    (val.toUInt32.toUInt16 - (s.w.dev.sq i).head).toNat + s.unread.ownedBy i ≤
      (s.w.dev.sq i).depth.toNat

/-- A device with a driver that is disciplined and reads completions when it likes. Every input
finds the device in a state with a property. -/
inductive Run (net : Net) (P : Driven → Prop) : Driven → Prop
  | start (w₀ : World) : Run net P ⟨enaDevReset w₀,[]⟩
  | input {s : Driven} {inp : Input} {w' : World} (h : Run net P s) (hp : P s)
    (hd : s.Disciplined inp) (hs : step net s.w inp = .ok w') : Run net P (s.after net inp w')
  | read {s : Driven} (h : Run net P s) (c : CqIdx) : Run net P { s with unread := s.unread.read c }

/-- The SQs that complete into a CQ. -/
def sqsOf (s : EnaState) (c : CqIdx) : Finset SqIdx :=
  Finset.univ.filter fun i => (s.sq i).used = true ∧ (s.sq i).cqIdx.toNat = c.val

/-- Every CQ has room for all SQs that complete into it, and for what destroyed ones have left. -/
def Roomy (s : Driven) : Prop :=
  ∀ c, (s.w.dev.cq c).used = true →
    s.unread.orphans c + ∑ i ∈ sqsOf s.w.dev c,
      (s.w.dev.sq i).depth.toNat ≤ (s.w.dev.cq c).depth.toNat

/-- The entries of a CQ, as long as it is there. -/
def entries (q : EnaCq) : ℕ := if q.used then q.depth.toNat else 0

/-- Unread completions are for SQs that are there, no SQ has more posted and unread than it holds,
and no CQ more unread than it has entries. -/
structure Books (s : EnaState) (l : Ledger CqIdx SqIdx) : Prop where
  owners : ∀ c i, (c,some i) ∈ l → (s.sq i).used = true ∧ (s.sq i).cqIdx.toNat = c.val
  room : ∀ i, (s.sq i).used = true → (s.sq i).avail + l.ownedBy i ≤ (s.sq i).depth.toNat
  fits : ∀ c, l.inPlace c ≤ entries (s.cq c)

structure Inv (s : Driven) : Prop where
  tables : TableInv s.w.dev ∧ TxIdle none s.w.dev
  books : Books s.w.dev s.unread

end Driven

/-- Events of the data side. -/
def Event.Io : Event → Prop
  | .adminExec _ _ => False
  | .reset => False
  | _ => True

/-- Events that neither complete anything nor change the queues. -/
def Event.Still (e : Event) : Prop := e.Io ∧ ∀ o, e.pushed o = none

/-- A number of completions on a CQ, and nothing else that matters here. -/
def Completes (c : CqIdx) (o : Option SqIdx) (k : ℕ) (w w' : World) : Prop :=
  ∃ es, w'.trace = w.trace ++ es ∧ (∀ e ∈ es, e.Io) ∧
    es.filterMap (Event.pushed o) = List.replicate k (c,o)

section Completes
variable {w w' w'' : World} {c : CqIdx} {o : Option SqIdx} {i : SqIdx} {k m n : ℕ} {net : Net}
  {l : Ledger CqIdx SqIdx} {es : List Event}

lemma account_io (h : ∀ e ∈ es, e.Io) : account o l es = l ++ es.filterMap (Event.pushed o) := by
  induction es generalizing l with
  | nil => exact (List.append_nil _).symm
  | cons e es ih =>
    have hstep : e.account o l = l ++ (e.pushed o).toList := by
      have he := h e List.mem_cons_self
      cases e <;> first | rfl | exact he.elim
    change account o (e.account o l) es = _
    rw [ih fun e' he' => h e' (List.mem_cons_of_mem _ he'),hstep,List.append_assoc]
    congr 1
    cases hp : e.pushed o with
    | none => rw [List.filterMap_cons_none hp]; rfl
    | some p => rw [List.filterMap_cons_some hp]; rfl

lemma account_still (h : ∀ e ∈ es, e.Still) : account o l es = l := by
  have hnone : es.filterMap (Event.pushed o) = [] := List.filterMap_eq_nil_iff.mpr fun e hm =>
    (h e hm).2 o
  rw [account_io fun e hm => (h e hm).1,hnone,List.append_nil]

lemma account_append (es es' : List Event) :
    account o l (es ++ es') = account o (account o l es) es' :=
  List.foldl_append

lemma Completes.of_still (h : Adds Event.Still w w') : Completes c o 0 w w' := by
  obtain ⟨es,he,hs⟩ := h
  exact ⟨es,he,fun e hm => (hs e hm).1,List.filterMap_eq_nil_iff.mpr fun e hm => (hs e hm).2 o⟩

lemma Completes.trans (h : Completes c o k w w') (h' : Completes c o m w' w'') :
    Completes c o (k+m) w w'' := by
  obtain ⟨es,he,hio,hk⟩ := h
  obtain ⟨es',he',hio',hm⟩ := h'
  refine ⟨es ++ es',by rw [he',he,List.append_assoc],?_,?_⟩
  · intro e hmem
    rcases List.mem_append.mp hmem with hl | hr
    · exact hio e hl
    · exact hio' e hr
  · rw [List.filterMap_append,hk,hm,List.replicate_add]

lemma Completes.push (w : World) (c : CqIdx) (o : Option SqIdx) (cdesc : Bytes) :
    Completes c o 1 w (w.cqPushed c cdesc) := by
  refine ⟨[_],rfl,?_,rfl⟩
  intro e he
  rw [List.mem_singleton.mp he]
  trivial

lemma still_backend {e : Event} (h : e.Backend) : e.Still := by
  cases e <;> first | exact ⟨trivial,fun _ => rfl⟩ | exact absurd h id

lemma still_cqIntr (w : World) (c : CqIdx) (isTx : Bool) :
    Adds Event.Still w (enaCqIntr w c isTx) :=
  adds_cqIntr w c isTx ⟨trivial,fun _ => rfl⟩ fun _ _ => ⟨trivial,fun _ => rfl⟩

/-- One iteration of a TX doorbell completes at most one packet. -/
lemma TxStepped.completes (h : TxStepped i w w') (hc : (w.dev.sq i).cqIdx.toNat = c.val) :
    ∃ k ≤ 1, Completes c o k w w' := by
  have hquiet : ∀ {w₁ : World} {q : EnaSq}, TxQuietly (w.setSq i q) w₁ → Completes c o 0 w w₁ := by
    intro w₁ q hq
    have hadds : Adds Event.Still (w.setSq i q) w₁ := hq.trace.mono fun _ => still_backend
    exact .of_still hadds
  have htaken : ∀ {w₁ : World} {n : ℕ}, Completes c o 0 w₁ (w₁.txTaken i n) :=
    .of_still (.of_eq rfl)
  cases h with
  | discarded => exact ⟨0,Nat.zero_le 1,.of_still (.of_eq rfl)⟩
  | taken m n hn hq => exact ⟨0,Nat.zero_le 1,(hquiet hq).trans htaken⟩
  | @completed w₁ m n hn hq c' reqId hc' =>
    obtain rfl : c' = c := Fin.ext (hc'.symm.trans hc)
    have hpush := Completes.push (w₁.txTaken i n) c' o
      (txCdesc ((w₁.txTaken i n).dev.cq c').phase reqId
      (UInt16.ofNat i) ((w₁.txTaken i n).dev.sq i).head)
    exact ⟨1,le_rfl,(((hquiet hq).trans htaken).trans hpush).trans
      (.of_still (still_cqIntr _ c' true))⟩

lemma TxIterates.completes (h : TxIterates net i n w w') (hw : TableInv w.dev)
    (hu : (w.dev.sq i).used = true) (htx : (w.dev.sq i).isTx = true)
    (hc : (w.dev.sq i).cqIdx.toNat = c.val) :
    ∃ k, k ≤ ((w.dev.sq i).tail - (w.dev.sq i).head).toNat ∧ Completes c o k w w' := by
  induction h with
  | done w => exact ⟨0,Nat.zero_le _,.of_still (.refl w)⟩
  | @next n w w₁ w' hiter _ ih =>
    have hstep := (enaTxDoorbellStep_cases (E := fun _ => True) net hw hu).of_ok hiter.step
    obtain ⟨hw₁,hu₁,htx₁⟩ := (TxIterates.next hiter (.done w₁)).tables hw hu htx
    obtain ⟨a,m,ha,hle,hsq⟩ := hiter.advance
    obtain ⟨k,hk,hfirst⟩ := hstep.completes (o := o) hc
    obtain ⟨k',hk',hrest⟩ := ih hw₁ hu₁ htx₁ (by rw [hsq]; exact hc)
    have hdist := Counter.sub_add_toNat _ _ _ hle
    rw [hsq] at hk'
    exact ⟨k+k',by dsimp only at hk'; omega,hfirst.trans hrest⟩

lemma rxScattered_completes (i : SqIdx) (c : CqIdx) (frame : Bytes) (status hash : UInt32)
    (ds : List EnaRxDesc) (first : Bool) (off : ℕ) (w : World) :
    Completes c o ds.length w (rxScattered i c frame status hash ds first off w) := by
  induction ds generalizing first off w with
  | nil => exact .of_still (.refl w)
  | cons d ds ih =>
    have hbuf : ∀ chunk, Completes c o 0 w (enaDmaWrite w (.rxBuf i) d.addr chunk) := by
      intro chunk
      refine .of_still ⟨[_],rfl,fun e he => ?_⟩
      rw [List.mem_singleton.mp he]
      exact ⟨trivial,fun _ => rfl⟩
    rw [List.length_cons,Nat.add_comm]
    have hone : ∀ chunk cdesc, Completes c o 1 w
        ((enaDmaWrite w (.rxBuf i) d.addr chunk).cqPushed c cdesc) :=
      fun chunk cdesc => (hbuf chunk).trans (.push _ c o cdesc)
    exact (hone _ _).trans (ih _ _ _)

end Completes

/-- A step that serves one queue: descriptors that it takes off are completed, and nothing happens
to the other queues. -/
structure Served (net : Net) (w : World) (inp : Input) (w' : World) (i : SqIdx) (c : CqIdx) (k : ℕ)
    (q : EnaSq) : Prop where
  serves : inp.serves net w = some i
  used : (w.dev.sq i).used = true
  cqIdx : (w.dev.sq i).cqIdx.toNat = c.val
  sq : w'.dev.sq = Function.update w.dev.sq i q
  same : q.used = true ∧ q.cqIdx = (w.dev.sq i).cqIdx ∧ q.depth = (w.dev.sq i).depth
  cq : ∀ d, Driven.entries (w'.dev.cq d) = Driven.entries (w.dev.cq d)
  completes : Completes c (some i) k w w'
  posted : q.avail + k ≤ (w.dev.sq i).avail ∨ ∃ addr val, inp = .regWrite addr val ∧
    val.toUInt32.toUInt16 - (w.dev.sq i).head ≤ (w.dev.sq i).depth ∧
    q.avail + k ≤ (val.toUInt32.toUInt16 - (w.dev.sq i).head).toNat

section Served
variable {net : Net} {w w' : World} {inp : Input} {i : SqIdx} {c : CqIdx} {frame : Bytes} {addr : ℕ}
  {val : UInt64}

lemma TxFrame.entries (h : TxFrame i c w w') (d : CqIdx) :
    Driven.entries (w'.dev.cq d) = Driven.entries (w.dev.cq d) := by
  obtain ⟨tail,phase,hcq⟩ := h.cq
  rw [hcq]
  rcases eq_or_ne d c with rfl | hd
  · rw [Function.update_self]
    rfl
  · rw [Function.update_of_ne hd]

lemma cqPushed_entries (w : World) (c : CqIdx) (cdesc : Bytes) (d : CqIdx) :
    Driven.entries ((w.cqPushed c cdesc).dev.cq d) = Driven.entries (w.dev.cq d) := by
  rcases eq_or_ne d c with rfl | hd
  · rw [cqPushed_cq]
    rfl
  · change Driven.entries (Function.update w.dev.cq c _ d) = _
    rw [Function.update_of_ne hd]

lemma rxScattered_entries (i : SqIdx) (c : CqIdx) (frame : Bytes) (status hash : UInt32)
    (ds : List EnaRxDesc) (first : Bool) (off : ℕ) (w : World) (d : CqIdx) :
    Driven.entries ((rxScattered i c frame status hash ds first off w).dev.cq d) =
      Driven.entries (w.dev.cq d) := by
  induction ds generalizing first off w with
  | nil => rfl
  | cons e ds ih =>
    rw [rxScattered,ih,cqPushed_entries]
    rfl

/-- A doorbell is ignored, or it serves its queue. -/
lemma doorbell_served (hw : TableInv w.dev) (hdb : (Input.regWrite addr val).doorbell = some i)
    (hs : step net w (.regWrite addr val) = .ok w') :
    w' = w ∨ ∃ c k q, Served net w (.regWrite addr val) w' i c k q := by
  have hserves : (Input.regWrite addr val).serves net w = some i := hdb
  rw [step_of_doorbell net w hdb] at hs
  rcases enaSqDoorbell_cases ((step_sqDoorbell net w i val).symm.trans hs) with rfl | ⟨hu,hcount,
    hkind⟩
  · exact .inl rfl
  obtain ⟨c,hc,-⟩ := (hw.sq i hu).cq
  right
  rcases hkind with htx | ⟨-,rfl⟩
  · have hsq := rung_sq w i val
    have hur : ((w.rung i val).dev.sq i).used = true := by rw [hsq]; exact hu
    have htxr : ((w.rung i val).dev.sq i).isTx = true := by rw [hsq]; exact htx
    have hcr : ((w.rung i val).dev.sq i).cqIdx.toNat = c.val := by rw [hsq]; exact hc
    have hwr := rung_tables hw hcount
    obtain ⟨n,hiter,hdone⟩ := TxAccepted.iterates ⟨hu,htx,hcount⟩ hw hs
    obtain ⟨k,hk,hcompletes⟩ := hiter.completes (o := some i) hwr hur htxr hcr
    have hbounds := (hiter.ran hwr hur htxr).frame hwr htxr hcr
    obtain ⟨head,tail,m,hframe⟩ := hbounds.sq
    rw [hsq] at hframe hk
    have hrung : (w.rung i val).dev.sq = Function.update w.dev.sq i _ := rfl
    rw [hrung,Function.update_idem] at hframe
    have hempty : (w'.dev.sq i).avail = 0 := by
      rw [EnaSq.avail,hdone,UInt16.sub_self]
      rfl
    refine ⟨c,k,_,hserves,hu,hc,hframe,⟨hu,rfl,rfl⟩,hbounds.entries,hcompletes,
      .inr ⟨addr,val,rfl,hcount,?_⟩⟩
    rw [hframe,Function.update_self] at hempty
    rw [hempty,Nat.zero_add]
    exact hk
  · refine ⟨c,0,_,hserves,hu,hc,rfl,⟨hu,rfl,rfl⟩,fun _ => rfl,.of_still ?_,
      .inr ⟨addr,val,rfl,hcount,le_rfl⟩⟩
    have hemit : Adds Event.Still (w.setSq i { w.dev.sq i with tail := val.toUInt32.toUInt16 })
        ((w.setSq i { w.dev.sq i with tail := val.toUInt32.toUInt16 }).emit .flushQueuedPackets) :=
      .emit ⟨trivial,fun _ => rfl⟩
    exact hemit

/-- A frame is lost, or it serves the queue that it is steered to. -/
lemma RxOutcome.served (h : RxOutcome net w frame w') :
    (w'.dev.sq = w.dev.sq ∧ w'.dev.cq = w.dev.cq ∧ Adds Event.Still w w') ∨
      ∃ i c k q, Served net w (.receive frame) w' i c k q := by
  cases h with
  | ignored => exact .inl ⟨rfl,rfl,.refl w⟩
  | dropped => exact .inl ⟨rfl,rfl,.of_eq rfl⟩
  | short => exact .inl ⟨rfl,rfl,.of_eq rfl⟩
  | @bad i c ds hs hp _ hlt =>
    obtain ⟨hu,-⟩ := enaRxSq_used hs.sq
    refine .inr ⟨i,c,0,_,hs.sq,hu,hs.cqIdx,rfl,⟨hu,rfl,rfl⟩,fun _ => rfl,.of_still (.of_eq rfl),
      .inl ?_⟩
    exact le_trans (Counter.sub_add_toNat _ _ _ hlt).le (Nat.sub_le _ _)
  | @delivered i c ds hs hp =>
    obtain ⟨hu,-⟩ := enaRxSq_used hs.sq
    have hscatter := rxScattered_completes (o := some i) i c frame (enaRxStatus net frame)
      (enaRssHash net w.dev frame) ds true 0 w
    have hsq := rxScattered_sq (i := i) (c := c) (w := w) frame (enaRxStatus net frame)
      (enaRssHash net w.dev frame) ds true 0
    have hentries := rxScattered_entries i c frame (enaRxStatus net frame)
      (enaRssHash net w.dev frame) ds true 0 w
    generalize rxScattered i c frame (enaRxStatus net frame)
      (enaRssHash net w.dev frame) ds true 0 w = w₁ at *
    have htook : Completes c (some i) 0 w₁ (w₁.rxTook i ds.length frame.length) :=
      .of_still (.of_eq rfl)
    have hall := (hscatter.trans htook).trans
      (.of_still (still_cqIntr (w₁.rxTook i ds.length frame.length) c false))
    refine .inr ⟨i,c,ds.length,
      { w.dev.sq i with head := (w.dev.sq i).head + UInt16.ofNat ds.length },
      hs.sq,hu,hs.cqIdx,?_,⟨hu,rfl,rfl⟩,fun d => ?_,hall,.inl ?_⟩
    · rw [sq_cqIntr]
      change Function.update w₁.dev.sq i _ = _
      rw [hsq]
    · rw [(irqOnly_cqIntr _ c false).sameQueues.cq]
      exact hentries d
    · have hdist := Counter.sub_add_toNat _ _ _ hp.avail
      change ((w.dev.sq i).tail - ((w.dev.sq i).head + UInt16.ofNat ds.length)).toNat + ds.length ≤
        _
      rw [hdist]
      exact (Nat.sub_add_cancel hp.avail).le

/-- What an input can do to queues and completions, if it does not come to the control side. -/
lemma step_served (hw : TableInv w.dev) (hs : step net w inp = .ok w') :
    (w'.dev.sq = w.dev.sq ∧ w'.dev.cq = w.dev.cq ∧ Adds Event.Still w w') ∨
      (∃ i c k q, Served net w inp w' i c k q) ∨ inp.Control := by
  cases inp with
  | regWrite addr val =>
    cases hdb : (Input.regWrite addr val).doorbell with
    | none => exact .inr (.inr ⟨hdb,fun _ he => by cases he⟩)
    | some i =>
      rcases doorbell_served hw hdb hs with rfl | hserved
      · exact .inl ⟨rfl,rfl,.refl w'⟩
      · exact .inr (.inl ⟨i,hserved⟩)
  | receive frame =>
    rcases ((enaRxReceiveIov_outcome net frame hw).of_ok hs).served with hstill | hserved
    · exact .inl hstill
    · exact .inr (.inl hserved)
  | _ => exact .inr (.inr ⟨rfl,fun _ he => by cases he⟩)

end Served

namespace Driven
variable {net : Net} {s : Driven} {inp : Input} {w' : World} {i : SqIdx} {c : CqIdx} {k : ℕ}
  {P : Driven → Prop}

lemma after_of_trace {es : List Event} (h : w'.trace = s.w.trace ++ es) :
    s.after net inp w' = ⟨w',account (inp.serves net s.w) s.unread es⟩ := by
  rw [after,h,List.drop_left]

section Books
variable {d d' : EnaState} {l l' : Ledger CqIdx SqIdx}

lemma Books.congr (h : Books d l) (hsq : d'.sq = d.sq) (hcq : d'.cq = d.cq) : Books d' l := by
  refine ⟨?_,?_,?_⟩
  · rw [hsq]
    exact h.owners
  · rw [hsq]
    exact h.room
  · rw [hcq]
    exact h.fits

lemma Books.sublist (h : Books d l) (hsub : l'.Sublist l) : Books d l' := by
  refine ⟨fun c i hmem => h.owners c i (hsub.subset hmem),fun i hu => ?_,fun c => ?_⟩
  · exact le_trans (Nat.add_le_add_left (Ledger.ownedBy_sublist hsub i) _) (h.room i hu)
  · exact le_trans (Ledger.inPlace_sublist hsub c) (h.fits c)

lemma Books.nil (hu : ∀ i, (d.sq i).used = false) : Books d [] := by
  refine ⟨fun c i hmem => absurd hmem List.not_mem_nil,fun i hused => ?_,fun c => Nat.zero_le _⟩
  rw [hu i] at hused
  cases hused

/-- A new SQ has nothing posted, and nothing is unread for it. -/
lemma Books.createSq {q : EnaSq} (h : Books d l) (hfree : (d.sq i).used = false) (hq : q.Fresh d) :
    Books (d.setSq i q) l := by
  have hnone : ∀ c, (c,some i) ∉ l := by
    intro c hmem
    have hused := (h.owners c i hmem).1
    rw [hfree] at hused
    cases hused
  have hne : ∀ {c j}, (c,some j) ∈ l → j ≠ i := by
    rintro c j hmem rfl
    exact hnone c hmem
  refine ⟨fun c j hmem => ?_,fun j hu => ?_,h.fits⟩
  · rw [EnaState.setSq_sq_of_ne _ (hne hmem)]
    exact h.owners c j hmem
  · rcases eq_or_ne j i with rfl | hj
    · rw [Ledger.ownedBy_eq_zero hnone,EnaState.setSq_sq,EnaSq.avail,hq.head,hq.tail]
      exact Nat.zero_le _
    · rw [EnaState.setSq_sq_of_ne _ hj] at hu ⊢
      exact h.room j hu

/-- What is unread for a destroyed SQ stays where it is and belongs to nobody. -/
lemma Books.destroySq (h : Books d l) : Books (d.setSq i { d.sq i with used := false })
    (l.disown i) := by
  refine ⟨fun c j hmem => ?_,fun j hu => ?_,fun c => ?_⟩
  · obtain ⟨hmem,hj⟩ := Ledger.mem_disown hmem
    rw [EnaState.setSq_sq_of_ne _ hj]
    exact h.owners c j hmem
  · rcases eq_or_ne j i with rfl | hj
    · rw [EnaState.setSq_sq] at hu
      cases hu
    · rw [EnaState.setSq_sq_of_ne _ hj] at hu ⊢
      rw [Ledger.ownedBy_disown hj]
      exact h.room j hu
  · rw [Ledger.inPlace_disown]
    exact h.fits c

/-- A new CQ has nothing in it. -/
lemma Books.createCq {q : EnaCq} (h : Books d l) (hfree : (d.cq c).used = false) :
    Books (d.setCq c q) l := by
  refine ⟨h.owners,h.room,fun e => ?_⟩
  rcases eq_or_ne e c with rfl | he
  · have hempty := h.fits e
    rw [entries,hfree] at hempty
    exact le_trans hempty (Nat.zero_le _)
  · rw [EnaState.setCq_cq_of_ne _ he]
    exact h.fits e

/-- A destroyed CQ goes away with what is in it. -/
lemma Books.destroyCq (h : Books d l) : Books (d.setCq c { d.cq c with used := false })
    (l.clear c) := by
  have hsub : Books d (l.clear c) := h.sublist List.filter_sublist
  refine ⟨hsub.owners,hsub.room,fun e => ?_⟩
  rcases eq_or_ne e c with rfl | he
  · rw [Ledger.inPlace_clear]
    exact Nat.zero_le _
  · rw [EnaState.setCq_cq_of_ne _ he]
    exact hsub.fits e

end Books

/-- A step that leaves the queues as they are and completes nothing. -/
lemma Inv.still (h : s.Inv) (hs : step net s.w inp = .ok w') (hsq : w'.dev.sq = s.w.dev.sq)
    (hcq : w'.dev.cq = s.w.dev.cq) (hstill : Adds Event.Still s.w w') :
    (s.after net inp w').Inv := by
  obtain ⟨es,he,hall⟩ := hstill
  rw [after_of_trace he,account_still hall]
  exact ⟨step_tables h.tables hs,h.books.congr hsq hcq⟩

/-- The queue that a step serves keeps within its depth. -/
lemma Inv.served_room {q : EnaSq} (h : s.Inv) (hd : s.Disciplined inp)
    (hserved : Served net s.w inp w' i c k q) :
    q.avail + (s.unread.ownedBy i + k) ≤ (s.w.dev.sq i).depth.toNat := by
  rcases hserved.posted with hle | ⟨addr,val,rfl,hcount,hle⟩
  · have hroom := h.books.room i hserved.used
    omega
  · have hroom := hd i addr val rfl hserved.serves hserved.used hcount
    omega

/-- In a roomy state, what a step completes fits with what is unread. -/
lemma Inv.served_fits {q : EnaSq} (h : s.Inv) (hp : s.Roomy) (hd : s.Disciplined inp)
    (hserved : Served net s.w inp w' i c k q) :
    s.unread.inPlace c + k ≤ (s.w.dev.cq c).depth.toNat := by
  have hroom := h.served_room hd hserved
  obtain ⟨c',hc',hused,-⟩ := (h.tables.1.sq i hserved.used).cq
  obtain rfl : c' = c := Fin.ext (hc'.symm.trans hserved.cqIdx)
  have hmem : i ∈ sqsOf s.w.dev c' :=
    Finset.mem_filter.mpr ⟨Finset.mem_univ i,hserved.used,hserved.cqIdx⟩
  have howners : ∀ j, (c',some j) ∈ s.unread → j ∈ sqsOf s.w.dev c' := fun j hj =>
    Finset.mem_filter.mpr ⟨Finset.mem_univ j,h.books.owners c' j hj⟩
  have hothers : ∑ j ∈ (sqsOf s.w.dev c').erase i, s.unread.ownedBy j ≤
      ∑ j ∈ (sqsOf s.w.dev c').erase i, (s.w.dev.sq j).depth.toNat := by
    refine Finset.sum_le_sum fun j hj => ?_
    have hused := (Finset.mem_filter.mp (Finset.mem_of_mem_erase hj)).2.1
    exact le_trans (Nat.le_add_left _ _) (h.books.room j hused)
  have hle := Ledger.inPlace_le _ howners
  have hcap := hp c' hused
  rw [← Finset.add_sum_erase _ _ hmem] at hle hcap
  omega

/-- A step that completes what it takes off a queue. -/
lemma Inv.served {q : EnaSq} (h : s.Inv) (hp : s.Roomy) (hd : s.Disciplined inp)
    (hs : step net s.w inp = .ok w') (hserved : Served net s.w inp w' i c k q) :
    (s.after net inp w').Inv := by
  have hroom := h.served_room hd hserved
  have hfits := h.served_fits hp hd hserved
  obtain ⟨es,he,hio,hk⟩ := hserved.completes
  obtain ⟨hu,hcq,hdepth⟩ := hserved.same
  rw [after_of_trace he,account_io hio,hserved.serves,hk]
  refine ⟨step_tables h.tables hs,?_,?_,?_⟩
  · intro d j hmem
    change (w'.dev.sq j).used = true ∧ (w'.dev.sq j).cqIdx.toNat = d.val
    rw [hserved.sq]
    rcases List.mem_append.mp hmem with hold | hnew
    · have howner := h.books.owners d j hold
      rcases eq_or_ne j i with rfl | hj
      · rw [Function.update_self,hcq]
        exact ⟨hu,howner.2⟩
      · rw [Function.update_of_ne hj]
        exact howner
    · cases List.eq_of_mem_replicate hnew
      rw [Function.update_self,hcq]
      exact ⟨hu,hserved.cqIdx⟩
  · intro j hj
    change (w'.dev.sq j).used = true at hj
    change (w'.dev.sq j).avail + _ ≤ (w'.dev.sq j).depth.toNat
    rw [hserved.sq] at hj ⊢
    rw [Ledger.ownedBy_append]
    rcases eq_or_ne j i with rfl | hji
    · rw [Function.update_self,Ledger.ownedBy_replicate,hdepth]
      exact hroom
    · rw [Function.update_of_ne hji] at hj ⊢
      rw [Ledger.ownedBy_replicate_of_ne hji,Nat.add_zero]
      exact h.books.room j hj
  · intro d
    change Ledger.inPlace (s.unread ++ _) d ≤ entries (w'.dev.cq d)
    rw [hserved.cq,Ledger.inPlace_append]
    rcases eq_or_ne d c with rfl | hdc
    · obtain ⟨c',hc',hused,-⟩ := (h.tables.1.sq i hserved.used).cq
      obtain rfl : c' = d := Fin.ext (hc'.symm.trans hserved.cqIdx)
      rw [Ledger.inPlace_replicate,entries,hused]
      exact hfits
    · rw [Ledger.inPlace_replicate_of_ne hdc,Nat.add_zero]
      exact h.books.fits d

lemma Inv.read (h : s.Inv) (c : CqIdx) : Inv { s with unread := s.unread.read c } :=
  ⟨h.tables,h.books.sublist List.eraseP_sublist⟩

section Admin
variable {o : Option SqIdx} {l : Ledger CqIdx SqIdx} {d d' : EnaState} {w w₁ : World}
  {cmd resp : Bytes} {status : AdminStatus}

lemma account_exec (hne : status ≠ .success) :
    (Event.adminExec cmd status.code).account o l = l := by
  refine if_neg fun he => hne ?_
  cases status <;> first | rfl | exact absurd he (by decide)

/-- A successful command that destroys nothing. -/
lemma account_kept (hs : Opcode.ofCode (u8At cmd 2) ≠ some .destroySq)
    (hc : Opcode.ofCode (u8At cmd 2) ≠ some .destroyCq) :
    (Event.adminExec cmd status.code).account o l = l := by
  change (if status.code = AdminStatus.success.code then executedAccount l cmd else l) = l
  split_ifs
  · unfold executedAccount
    split_ifs
    · split
      · exact absurd ‹_› hs
      · exact absurd ‹_› hc
      · rfl
    · rfl
  · rfl

lemma account_destroySq (hop : Opcode.ofCode (u8At cmd 2) = some .destroySq)
    (hi : (le16At cmd 4).toNat = i.val) :
    (Event.adminExec cmd AdminStatus.success.code).account o l = l.disown i := by
  have hlt : (le16At cmd 4).toNat < 16 := hi ▸ i.isLt
  have hfin : (⟨(le16At cmd 4).toNat,hlt⟩ : SqIdx) = i := Fin.ext hi
  change executedAccount l cmd = _
  rw [executedAccount,dif_pos hlt,hop]
  dsimp only
  rw [hfin]

lemma account_destroyCq (hop : Opcode.ofCode (u8At cmd 2) = some .destroyCq)
    (hc : (le16At cmd 4).toNat = c.val) :
    (Event.adminExec cmd AdminStatus.success.code).account o l = l.clear c := by
  have hlt : (le16At cmd 4).toNat < 16 := hc ▸ c.isLt
  have hfin : (⟨(le16At cmd 4).toNat,hlt⟩ : CqIdx) = c := Fin.ext hc
  change executedAccount l cmd = _
  rw [executedAccount,dif_pos hlt,hop]
  dsimp only
  rw [hfin]

/-- Commands keep the books. -/
lemma Books.exec (ht : Tabled d cmd status resp d') (h : Books d l) :
    Books d' ((Event.adminExec cmd status.code).account o l) := by
  cases ht with
  | refused hne hsq hcq =>
    rw [account_exec hne]
    exact h.congr hsq hcq
  | other hop hsq hcq =>
    rw [account_kept (fun he => hop (by rw [he]; decide)) fun he => hop (by rw [he]; decide)]
    exact h.congr hsq hcq
  | createCq hop c hfree =>
    rw [account_kept (by rw [hop]; decide) (by rw [hop]; decide)]
    exact h.createCq hfree
  | destroyCq hop c hidx =>
    rw [account_destroyCq hop hidx]
    exact h.destroyCq
  | createSq hop i hfree hq =>
    rw [account_kept (by rw [hop]; decide) (by rw [hop]; decide)]
    exact h.createSq hfree hq
  | destroySq hop i hidx =>
    rw [account_destroySq hop hidx]
    exact h.destroySq

/-- The events of a command other than its execution. -/
lemma controlEvents_still : ControlEvents Event.Still .keepAliveTimer where
  dma site _ _ _ hsite _ := by
    cases site with
    | cq c => exact absurd rfl (hsite c)
    | _ => exact ⟨trivial,fun _ => rfl⟩
  aenq _ _ _ _ := ⟨trivial,fun _ => rfl⟩
  msix _ := ⟨trivial,fun _ => rfl⟩
  exec _ he := by cases he
  reset h := h.elim

lemma AdminRan.books (h : AdminRan w w₁) (hb : Books w.dev l) :
    ∃ es, w₁.trace = w.trace ++ es ∧ Books w₁.dev (account o l es) := by
  refine h.preserves (M := fun u => ∃ es, u.trace = w.trace ++ es ∧ Books u.dev (account o l es))
    ⟨[],(List.append_nil _).symm,hb⟩ ?_ ?_ ?_
  · rintro r u status resp u₁ ⟨es,he,hbooks⟩ hex
    obtain ⟨es₁,he₁,hall⟩ := ((enaAdminExec_spec _ _).of_ok hex).adds controlEvents_still trivial
    have htaken : Books u.aqTaken.dev (account o l es) := hbooks.congr rfl rfl
    have hexec := Books.exec (o := o) (enaAdminExec_tabled hex) htaken
    have hpushed : ∃ d addr data, ((u₁.emit (.adminExec (u.aqCmd r) status.code)).acqPushed r
      (u.aqCmd r)
        status resp).trace = u₁.trace ++
          [.adminExec (u.aqCmd r) status.code,.dmaWrite .acq d addr data] :=
      ⟨_,_,_,List.append_assoc ..⟩
    obtain ⟨d,addr,data,hpushed⟩ := hpushed
    refine ⟨es ++ es₁ ++ [.adminExec (u.aqCmd r) status.code,.dmaWrite .acq d addr data],?_,?_⟩
    · have htrace : u.aqTaken.trace = w.trace ++ es := he
      rw [hpushed,he₁,htrace,List.append_assoc,List.append_assoc,List.append_assoc]
    · rw [account_append,account_append,account_still hall]
      change Books _ ((Event.adminExec _ status.code).account o (account o l es) ++ [])
      rw [List.append_nil]
      exact hexec.congr rfl rfl
  · rintro u ⟨es,he,hbooks⟩
    exact ⟨es,he,hbooks.congr rfl rfl⟩
  · rintro u ⟨es,he,hbooks⟩
    obtain ⟨es',he',hall⟩ := adds_adminIntr u (controlEvents_still.msix 0)
    refine ⟨es ++ es',by rw [he',he,List.append_assoc],?_⟩
    rw [account_append,account_still hall,dev_adminIntr]
    exact hbooks

end Admin

/-- The doorbell of the admin queue. -/
lemma Inv.admin {val : UInt64} (h : s.Inv) (hs : step net s.w (.regWrite regAqDb val) = .ok w') :
    (s.after net (.regWrite regAqDb val) w').Inv := by
  have hran := enaAdminProcess_ran ((step_aqDb net s.w val).symm.trans hs)
  obtain ⟨es,he,hbooks⟩ := AdminRan.books (o := (Input.regWrite regAqDb val).serves net s.w) hran
    (h.books.congr rfl rfl)
  rw [after_of_trace he]
  exact ⟨step_tables h.tables hs,hbooks⟩

lemma Inv.reset (h : s.Inv) (hs : step net s.w inp = .ok w') (hreset : inp.Resets) :
    (s.after net inp w').Inv := by
  have hdata := step_resets hs hreset
  have hunused : ∀ i, (w'.dev.sq i).used = false := by
    intro i
    rw [hdata.sq]
    rfl
  have htrace : w'.trace = s.w.trace ++ [.reset] := by
    cases inp with
    | qdevReset =>
      cases hs
      rfl
    | regWrite addr val =>
      obtain ⟨rfl,hval⟩ := hreset
      change enaDevCtlWrite s.w val.toUInt32 = .ok w' at hs
      unfold enaDevCtlWrite at hs
      split_ifs at hs
      cases hs
      rfl
    | _ => exact hreset.elim
  rw [after_of_trace htrace]
  exact ⟨step_tables h.tables hs,.nil hunused⟩

/-- A step of the control side. -/
lemma Inv.control (h : s.Inv) (hs : step net s.w inp = .ok w') (hctl : inp.Control) :
    (s.after net inp w').Inv := by
  by_cases hadmin : ∃ val, inp = .regWrite regAqDb val
  · obtain ⟨val,rfl⟩ := hadmin
    exact h.admin hs
  by_cases hreset : inp.Resets
  · exact h.reset hs hreset
  have hevents : ControlEvents Event.Still inp :=
    ⟨controlEvents_still.dma,fun _ => controlEvents_still.aenq trivial,controlEvents_still.msix,
      fun val he => absurd ⟨val,he⟩ hadmin,fun hr => absurd hr hreset⟩
  refine h.still hs ?_ ?_ (step_control_adds hctl hevents hs)
  all_goals
    cases step_acted h.tables.1 hs with
    | rest hdata => first | exact hdata.sq | exact hdata.cq
    | txDoorbell hdb => exact absurd (hctl.1.symm.trans hdb) (by simp)
    | rxDoorbell hdb => exact absurd (hctl.1.symm.trans hdb) (by simp)
    | received => exact absurd rfl (hctl.2 _)
    | admin => exact absurd ⟨_,rfl⟩ hadmin
    | reset hr => exact absurd hr hreset

/-- In a roomy state the device keeps the invariant. -/
theorem Inv.step (h : s.Inv) (hp : s.Roomy) (hd : s.Disciplined inp)
    (hs : step net s.w inp = .ok w') :
    (s.after net inp w').Inv := by
  rcases step_served h.tables.1 hs with ⟨hsq,hcq,hstill⟩ | ⟨i,c,k,q,hserved⟩ | hctl
  · exact h.still hs hsq hcq hstill
  · exact h.served hp hd hs hserved
  · exact h.control hs hctl

lemma Run.inv (h : Run net Roomy s) : s.Inv := by
  induction h with
  | start w₀ => exact ⟨reset_tables w₀,.nil fun _ => rfl⟩
  | input _ hp hd hs ih => exact ih.step hp hd hs
  | read _ c ih => exact ih.read c

/-- In a roomy state every completion that a step pushes finds a free entry. -/
lemma Inv.push_fits (h : s.Inv) (hp : s.Roomy) (hd : s.Disciplined inp)
    (hs : EnaDevice.step net s.w inp = .ok w') {es es' : List Event} {d : EnaState} {addr : UInt64}
    {data : Bytes} (htrace : w'.trace = s.w.trace ++ es ++ .dmaWrite (.cq c) d addr data :: es') :
    (account (inp.serves net s.w) s.unread es).inPlace c < (s.w.dev.cq c).depth.toNat := by
  rw [List.append_assoc] at htrace
  have hadded : ∀ {P : Event → Prop}, Adds P s.w w' → P (.dmaWrite (.cq c) d addr data) := by
    rintro P ⟨es₁,he,hall⟩
    refine hall _ ?_
    rw [← List.append_cancel_left (htrace.symm.trans he)]
    exact List.mem_append_right _ List.mem_cons_self
  rcases step_served h.tables.1 hs with ⟨-,-,hstill⟩ | ⟨i,c',k,q,hserved⟩ | hctl
  · exact absurd ((hadded hstill).2 none) (by simp [Event.pushed])
  · obtain ⟨es₁,he,hio,hk⟩ := hserved.completes
    obtain rfl := List.append_cancel_left (htrace.symm.trans he)
    have hpushed : es.filterMap (Event.pushed (some i)) ++ (c,some i) ::
      es'.filterMap (Event.pushed (some i)) =
        List.replicate k (c',some i) := by
      rw [← hk,List.filterMap_append]
      rfl
    have hmem : (c,some i) ∈ List.replicate k (c',some i) := by
      rw [← hpushed]
      exact List.mem_append_right _ List.mem_cons_self
    obtain rfl : c = c' := congrArg Prod.fst (List.eq_of_mem_replicate hmem)
    have hfits := h.served_fits hp hd hserved
    have hcount := congrArg (fun l => Ledger.inPlace l c) hpushed
    simp only [Ledger.inPlace_append,Ledger.inPlace_replicate] at hcount
    have hself : Ledger.inPlace ((c,some i) :: es'.filterMap (Event.pushed (some i))) c =
        Ledger.inPlace (es'.filterMap (Event.pushed (some i))) c + 1 := by
      simp [Ledger.inPlace]
    rw [account_io fun e hm => hio e (List.mem_append_left _ hm),hserved.serves,
      Ledger.inPlace_append]
    omega
  · have hevents : ControlEvents (fun e => e.pushed none = none) inp := by
      refine ⟨fun site _ _ _ hsite _ => ?_,fun _ _ _ _ => rfl,fun _ => rfl,fun _ _ _ _ => rfl,
        fun _ => rfl⟩
      cases site with
      | cq c => exact absurd rfl (hsite c)
      | _ => rfl
    exact absurd (hadded (step_control_adds hctl hevents hs)) (by simp [Event.pushed])

/-- If every input finds room in each CQ for all SQs that complete into it and for what destroyed
ones have left, then no CQ ever has more unread completions than entries, and every completion is
pushed into a CQ that has a free entry. -/
theorem completions_fit (h : Run net Roomy s) :
    (∀ c, (s.w.dev.cq c).used = true → s.unread.inPlace c ≤ (s.w.dev.cq c).depth.toNat) ∧
      ∀ inp w', s.Roomy → s.Disciplined inp → EnaDevice.step net s.w inp = .ok w' →
        ∀ es c d addr data es', w'.trace = s.w.trace ++ es ++ .dmaWrite (.cq c) d addr data :: es' →
          (account (inp.serves net s.w) s.unread es).inPlace c < (s.w.dev.cq c).depth.toNat := by
  refine ⟨fun c hu => ?_,fun inp w' hp hd hs es c d addr data es' => h.inv.push_fits hp hd hs⟩
  have hfits := h.inv.books.fits c
  rw [entries,if_pos hu] at hfits
  exact hfits

/-- A driver that gives its inputs one after the other, as long as each passes a check. -/
def drive (net : Net) (ok : Driven → Input → Bool) : List Input → Driven → Option Driven
  | [], s => some s
  | inp::inputs, s =>
    match EnaDevice.step net s.w inp with
    | .ok w' => if ok s inp then drive net ok inputs (s.after net inp w') else none
    | .error _ => none

lemma Run.drive {ok : Driven → Input → Bool} {inputs : List Input} {s' : Driven}
    (hok : ∀ s inp, ok s inp = true → P s ∧ s.Disciplined inp) (h : Run net P s)
    (hd : s.drive net ok inputs = some s') : Run net P s' := by
  induction inputs generalizing s with
  | nil =>
    cases hd
    exact h
  | cons inp inputs ih =>
    unfold Driven.drive at hd
    split at hd
    · split_ifs at hd with hgood
      obtain ⟨hp,hdisc⟩ := hok s inp hgood
      exact ih (.input h hp hdisc ‹_›) hd
    · cases hd

/-- The check of a doorbell. -/
def keepsDepth (s : Driven) : Input → Bool
  | .regWrite addr val =>
    match (Input.regWrite addr val).doorbell with
    | some i => decide ((val.toUInt32.toUInt16 - (s.w.dev.sq i).head).toNat + s.unread.ownedBy i ≤
        (s.w.dev.sq i).depth.toNat)
    | none => true
  | _ => true

lemma disciplined_of_keepsDepth (h : s.keepsDepth inp = true) : s.Disciplined inp := by
  rintro i addr val rfl hdb - -
  unfold keepsDepth at h
  dsimp only at h
  rw [hdb] at h
  exact of_decide_eq_true h

instance (s : Driven) : Decidable s.Roomy := inferInstanceAs (Decidable (∀ _, _))

/-- An RX queue and a TX queue with a CQ of 32 entries. Two packets are sent, and a frame takes
three descriptors. -/
def roomyCq : List Input :=
  driverSetup [pad 64 ([0,0,3,0,0x20,4] ++ ofLe16 32 ++ ofLe32 1 ++ ofLe32 0x3000),
      createSqCmd sqIdentityRx,
      pad 64 ([1,0,1,0,sqIdentityTx,0,1,1] ++ ofLe16 0 ++ ofLe16 16 ++ ofLe32 0x6000)]
    [(0x4000,rxDescOf 0x1c 16 0 0x7000 ++ rxDescOf 0x1c 16 1 0x7010 ++ rxDescOf 0x1c 16 2 0x7020),
      (0x5000,ownFrame),(0x6000,(List.replicate 3 (ownDesc 0).bytes).flatten)] ++
    [.regWrite (regSqDbBase+4) 2,.regWrite regSqDbBase 3,.receive (List.replicate 40 0xff)]

/-- Two SQs share a CQ. The driver reads one of five completions and sends another packet. -/
theorem completions_fit_shared :
    ∃ s : Driven, Run Net.nonIp Roomy s ∧ (s.w.dev.cq 0).used = true ∧
      sqsOf s.w.dev 0 = {0,1} ∧ s.unread.ownedBy 0 = 3 ∧ s.unread.ownedBy 1 = 2 ∧
      s.unread.inPlace 0 = 5 ∧ s.unread.inPlace 0 ≤ (s.w.dev.cq 0).depth.toNat := by
  let check := fun (s : Driven) inp => s.keepsDepth inp && decide s.Roomy
  have hcheck : ∀ s inp, check s inp = true → Roomy s ∧ s.Disciplined inp := fun s inp hok => by
    rw [Bool.and_eq_true] at hok
    exact ⟨of_decide_eq_true hok.2,disciplined_of_keepsDepth hok.1⟩
  obtain ⟨s₁,hs₁,hnext⟩ := (Option.any_eq_true _ _).mp (show
      (drive Net.nonIp check roomyCq ⟨freshWorld,[]⟩).any (fun s =>
        (drive Net.nonIp check [.regWrite (regSqDbBase+4) 3]
          { s with unread := s.unread.read 0 }).any
          fun s => decide ((s.w.dev.cq 0).used = true ∧ sqsOf s.w.dev 0 = {0,1} ∧
            s.unread.ownedBy 0 = 3 ∧ s.unread.ownedBy 1 = 2 ∧ s.unread.inPlace 0 = 5)) = true by
    decide +kernel)
  obtain ⟨s,hs,hfive⟩ := (Option.any_eq_true _ _).mp hnext
  obtain ⟨hu,hsqs,hrx,htx,hfive⟩ := of_decide_eq_true hfive
  have hrun : Run Net.nonIp Roomy s :=
    Run.drive hcheck ((Run.drive hcheck (.start _) hs₁).read 0) hs
  exact ⟨s,hrun,hu,hsqs,hrx,htx,hfive,(completions_fit hrun).1 0 hu⟩

/-- A TX queue and an RX queue with a CQ of 16 entries. A packet is sent, and then a frame takes all
16 descriptors of the RX queue. -/
def sharedCq : List Input :=
  driverSetup [createCqCmd,createSqCmd sqIdentityRx,
      pad 64 ([1,0,1,0,sqIdentityTx,0,1,1] ++ ofLe16 0 ++ ofLe16 16 ++ ofLe32 0x6000)]
    [(0x4000,(List.replicate 16 (rxDescOf 0x1c 1 0 0x7000)).flatten),(0x5000,ownFrame),
      (0x6000,(ownDesc 0).bytes)] ++
    [.regWrite (regSqDbBase+4) 1,.regWrite regSqDbBase 16,.receive (List.replicate 16 0xff)]

/-- Two queues of the depth of their CQ overflow it, with a driver that is disciplined on each. -/
theorem completions_overflow :
    ∃ s : Driven, Run Net.nonIp (fun _ => True) s ∧ (s.w.dev.cq 0).used = true ∧
      (s.w.dev.cq 0).depth.toNat < s.unread.inPlace 0 := by
  obtain ⟨s,hs,hover⟩ := (Option.any_eq_true _ _).mp
    (show (drive Net.nonIp keepsDepth sharedCq ⟨freshWorld,[]⟩).any
      (fun s => decide ((s.w.dev.cq 0).used = true ∧
      (s.w.dev.cq 0).depth.toNat < s.unread.inPlace 0)) = true by
    decide +kernel)
  exact ⟨s,Run.drive (fun s inp hok => ⟨trivial,disciplined_of_keepsDepth hok⟩) (.start _) hs,
    of_decide_eq_true hover⟩

end Driven
end EnaDevice
