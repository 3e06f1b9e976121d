import EnaDevice.Cq.Channel
import EnaDevice.Cq.Room

/-! Whole steps of the device as pushes on one completion ring: what a doorbell or a frame adds to
the channel of a CQ is what its events say was written there. -/
namespace EnaDevice
open Bytes Result PhaseRing

/-- The entry that an event puts into a CQ. -/
def Event.entryOf (c : CqIdx) : Event → Option Bytes
  | .dmaWrite (.cq d) _ _ data => if d = c then some data else none
  | _ => none

namespace CqChannel

def entriesOf (c : CqIdx) (es : List Event) : List Bytes := es.filterMap (Event.entryOf c)

/-- The device goes on by these events, and the channel of the CQ goes on by what they push. -/
structure Feeds (c : CqIdx) (w w' : World) (es : List Event) : Prop where
  trace : w'.trace = w.trace ++ es
  readable : w'.mem.readable = w.mem.readable
  depth : (w'.dev.cq c).depth = (w.dev.cq c).depth
  inv : ∀ d pushed polled, Inv c ⟨w,d,pushed,polled⟩ →
    (pushed ++ entriesOf c es).length ≤ polled.length + (w.dev.cq c).depth.toNat →
    Inv c ⟨w',d,pushed ++ entriesOf c es,polled⟩

variable {c : CqIdx} {w w' w'' : World} {es es' : List Event}

lemma entriesOf_append (es es' : List Event) :
    entriesOf c (es ++ es') = entriesOf c es ++ entriesOf c es' :=
  List.filterMap_append

lemma entriesOf_nil (h : ∀ e ∈ es, e.entryOf c = none) : entriesOf c es = [] :=
  List.filterMap_eq_nil_iff.mpr h

lemma Feeds.trans (h : Feeds c w w' es) (h' : Feeds c w' w'' es') : Feeds c w w'' (es ++ es') := by
  refine ⟨by rw [h'.trace,h.trace,List.append_assoc],h'.readable.trans h.readable,
    h'.depth.trans h.depth,fun d pushed polled hinv hroom => ?_⟩
  rw [entriesOf_append,← List.append_assoc] at hroom ⊢
  have hfirst : (pushed ++ entriesOf c es).length ≤ polled.length + (w.dev.cq c).depth.toNat :=
    (List.sublist_append_left _ _).length_le.trans hroom
  refine h'.inv d _ polled (h.inv d pushed polled hinv hfirst) ?_
  rw [h.depth]
  exact hroom

/-- Steps that leave the CQ and its ring alone. -/
lemma Feeds.of_same (htrace : w'.trace = w.trace ++ es) (hread : w'.mem.readable = w.mem.readable)
    (hnone : ∀ e ∈ es, e.entryOf c = none) (hcq : w'.dev.cq c = w.dev.cq c)
    (hring : ∀ k < (w.dev.cq c).depth.toNat, ring c w' k = ring c w k) : Feeds c w w' es := by
  refine ⟨htrace,hread,by rw [hcq],fun d pushed polled hinv hroom => ?_⟩
  rw [entriesOf_nil hnone,List.append_nil] at hroom ⊢
  refine Step.inv (.other hcq hring) hinv ?_
  dsimp only
  rw [hcq]
  exact hroom

lemma Feeds.of_mem (htrace : w'.trace = w.trace ++ es) (hnone : ∀ e ∈ es, e.entryOf c = none)
    (hcq : w'.dev.cq c = w.dev.cq c) (hmem : w'.mem = w.mem) : Feeds c w w' es := by
  refine .of_same htrace (by rw [hmem]) hnone hcq fun k _ => ?_
  rw [ring,hmem,hcq]
  rfl

lemma Feeds.refl (c : CqIdx) (w : World) : Feeds c w w [] :=
  .of_mem (List.append_nil _).symm (fun e he => by cases he) rfl rfl

/-- One completion. -/
lemma Feeds.push {cdesc : Bytes} (hlen : cdesc.length = 32)
    (hphase : phaseBit cdesc = (w.dev.cq c).phase) :
    Feeds c w (w.cqPushed c cdesc)
      [.dmaWrite (.cq c) w.dev (w.dev.cq c).slotAddr
        (cdesc.take (w.dev.cq c).entrySize.toNat)] := by
  have hentry : entriesOf c [.dmaWrite (.cq c) w.dev (w.dev.cq c).slotAddr
      (cdesc.take (w.dev.cq c).entrySize.toNat)] = [entry c w cdesc] := by
    simp [entriesOf,Event.entryOf,entry]
  refine ⟨cqPushed_trace w c cdesc,rfl,by rw [cqPushed_cq]; rfl,
    fun d pushed polled hinv hroom => ?_⟩
  rw [hentry] at hroom ⊢
  exact hinv.push rfl (cqPushed_cq w c cdesc) hlen hphase hroom

lemma Feeds.cqIntr (w : World) (d : CqIdx) (isTx : Bool) :
    ∃ es, Feeds c w (enaCqIntr w d isTx) es := by
  obtain ⟨es,htrace,hquiet⟩ := adds_cqIntr (P := fun e => e.entryOf c = none) w d isTx rfl
    fun _ _ => rfl
  have hintr := irqOnly_cqIntr w d isTx
  exact ⟨es,.of_mem htrace hquiet (congrFun hintr.sameQueues.cq c) hintr.mem⟩

section Tx
variable {net : Net} {i : SqIdx}

lemma backend_entryOf {e : Event} (h : e.Backend) : e.entryOf c = none := by
  cases e <;> first | rfl | exact absurd h id

/-- What a packet does before its completion. -/
lemma Feeds.taken {w₁ : World} {q : EnaSq} (h : TxQuietly (w.setSq i q) w₁) (n : ℕ) :
    ∃ es, Feeds c w (w₁.txTaken i n) es := by
  obtain ⟨es,htrace,hback⟩ := h.trace
  exact ⟨es,.of_mem htrace (fun e he => backend_entryOf (hback e he)) (congrFun h.cq c) h.mem⟩

lemma feeds_of_txStepped (h : TxStepped i w w') (hc : (w.dev.sq i).cqIdx.toNat = c.val) :
    ∃ es, Feeds c w w' es := by
  cases h with
  | discarded => exact ⟨[],.of_mem (List.append_nil _).symm (fun e he => by cases he) rfl rfl⟩
  | taken m n hn hq => exact Feeds.taken hq n
  | @completed w₁ m n hn hq c' reqId hc' =>
    obtain rfl : c' = c := Fin.ext (hc'.symm.trans hc)
    obtain ⟨es,hes⟩ := Feeds.taken (c := c') hq n
    have hpush := Feeds.push (txCdesc_length ((w₁.txTaken i n).dev.cq c').phase reqId
      (UInt16.ofNat i)
      ((w₁.txTaken i n).dev.sq i).head) (txCdesc_phase _ _ _ _)
    obtain ⟨fs,hfs⟩ := Feeds.cqIntr (c := c')
      ((w₁.txTaken i n).cqPushed c' (txCdesc ((w₁.txTaken i n).dev.cq c').phase
      reqId (UInt16.ofNat i) ((w₁.txTaken i n).dev.sq i).head)) c' true
    exact ⟨_,(hes.trans hpush).trans hfs⟩

lemma feeds_of_txRan (h : TxRan i w w') (hc : (w.dev.sq i).cqIdx.toNat = c.val) :
    ∃ es, Feeds c w w' es := by
  induction h with
  | refl => exact ⟨[],.refl c w⟩
  | @tail w₁ w₂ hran hstep ih =>
    obtain ⟨es,hes⟩ := ih
    obtain ⟨_,_,hsq⟩ := TxRan.sq hran
    obtain ⟨fs,hfs⟩ := feeds_of_txStepped hstep (by rw [hsq]; exact hc)
    exact ⟨es ++ fs,hes.trans hfs⟩

/-- A doorbell of a TX queue feeds the queue's CQ. -/
lemma feeds_of_doorbell {val : UInt64} (hw : TableInv w.dev) (hu : (w.dev.sq i).used = true)
    (htx : (w.dev.sq i).isTx = true) (hc : (w.dev.sq i).cqIdx.toNat = c.val)
    (hs : step net w (.regWrite (regSqDbBase + 4*i.val) val) = .ok w') : ∃ es, Feeds c w w' es := by
  rcases enaSqDoorbell_cases ((step_sqDoorbell net w i val).symm.trans hs) with rfl | ⟨-,hcount,
    hkind⟩
  · exact ⟨[],.refl c w'⟩
  obtain ⟨n,hiter,-⟩ := TxAccepted.iterates ⟨hu,htx,hcount⟩ hw hs
  have hsq := rung_sq w i val
  obtain ⟨es,hes⟩ := feeds_of_txRan (c := c)
    (hiter.ran (rung_tables hw hcount) (by rw [hsq]; exact hu)
    (by rw [hsq]; exact htx)) (by rw [hsq]; exact hc)
  have hrung : Feeds c w (w.rung i val) [] :=
    .of_mem (List.append_nil _).symm (fun e he => by cases he) rfl rfl
  exact ⟨es,hrung.trans hes⟩

end Tx

end CqChannel
end EnaDevice
