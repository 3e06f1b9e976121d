import EnaDevice.Invariant.Step

/-! What a TX doorbell may change: its own queue, the tail and phase of its CQ, the interrupt state
of the CQ's vector, the TX counters, and guest memory in the ring of the CQ. -/
namespace EnaDevice
open Bytes Result

/-- The addresses of a completion ring. -/
def EnaCq.InRing (q : EnaCq) (x : UInt64) : Prop :=
  InRegion q.base (q.depth.toNat*q.entrySize.toNat) x

instance (q : EnaCq) : DecidablePred q.InRing := fun _ =>
    inferInstanceAs (Decidable (InRegion _ _ _))

structure TxFrame (i : SqIdx) (c : CqIdx) (w w' : World) : Prop where
  sq : ∃ head tail m, w'.dev.sq =
    Function.update w.dev.sq i { w.dev.sq i with head := head, tail := tail, txMeta := m }
  cq : ∃ tail phase, w'.dev.cq =
    Function.update w.dev.cq c { w.dev.cq c with tail := tail, phase := phase }
  irq : ∀ v, (w.dev.cq c).vec ≠ some v → w'.dev.irq v = w.dev.irq v
  rest : w'.dev = { w.dev with
    sq := w'.dev.sq, cq := w'.dev.cq, irq := w'.dev.irq,
    txPkts := w'.dev.txPkts, txBytes := w'.dev.txBytes, txDrops := w'.dev.txDrops }
  mem : Memory.Agrees (w.dev.cq c).InRing w.mem w'.mem
  stale : w'.mem.stale = w.mem.stale
  llq : w'.llq = w.llq
  clock : w'.clock = w.clock
  linkUp : w'.linkUp = w.linkUp

section
variable {i : SqIdx} {c : CqIdx} {w w' w'' : World}

namespace TxFrame

lemma cq_eq (h : TxFrame i c w w') :
    ∃ tail phase, w'.dev.cq c = { w.dev.cq c with tail := tail, phase := phase } := by
  obtain ⟨tail,phase,hcq⟩ := h.cq
  exact ⟨tail,phase,by rw [hcq,Function.update_self]⟩

lemma trans (h : TxFrame i c w w') (h' : TxFrame i c w' w'') : TxFrame i c w w'' := by
  obtain ⟨tail,phase,hcq⟩ := h.cq
  obtain ⟨tail',phase',hcq'⟩ := h'.cq
  obtain ⟨_,_,_,hsq⟩ := h.sq
  obtain ⟨head',stail',m',hsq'⟩ := h'.sq
  have hvec : (w'.dev.cq c).vec = (w.dev.cq c).vec := by
    rw [hcq,Function.update_self]
    rfl
  have hring : (w'.dev.cq c).InRing = (w.dev.cq c).InRing := by
    rw [hcq,Function.update_self]
    rfl
  refine ⟨⟨head',stail',m',?_⟩,⟨tail',phase',?_⟩,fun v hv => ?_,?_,h.mem.trans (hring ▸ h'.mem),
    h'.stale.trans h.stale,h'.llq.trans h.llq,h'.clock.trans h.clock,h'.linkUp.trans h.linkUp⟩
  · rw [hsq',hsq,Function.update_self,Function.update_idem]
  · rw [hcq',hcq,Function.update_self,Function.update_idem]
  · exact (h'.irq v (by rw [hvec]; exact hv)).trans (h.irq v hv)
  · rw [h'.rest,h.rest]

lemma refl (w : World) : TxFrame i c w w :=
  ⟨⟨_,_,_,(Function.update_eq_self _ _).symm⟩,⟨_,_,(Function.update_eq_self _ _).symm⟩,
    fun _ _ => rfl,rfl,.refl _,rfl,rfl,rfl,rfl⟩

lemma setSq (w : World) (i : SqIdx) (head tail : UInt16) (m : EnaTxMeta) :
    TxFrame i c w (w.setSq i { w.dev.sq i with head := head, tail := tail, txMeta := m }) :=
  ⟨⟨_,_,_,rfl⟩,⟨_,_,(Function.update_eq_self _ _).symm⟩,fun _ _ => rfl,rfl,.refl _,rfl,rfl,rfl,rfl⟩

lemma quietly (h : TxQuietly w w') : TxFrame i c w w' := by
  obtain ⟨_,_,_,hdev⟩ := h.dev
  have hmem : Memory.Agrees (w.dev.cq c).InRing w.mem w'.mem := by
    rw [h.mem]
    exact .refl _
  have hsq : w'.dev.sq = w.dev.sq := by rw [hdev]
  have hcq : w'.dev.cq = w.dev.cq := by rw [hdev]
  refine ⟨⟨_,_,_,hsq.trans (Function.update_eq_self _ _).symm⟩,
    ⟨_,_,hcq.trans (Function.update_eq_self _ _).symm⟩,fun v _ => by rw [hdev],?_,hmem,
      by rw [h.mem],
    h.llq,h.clock,h.linkUp⟩
  rw [hdev]

lemma irqOnly (h : IrqOnly (fun v => (w.dev.cq c).vec = some v) w w') : TxFrame i c w w' := by
  have hmem : Memory.Agrees (w.dev.cq c).InRing w.mem w'.mem := by
    rw [h.mem]
    exact .refl _
  have hsq : w'.dev.sq = w.dev.sq := by rw [h.dev]
  have hcq : w'.dev.cq = w.dev.cq := by rw [h.dev]
  refine ⟨⟨_,_,_,hsq.trans (Function.update_eq_self _ _).symm⟩,
    ⟨_,_,hcq.trans (Function.update_eq_self _ _).symm⟩,h.irq,?_,hmem,by rw [h.mem],h.llq,h.clock,
      h.linkUp⟩
  rw [h.dev]

lemma cqPushed (hok : (w.dev.cq c).Ok) (cdesc : Bytes) : TxFrame i c w (w.cqPushed c cdesc) := by
  have hlen : (cdesc.take (w.dev.cq c).entrySize.toNat).length ≤ (w.dev.cq c).entrySize.toNat :=
    List.length_take_le _ _
  refine ⟨⟨_,_,_,(Function.update_eq_self _ _).symm⟩,⟨_,_,rfl⟩,fun _ _ => rfl,rfl,?_,rfl,rfl,rfl,
    rfl⟩
  exact .write fun x hx => hok.slot_within x (within_of_le _ hlen x hx)

end TxFrame

lemma txTaken_frame (w : World) (n : ℕ) : TxFrame i c w (w.txTaken i n) := .setSq w i _ _ _

lemma TxStepped.frame (h : TxStepped i w w') (hw : TableInv w.dev)
    (hc : (w.dev.sq i).cqIdx.toNat = c.val) :
    TxFrame i c w w' := by
  have htake : ∀ {w₁ : World} {m : EnaTxMeta} (n : ℕ),
      TxQuietly (w.setSq i { w.dev.sq i with txMeta := m }) w₁ → TxFrame i c w (w₁.txTaken i n) :=
    fun n hq => ((TxFrame.setSq w i _ _ _).trans (.quietly hq)).trans (txTaken_frame _ n)
  cases h with
  | discarded => exact (TxFrame.quietly (txQuietly_drop w)).trans (txTaken_frame _ _)
  | taken m n hn hq => exact htake n hq
  | @completed w₁ m n hn hq c' reqId hc' hu =>
    obtain rfl : c' = c := Fin.ext (hc'.symm.trans hc)
    have hframe := htake n hq
    have hcq : (w₁.txTaken i n).dev.cq = w.dev.cq := hq.cq
    have hok : ((w₁.txTaken i n).dev.cq c').Ok := by
      rw [hcq]
      exact hw.cq c' hu
    exact (hframe.trans (.cqPushed hok _)).trans (.irqOnly (irqOnly_cqIntr _ c' true))

lemma TxRan.frame (h : TxRan i w w') (hw : TableInv w.dev) (htx : (w.dev.sq i).isTx = true)
    (hc : (w.dev.sq i).cqIdx.toNat = c.val) : TxFrame i c w w' := by
  induction h with
  | refl => exact .refl w
  | @tail w₁ w₂ hran hstep ih =>
    have hpath : Path w (.regWrite (regSqDbBase + 4*i.val) 0) w w₁ :=
      TxRan.path hran hw htx (doorbell_regWrite i 0)
    obtain ⟨_,_,hsq⟩ := TxRan.sq hran
    exact ih.trans (hstep.frame (hpath.tableInv hw) (by rw [hsq]; exact hc))

/-- The doorbell of a TX queue, accepted or not, never aborts and stays in its frame. -/
lemma enaSqDoorbell_frame (net : Net) (val : UInt32) (hw : TableInv w.dev)
    (hu : (w.dev.sq i).used = true) (htx : (w.dev.sq i).isTx = true)
    (hc : (w.dev.sq i).cqIdx.toNat = c.val) :
    Holds (fun _ => False) (TxFrame i c w) (enaSqDoorbell net w i val) := by
  unfold enaSqDoorbell
  refine holds_ite (fun _ => holds_pure (.refl w)) fun _ => ?_
  refine holds_ite (fun _ => holds_pure (.refl w)) fun hcount => ?_
  replace hcount := UInt16.not_lt.mp hcount
  have htail : Effect w (.regWrite (regSqDbBase + 4*i.val) 0) w
      (w.setSq i { w.dev.sq i with tail := val.toUInt16 }) :=
    .sqTail i val.toUInt16 (doorbell_regWrite i 0) hcount
  have hw₁ := htail.tableInv hw
  have hframe : TxFrame i c w (w.setSq i { w.dev.sq i with tail := val.toUInt16 }) :=
    .setSq w i _ _ _
  have hsq₁ : (w.setSq i { w.dev.sq i with tail := val.toUInt16 }).dev.sq i =
    { w.dev.sq i with tail := val.toUInt16 } := World.setSq_sq _ _ _
  dsimp only
  rw [if_pos htx]
  have htx₁ : ((w.setSq i { w.dev.sq i with tail := val.toUInt16 }).dev.sq i).isTx = true := by
    rw [hsq₁]
    exact htx
  refine holds_mono (enaTxDoorbell_ran net hw₁ (by rw [hsq₁]; exact hu) htx₁) fun w' h => ?_
  exact hframe.trans (h.1.frame hw₁ htx₁ (by rw [hsq₁]; exact hc))

end
end EnaDevice
