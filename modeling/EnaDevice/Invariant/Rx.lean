import EnaDevice.Rx.Collect

/-! A received frame stays within its buffers and its queue. -/
namespace EnaDevice
open Bytes Result Relation

section
variable {w₀ w : World} {inp : Input} {i : SqIdx} {c : CqIdx}

lemma quietly_rxDrop (w : World) : Quietly w w.rxDrop := .setDev ⟨rfl,rfl,rfl,rfl,rfl,rfl⟩ rfl

/-- A descriptor whose buffer was posted when the frame arrived. -/
def Posted (w₀ : World) (i : SqIdx) (d : EnaRxDesc) : Prop :=
  ∃ n < (w₀.dev.sq i).avail, GoodDesc w₀.mem (w₀.dev.sq i) n d

lemma RxPrefix.posted {len : ℕ} {ds : List EnaRxDesc} (h : RxPrefix w₀.mem (w₀.dev.sq i) len ds) :
    ∀ d ∈ ds, Posted w₀ i d := by
  intro d hd
  obtain ⟨n,hn,hget⟩ := List.getElem_of_mem hd
  exact ⟨n,hn.trans_le h.avail,h.good n d (by rw [List.getElem?_eq_getElem hn,hget])⟩

lemma Posted.granted {d : EnaRxDesc} (h : Posted w₀ i d) (hu : (w₀.dev.sq i).used = true)
    (hrx : (w₀.dev.sq i).isTx = false) (s : EnaState) {len : ℕ} (hlen : len ≤ d.size) :
    Granted w₀ s d.addr len (.rxBuf i) := by
  obtain ⟨n,hn,hread,hvalid⟩ := h
  have hid : d.reqId < (w₀.dev.sq i).depth := by
    rw [EnaRxDesc.valid,Bool.and_eq_true,decide_eq_true_eq] at hvalid
    exact hvalid.2
  exact ⟨hu,hrx,n,d,hn,hread,hid,within_of_le _ hlen⟩

lemma rxScattered_path (frame : Bytes) (status hash : UInt32) (ds : List EnaRxDesc) (first : Bool)
    (off : ℕ) (hw : TableInv w.dev) (huc : (w.dev.cq c).used = true)
    (hu : (w₀.dev.sq i).used = true) (hrx : (w₀.dev.sq i).isTx = false)
    (hds : ∀ d ∈ ds, Posted w₀ i d) (hinp : ∃ f, inp = .receive f) :
    Path w₀ inp w (rxScattered i c frame status hash ds first off w) := by
  induction ds generalizing first off w with
  | nil => exact .refl
  | cons d ds ih =>
    unfold rxScattered
    dsimp only
    have hlen : ((frame.drop off).take (min d.size (frame.length - off))).length ≤ d.size := by
      rw [List.length_take]
      omega
    have hbuf : Path w₀ inp w (enaDmaWrite w (.rxBuf i) d.addr
        ((frame.drop off).take (min d.size (frame.length - off)))) :=
      .single (.dma _ _ _ hinp ((hds d List.mem_cons_self).granted hu hrx _ hlen))
    have hw₁ := hbuf.tableInv hw
    have hpush := hbuf.trans (cqPushed_path (rxCompletion status hash i first ds.isEmpty
      (min d.size (frame.length - off)) d (w.dev.cq c).phase) hw₁ huc (.inr hinp))
    refine hpush.trans (ih _ _ (Path.tableInv hpush hw) ?_ fun e he => hds e (.tail d he))
    rw [cqPushed_cq]
    exact huc

lemma rxScattered_sq (frame : Bytes) (status hash : UInt32) (ds : List EnaRxDesc) (first : Bool)
    (off : ℕ) : (rxScattered i c frame status hash ds first off w).dev.sq = w.dev.sq := by
  induction ds generalizing first off w with
  | nil => rfl
  | cons d ds ih => exact (ih _ _).trans rfl

lemma rxScattered_used (frame : Bytes) (status hash : UInt32) (ds : List EnaRxDesc) (first : Bool)
    (off : ℕ) (h : (w.dev.cq c).used = true) :
    ((rxScattered i c frame status hash ds first off w).dev.cq c).used = true := by
  induction ds generalizing first off w with
  | nil => exact h
  | cons d ds ih =>
    refine ih _ _ (cqPushed_used ?_ _)
    exact h

/-- The last piece of the frame is completed last. -/
lemma rxScattered_justPushed (frame : Bytes) (status hash : UInt32) {ds : List EnaRxDesc}
    (hds : ds ≠ []) (first : Bool) (off : ℕ) :
    (rxScattered i c frame status hash ds first off w).JustPushed c := by
  induction ds generalizing first off w with
  | nil => exact absurd rfl hds
  | cons d ds ih =>
    cases ds with
    | nil => exact cqPushed_justPushed _ c _
    | cons e ds => exact ih (List.cons_ne_nil e ds) _ _

lemma rxTook_path (n len : ℕ) (hrx : (w.dev.sq i).isTx = false) (hn : n ≤ (w.dev.sq i).avail)
    (hinp : ∃ frame, inp = .receive frame) :
    Path w₀ inp w (w.rxTook i n len) := by
  have hhead : Path w₀ inp w (w.setSq i
      { w.dev.sq i with head := (w.dev.sq i).head + UInt16.ofNat n }) :=
    .single (.sqHead i n (fun htx => absurd htx (by simp [hrx])) (fun _ => hinp) hn)
  exact hhead.tail (.quiet (.setDev ⟨rfl,rfl,rfl,rfl,rfl,rfl⟩ rfl))

lemma RxOutcome.path {net : Net} {frame : Bytes} {w' : World} (h : RxOutcome net w frame w')
    (hw : TableInv w.dev) : Path w (.receive frame) w w' := by
  cases h with
  | ignored => exact .refl
  | dropped => exact .single (.quiet (quietly_rxDrop w))
  | short => exact .single (.quiet (quietly_rxDrop w))
  | @bad i c ds hs hp hcap hlt hmax hbad =>
    have hrx := (enaRxSq_used hs.sq).2
    have hhead : Path w (.receive frame) w (w.setSq i
        { w.dev.sq i with head := (w.dev.sq i).head + UInt16.ofNat (ds.length+1) }) :=
      .single (.sqHead i (ds.length+1) (fun htx => absurd htx (by simp [hrx]))
        (fun _ => ⟨frame,rfl⟩) hlt)
    exact hhead.tail (.quiet (quietly_rxDrop _))
  | @delivered i c ds hs hp hcap =>
    obtain ⟨hu,hrx⟩ := enaRxSq_used hs.sq
    have hscatter : Path w (.receive frame) w _ :=
      rxScattered_path frame (enaRxStatus net frame) (enaRssHash net w.dev frame) ds true 0 hw hs.cq
        hu hrx hp.posted ⟨frame,rfl⟩
    have htook := hscatter.trans (rxTook_path ds.length frame.length
      (by rw [rxScattered_sq]; exact hrx) (by rw [rxScattered_sq]; exact hp.avail) ⟨frame,rfl⟩)
    have hne : ds ≠ [] := by
      rintro rfl
      have hmin := hs.accepts.min
      exact absurd (hmin.trans hcap) (by decide)
    exact htook.tail (.cqIntr c false (rxScattered_used _ _ _ _ _ _ hs.cq)
      (rxScattered_justPushed _ _ _ hne _ _))

theorem enaRxReceiveIov_spec (net : Net) (frame : Bytes) (hw : TableInv w.dev) :
    Holds Fault.Deliberate (Path w (.receive frame) w) (enaRxReceiveIov net w frame) :=
  holds_imp (enaRxReceiveIov_outcome net frame hw) (fun _ h => h.elim) fun _ h => h.path hw

end
end EnaDevice
