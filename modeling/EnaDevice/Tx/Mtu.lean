import EnaDevice.Tx.Csum

/-! The MTU on the wire. Frames without TSO are held to it; a TSO frame is cut into segments by the
backend, and nothing holds the segment size of the driver to the MTU. -/
namespace EnaDevice
open Bytes Result

/-- The segments of a TSO frame: its headers, and payload of up to the segment size. -/
def tsoSegments (hdrLen mss : ℕ) (frame : Bytes) : List Bytes :=
  (List.range ((frame.length - hdrLen + mss - 1)/mss)).map fun k =>
    frame.take hdrLen ++ ((frame.drop hdrLen).drop (k*mss)).take mss

/-- The frames that an event puts on the wire. The length of the headers of a TSO frame is what the
packet library finds. -/
def Event.onWire (net : Net) (hdrLen : Bytes → ℕ) : Event → List Bytes
  | .sendPacket frame => [frame]
  | .txPktSend frame offloads mss =>
    if net.netTxPktSend frame offloads mss then
      if offloads &&& txTsoEn ≠ 0 then tsoSegments (hdrLen frame) mss.toNat frame else [frame]
    else []
  | _ => []

/-- Everything that a step puts on the wire respects the MTU. -/
def WithinMtu (net : Net) (hdrLen : Bytes → ℕ) (w w' : World) : Prop :=
  Adds (fun e => ∀ frame ∈ e.onWire net hdrLen, frame.length ≤ w.dev.mtu.toNat + 18) w w'

/-- A packet whose frame is handed to the backend for segmentation. -/
structure TsoSent (net : Net) (w : World) (i : SqIdx) (p : EnaTxPkt) (frame : Bytes) : Prop where
  tso : p.metaCtrl &&& txTsoEn ≠ 0
  admitted : TxAdmitted (w.dev.sq i) p
  assembled : w.txAssembled i p = some frame
  passes : TxPasses net w.dev (w.dev.sq i).txMeta.mss p.offloads frame
  parsed : TxParsed net (w.dev.sq i).txMeta.mss (frame,txApplied net p.offloads frame)
  taken : net.netTxPktSend frame (txApplied net p.offloads frame) (w.dev.sq i).txMeta.mss = true

/-- The first segment of a frame, which is the longest, fits the MTU. -/
def SegmentFits (mtu hdrLen mss : ℕ) (frame : Bytes) : Prop :=
  hdrLen < frame.length → hdrLen + min mss (frame.length - hdrLen) ≤ mtu + 18

/-- Every TSO packet that the input rings in has a segment size that fits the MTU. -/
def SegmentsFit (net : Net) (hdrLen : Bytes → ℕ) (w : World) (inp : Input) : Prop :=
  ∀ addr val i n u p frame, inp = .regWrite addr val → inp.doorbell = some i → TxAccepted w i val →
    TxIterates net i n (w.rung i val) u → enaTxParse u i = .ok (some p) →
    TsoSent net (u.withMeta i p) i p frame →
    SegmentFits w.dev.mtu.toNat (hdrLen frame) ((u.withMeta i p).dev.sq i).txMeta.mss.toNat frame

/-- Every step of a run has a property; the run ends at the first abort. -/
def RunSteps (net : Net) (P : World → Input → World → Prop) : World → List Input → Prop
  | _, [] => True
  | w, inp::inputs => ∀ w', step net w inp = .ok w' → P w inp w' ∧ RunSteps net P w' inputs

/-- Two properties that agree on the steps from states with an invariant agree along runs. -/
lemma runSteps_congr {net : Net} {P P' : World → Input → World → Prop} {Q : World → Prop}
    (hQ : ∀ w inp w', Q w → step net w inp = .ok w' → Q w')
    (hP : ∀ w inp w', Q w → step net w inp = .ok w' → (P w inp w' ↔ P' w inp w')) {w : World}
    (hw : Q w) (inputs : List Input) : RunSteps net P w inputs ↔ RunSteps net P' w inputs := by
  induction inputs generalizing w with
  | nil => exact Iff.rfl
  | cons inp inputs ih =>
    refine forall_congr' fun w' => ⟨fun h hs => ?_,fun h hs => ?_⟩
    · exact ⟨(hP w inp w' hw hs).mp (h hs).1,(ih (hQ w inp w' hw hs)).mp (h hs).2⟩
    · exact ⟨(hP w inp w' hw hs).mpr (h hs).1,(ih (hQ w inp w' hw hs)).mpr (h hs).2⟩

section Segments
variable {hdrLen mss limit : ℕ} {frame : Bytes}

lemma tsoSegment_length (hh : hdrLen ≤ frame.length) (k : ℕ) :
    (frame.take hdrLen ++ ((frame.drop hdrLen).drop (k*mss)).take mss).length =
      hdrLen + min mss (frame.length - hdrLen - k*mss) := by
  rw [List.length_append,List.length_take,List.length_take,List.length_drop,List.length_drop,
    Nat.min_eq_left hh]

/-- The first segment is the longest. -/
lemma tsoSegments_fit (hm : 0 < mss) :
    (∀ s ∈ tsoSegments hdrLen mss frame, s.length ≤ limit) ↔
      (hdrLen < frame.length → hdrLen + min mss (frame.length - hdrLen) ≤ limit) := by
  unfold tsoSegments
  constructor
  · intro hall hlt
    have hcount : 0 < (frame.length - hdrLen + mss - 1)/mss := Nat.div_pos (by omega) hm
    have hfirst := hall _ (List.mem_map.mpr ⟨0,List.mem_range.mpr hcount,rfl⟩)
    rw [tsoSegment_length hlt.le,Nat.zero_mul,Nat.sub_zero] at hfirst
    exact hfirst
  · intro hfit s hs
    obtain ⟨k,hk,rfl⟩ := List.mem_map.mp hs
    have hlt : hdrLen < frame.length := by
      by_contra hno
      have hnone : (frame.length - hdrLen + mss - 1)/mss = 0 := Nat.div_eq_of_lt (by omega)
      rw [hnone] at hk
      exact absurd (List.mem_range.mp hk) (Nat.not_lt_zero k)
    rw [tsoSegment_length hlt.le]
    exact le_trans (Nat.add_le_add_left (min_le_min_left _ (Nat.sub_le _ _)) _) (hfit hlt)

end Segments

section Tso
variable {net : Net} {hdrLen : Bytes → ℕ} {w w' u : World} {i : SqIdx} {p : EnaTxPkt}
  {frame : Bytes}

/-- The TSO bit is never dropped. -/
lemma txApplied_tso (net : Net) (offloads : UInt32) (frame : Bytes) :
    txApplied net offloads frame &&& txTsoEn = offloads &&& txTsoEn := by
  have hl3 : ∀ x : UInt32, x &&& ~~~txL3CsumEn &&& txTsoEn = x &&& txTsoEn := by
    intro x
    rw [UInt32.and_assoc]
    rfl
  have hl4 : ∀ x : UInt32, x &&& ~~~txL4CsumEn &&& txTsoEn = x &&& txTsoEn := by
    intro x
    rw [UInt32.and_assoc]
    rfl
  unfold txApplied txApplicable
  dsimp only
  rw [apply_ite (· &&& txTsoEn),hl4,ite_self]
  rw [apply_ite (· &&& txTsoEn),hl3,ite_self]

/-- With TSO the frame goes to the backend as it was assembled. -/
lemma txPrepared_tso (net : Net) (frame : Bytes) (h : p.metaCtrl &&& txTsoEn ≠ 0) :
    txPrepared net (txApplied net p.offloads frame) frame =
      (frame,txApplied net p.offloads frame) := by
  rw [txPrepared,if_neg]
  rintro ⟨-,hzero⟩
  rw [txApplied_tso,offloads_tso] at hzero
  exact h hzero

lemma txPrepared_plain (h : p.metaCtrl &&& txTsoEn = 0) :
    (txPrepared net (txApplied net p.offloads frame) frame).2 &&& txTsoEn = 0 := by
  have hzero : txApplied net p.offloads frame &&& txTsoEn = 0 := by
    rw [txApplied_tso,offloads_tso,h]
  unfold txPrepared
  split_ifs
  · change txApplied net p.offloads frame &&& ~~~txL3CsumEn &&& txTsoEn = 0
    rw [UInt32.and_assoc,UInt32.and_comm (~~~txL3CsumEn),← UInt32.and_assoc,hzero,UInt32.zero_and]
  · exact hzero

end Tso

/-- What holds of all new events holds of those in the middle. -/
lemma Adds.middle {P Q : Event → Prop} {a b c d : World} (hab : Adds Q a b) (hbc : Adds Q b c)
    (hcd : Adds Q c d) (h : Adds P a d) : Adds P b c := by
  obtain ⟨es₁,h₁,-⟩ := hab
  obtain ⟨es₂,h₂,-⟩ := hbc
  obtain ⟨es₃,h₃,-⟩ := hcd
  obtain ⟨es,hes,hall⟩ := h
  refine ⟨es₂,h₂,fun e he => hall e ?_⟩
  rw [h₃,h₂,h₁,List.append_assoc,List.append_assoc,List.append_cancel_left_eq] at hes
  rw [← hes]
  exact List.mem_append_right _ (List.mem_append_left _ he)

section Wire
variable {net : Net} {hdrLen : Bytes → ℕ} {w w' u : World} {i : SqIdx} {p : EnaTxPkt}
  {frame : Bytes} {limit : ℕ} {n : ℕ} {inp : Input}

/-- An event puts nothing on the wire that is over the limit. -/
def Event.Within (net : Net) (hdrLen : Bytes → ℕ) (limit : ℕ) (e : Event) : Prop :=
  ∀ frame ∈ e.onWire net hdrLen, frame.length ≤ limit

lemma within_of_silent (e : Event) (h : e.handedOver = none) : e.Within net hdrLen limit := by
  cases e <;> first | exact fun _ hf => absurd hf List.not_mem_nil | cases h

lemma TsoSent.mss_pos (h : TsoSent net w i p frame) : 0 < (w.dev.sq i).txMeta.mss.toNat := by
  rw [Nat.pos_iff_ne_zero]
  intro hz
  have hm := (h.passes.tso (by rw [offloads_tso p]; exact h.tso)).1
  exact hm (UInt16.toNat_inj.mp hz)

/-- What a packet puts on the wire is within the MTU if its segments are. -/
lemma TxResult.within (hw : TableInv w.dev) (h : TxResult net w i p w')
    (hfit : ∀ frame, TsoSent net w i p frame →
      SegmentFits w.dev.mtu.toNat (hdrLen frame) (w.dev.sq i).txMeta.mss.toNat frame) :
    Adds (Event.Within net hdrLen (w.dev.mtu.toNat + 18)) w w' := by
  have hplain : ∀ {frame : Bytes}, TxPasses net w.dev (w.dev.sq i).txMeta.mss p.offloads frame →
      p.metaCtrl &&& txTsoEn = 0 →
      (txPrepared net (txApplied net p.offloads frame) frame).1.length ≤ w.dev.mtu.toNat + 18 := by
    intro frame hp hno
    rw [txPrepared_length,← hw.maxFrame]
    exact hp.mtu ((offloads_tso p).trans hno)
  cases h with
  | refused => exact .refl w
  | unread => exact .of_eq rfl
  | filtered => exact .refl w
  | dropped => exact .of_eq rfl
  | @sent frame r ha hb hp hr hzero =>
    subst hr
    refine Adds.trans (.emit ?_) (.of_eq rfl)
    intro f hf
    rw [List.mem_singleton.mp hf]
    refine hplain hp ?_
    by_contra hyes
    rw [txPrepared_tso net frame hyes] at hzero
    have htso := txApplied_tso net p.offloads frame
    change txApplied net p.offloads frame = 0 at hzero
    rw [hzero,offloads_tso,UInt32.zero_and] at htso
    exact hyes htso.symm
  | unparsable =>
    exact Adds.trans (.emit fun _ hf => absurd hf List.not_mem_nil) (.of_eq rfl)
  | @offloaded frame r ha hb hp hr hne hgood hsend =>
    subst hr
    refine Adds.trans (Adds.trans (.emit fun _ hf => absurd hf List.not_mem_nil) (.emit ?_))
      (.of_eq rfl)
    intro f hf
    rw [Event.onWire,if_pos hsend] at hf
    by_cases hyes : p.metaCtrl &&& txTsoEn = 0
    · rw [if_neg (not_not.mpr (txPrepared_plain hyes))] at hf
      rw [List.mem_singleton.mp hf]
      exact hplain hp hyes
    · have hprep := txPrepared_tso net frame hyes
      rw [hprep] at hf hsend hgood
      have htso : txApplied net p.offloads frame &&& txTsoEn ≠ 0 := by
        rw [txApplied_tso,offloads_tso]
        exact hyes
      rw [if_pos htso] at hf
      have hsent : TsoSent net w i p frame := ⟨hyes,ha,hb,hp,hgood,hsend⟩
      exact (tsoSegments_fit hsent.mss_pos).mpr (hfit frame hsent) f hf
  | notTaken ha hb hp hr hne hgood hsend =>
    refine Adds.trans (.emit fun _ hf => absurd hf List.not_mem_nil) (.emit ?_)
    intro f hf
    rw [Event.onWire,if_neg (by rw [hsend]; exact Bool.false_ne_true)] at hf
    cases hf

lemma TxResult.adds_any (h : TxResult net w i p w') : Adds (fun _ => True) w w' := by
  cases h with
  | refused => exact .refl w
  | unread => exact .of_eq rfl
  | filtered => exact .refl w
  | dropped => exact .of_eq rfl
  | sent => exact Adds.trans (.emit trivial) (.of_eq rfl)
  | unparsable => exact Adds.trans (.emit trivial) (.of_eq rfl)
  | offloaded => exact Adds.trans (Adds.trans (.emit trivial) (.emit trivial)) (.of_eq rfl)
  | notTaken => exact Adds.trans (.emit trivial) (.emit trivial)

/-- A TSO packet that is sent puts its segments on the wire. -/
lemma TsoSent.within (h : TsoSent net w i p frame) (hresult : TxResult net w i p w')
    (hwire : Adds (Event.Within net hdrLen (w.dev.mtu.toNat + 18)) w w') :
    SegmentFits w.dev.mtu.toNat (hdrLen frame) (w.dev.sq i).txMeta.mss.toNat frame := by
  have hprep := txPrepared_tso net frame h.tso
  have htso : txApplied net p.offloads frame &&& txTsoEn ≠ 0 := by
    rw [txApplied_tso,offloads_tso]
    exact h.tso
  have hne : txApplied net p.offloads frame ≠ 0 := by
    intro hz
    rw [hz] at htso
    exact htso UInt32.zero_and
  have heq := hresult.passed h.admitted h.assembled h.passes
  rw [hprep,enaTxSend,if_neg hne] at heq
  dsimp only at heq
  rw [if_neg (by simp [h.parsed.1,h.parsed.2]),if_pos h.taken] at heq
  subst heq
  obtain ⟨es,htrace,hall⟩ := hwire
  have hes : w.trace ++ [.addRawFragment frame,
      .txPktSend frame (txApplied net p.offloads frame) (w.dev.sq i).txMeta.mss] = w.trace ++
        es := by
    rw [← htrace]
    change _ = w.trace ++ [_] ++ [_]
    rw [List.append_assoc]
    rfl
  have hlist := List.append_cancel_left hes
  have hwithin := hall _ (by rw [← hlist]; exact List.mem_cons_of_mem _ List.mem_cons_self)
  rw [Event.Within,Event.onWire,if_pos h.taken,if_pos htso] at hwithin
  exact (tsoSegments_fit h.mss_pos).mp hwithin

/-- A step respects the MTU exactly if the segments of its TSO packets do. -/
lemma step_withinMtu (hw : TableInv w.dev) (hs : step net w inp = .ok w') :
    WithinMtu net hdrLen w w' ↔ SegmentsFit net hdrLen w inp := by
  constructor
  · intro hwithin addr val i n u p frame hinp hdb hacc hiter hparse hsent
    subst hinp
    rw [step_of_doorbell net w hdb] at hs
    obtain ⟨m,hall,hdone⟩ := hacc.iterates hw hs
    obtain ⟨k,hrest⟩ := hiter.split hall hdone
    obtain ⟨hwu,huu,htxu,-,-,hmtu⟩ := hacc.at_packet hw hiter p
    -- the packet is processed by the next iteration, whose events are among those of the step
    cases hrest with
    | done =>
      have hposted := ((hwu.sq i huu).txPkt hparse).posted
      rw [hdone,UInt16.sub_self] at hposted
      exact absurd hposted (Nat.not_lt_zero _)
    | @next _ _ u₁ _ hnext hrest =>
      obtain ⟨w₁,hresult,hafter⟩ := (enaTxDoorbellStep_processed hwu huu hparse hnext.step).silent
      have hany : ∀ {a b : World} {j : ℕ}, TableInv a.dev → (a.dev.sq i).used = true →
          (a.dev.sq i).isTx = true → TxIterates net i j a b → Adds (fun _ => True) a b :=
        fun ha hua htxa hj => hj.adds (fun _ _ => trivial) ha hua htxa fun _ _ _ _ _ _ hr =>
          hr.adds_any
      have hsq := rung_sq w i val
      have hbefore := hany (rung_tables hw hacc.count) (by rw [hsq]; exact hacc.used)
        (by rw [hsq]; exact hacc.isTx) hiter
      have hmeta : Adds (fun _ => True) u (u.withMeta i p) := .of_eq (withMeta_trace u i p)
      obtain ⟨hw₁,hu₁,htx₁⟩ := (TxIterates.next hnext (.done u₁)).tables hwu huu htxu
      have hbehind := (hafter.mono fun _ _ => trivial).trans (hany hw₁ hu₁ htx₁ hrest)
      have hmid := Adds.middle (hbefore.trans hmeta) hresult.adds_any hbehind hwithin
      rw [← hmtu] at hmid ⊢
      exact hsent.within hresult hmid
  · intro hfit
    rcases step_handed hw hs with hsilent | ⟨i,addr,val,hinp,hdb,hacc,hstep⟩
    · exact hsilent.mono within_of_silent
    · refine hacc.adds within_of_silent hw hstep fun k u p w₁ hk hparse hresult => ?_
      obtain ⟨-,-,-,hwm,-,hmtu⟩ := hacc.at_packet hw hk p
      rw [← hmtu]
      refine hresult.within hwm fun frame hsent => ?_
      rw [hmtu]
      exact hfit addr val i k u p frame hinp hdb hacc hk hparse hsent

/-- The MTU on everything transmitted: a run from reset keeps every frame on the wire within the MTU
exactly if the segments of its TSO packets fit the MTU that is set when they are rung in. -/
theorem mtu_enforced_iff (net : Net) (hdrLen : Bytes → ℕ) (w₀ : World) (inputs : List Input) :
    RunSteps net (fun w _ w' => WithinMtu net hdrLen w w') (enaDevReset w₀) inputs ↔
      RunSteps net (fun w inp _ => SegmentsFit net hdrLen w inp) (enaDevReset w₀) inputs := by
  refine runSteps_congr (Q := fun w => TableInv w.dev ∧
    TxIdle none w.dev) (fun _ _ _ => step_tables)
    (fun w inp w' hw hs => step_withinMtu hw.1 hs) (reset_tables w₀) inputs

/-- The library that takes every frame for segmentation. -/
def Net.segmenting : Net :=
  { Net.linear with
    netTxPktParse := fun _ => true
    netTxPktBuildVheader := fun _ _ _ _ => true
    netTxPktSend := fun _ _ _ => true }

/-- The headers of a TCP frame over IPv4. -/
def tcpHdrLen (frame : Bytes) : ℕ :=
  let l2 := Net.segmenting.ethGetL2HdrLength frame
  let l4 := l2 + ipHdrLen (u8At frame l2)
  l4 + 4*(u8At frame (l4+12) >>> 4).toNat

/-- A TCP segment with 120 bytes of payload. -/
def tcpFrame : Bytes :=
  List.replicate 6 0xff ++ List.replicate 6 2 ++ [8,0] ++
    [0x45,0,0,160,0,1,0,0,64,6,0,0,10,0,0,1,10,0,0,2] ++
    [0,80,0,81] ++ zeros 8 ++ [0x50,0x10] ++ zeros 6 ++ List.replicate 120 7

/-- A driver that sets the smallest MTU, and then posts a packet for segmentation with a segment
size of 200. -/
def tsoSetup : List Input :=
  driverSetup [createCqCmd,createSqCmd sqIdentityTx,
      pad 64 ([0,0,9,0] ++ zeros 12 ++ [0,14,0,0] ++ ofLe32 128)]
    [(0x4000,ofLe32 0x00814000 ++ ofLe32 0 ++ ofLe32 0x32000000 ++ ofLe32 0 ++
      ofLe32 0x180000ae ++ ofLe32 0x80 ++ ofLe32 0x5000 ++ ofLe32 0),(0x5000,tcpFrame)]

/-- A segment of 174 bytes goes out while the MTU is 128. -/
theorem mtu_exceeded_by_segment :
    ∃ w w', run Net.segmenting freshWorld tsoSetup = .ok w ∧ w.dev.mtu = 128 ∧
      step Net.segmenting w (sqDoorbell 0 2) = .ok w' ∧
      (∃ e ∈ w'.trace.drop w.trace.length, tcpFrame ∈ e.onWire Net.segmenting tcpHdrLen) ∧
      tcpFrame.length = 174 ∧ ¬ WithinMtu Net.segmenting tcpHdrLen w w' := by
  obtain ⟨w,hrun,hw⟩ := exists_of_okAnd
    (p := fun w : World => decide (w.dev.mtu = 128) && okAnd (fun w' : World =>
      (w'.trace.drop w.trace.length).any fun e =>
        decide (tcpFrame ∈ e.onWire Net.segmenting tcpHdrLen))
        (step Net.segmenting w (sqDoorbell 0 2)))
    (x := run Net.segmenting freshWorld tsoSetup) (by decide +kernel)
  rw [Bool.and_eq_true,decide_eq_true_eq] at hw
  obtain ⟨w',hstep,hany⟩ := exists_of_okAnd hw.2
  obtain ⟨e,he,hwire⟩ := List.any_eq_true.mp hany
  rw [decide_eq_true_eq] at hwire
  refine ⟨w,w',hrun,hw.1,hstep,⟨e,he,hwire⟩,by decide +kernel,?_⟩
  rintro ⟨es,htrace,hall⟩
  rw [htrace,List.drop_left] at he
  have hle := hall e he tcpFrame hwire
  rw [hw.1] at hle
  exact absurd hle (by decide +kernel)

end Wire
end EnaDevice
