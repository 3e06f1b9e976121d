import EnaDevice.Control.Acted
import EnaDevice.Rx.Delivery

/-! RX statistics against the stream of completions: every packet that is counted has one first and
one last completion, and the bytes are those that the completions announce. -/
namespace EnaDevice
open Bytes Result

/-- The completion entries that were written from one world to a later one. -/
def newCompletions (w w' : World) : List Bytes :=
  (w'.trace.drop w.trace.length).filterMap fun e => e.completion.map fun r => r.2.2

/-- RX completions are the ones that a received frame makes. -/
def rxCompletions (w w' : World) : Input → List Bytes
  | .receive _ => newCompletions w w'
  | _ => []

def rxEntryFirst (entry : Bytes) : Bool := le32At entry 0 &&& rxCdescFirst != 0
def rxEntryLast (entry : Bytes) : Bool := le32At entry 0 &&& rxCdescLast != 0
def rxEntryLength (entry : Bytes) : ℕ := (le16At entry 4).toNat

/-- A run of the device with the RX completions since the last reset. -/
inductive RxHistory (net : Net) : World → List Bytes → Prop
  | reset (w₀ : World) : RxHistory net (enaDevReset w₀) []
  | step {w w' : World} {inp : Input} {cs : List Bytes} (h : RxHistory net w cs)
    (hs : step net w inp = .ok w') (hno : ¬ inp.Resets) :
    RxHistory net w' (cs ++ rxCompletions w w' inp)
  | resets {w w' : World} {inp : Input} {cs : List Bytes} (h : RxHistory net w cs)
    (hs : step net w inp = .ok w') (hreset : inp.Resets) : RxHistory net w' []

/-- The statistics agree with the completions. -/
structure RxCounted (s : EnaState) (cs : List Bytes) : Prop where
  first : s.rxPkts = UInt64.ofNat (cs.countP rxEntryFirst)
  last : s.rxPkts = UInt64.ofNat (cs.countP rxEntryLast)
  bytes : s.rxBytes = UInt64.ofNat ((cs.map rxEntryLength).sum)

/-- A list with one entry of a kind. -/
lemma countP_eq_one {α : Type} {p : α → Bool} {l : List α} {k : ℕ} (hk : k < l.length)
    (h : ∀ j a, l[j]? = some a → (p a = true ↔ j = k)) : l.countP p = 1 := by
  induction l generalizing k with
  | nil => exact absurd hk (Nat.not_lt_zero _)
  | cons a l ih =>
    have ha := h 0 a rfl
    cases k with
    | zero =>
      have hrest : l.countP p = 0 := by
        rw [List.countP_eq_zero]
        intro b hb hpb
        obtain ⟨j,hj⟩ := List.mem_iff_getElem?.mp hb
        exact absurd ((h (j+1) b (by rw [List.getElem?_cons_succ]; exact hj)).mp hpb)
          (Nat.succ_ne_zero j)
      rw [List.countP_cons_of_pos (ha.mpr rfl),hrest]
    | succ k =>
      rw [List.countP_cons_of_neg (fun hp => absurd (ha.mp hp) (Nat.succ_ne_zero k).symm)]
      refine ih (Nat.lt_of_succ_lt_succ hk) fun j b hj => ?_
      rw [h (j+1) b (by rw [List.getElem?_cons_succ]; exact hj),Nat.succ_inj]

section
variable {net : Net} {w w' : World} {frame : Bytes} {i : SqIdx} {c : CqIdx} {ds : List EnaRxDesc}

lemma newCompletions_of_trace (es : List Event) (h : w'.trace = w.trace ++ es) :
    newCompletions w w' = (es.filterMap Event.completion).map fun r => r.2.2 := by
  rw [newCompletions,h,List.drop_left,List.map_filterMap]

lemma RxDelivered.entries (h : RxDelivered net w w' frame i c ds) :
    (newCompletions w w').length = ds.length ∧
      ∀ j entry, (newCompletions w w')[j]? = some entry →
        ∃ p, (rxPieces frame.length ds 0)[j]? = some p ∧
        CompletesRx entry p (enaRssHash net w.dev frame) i (j = 0) (j+1 = ds.length) := by
  obtain ⟨es,htrace,-,hall⟩ := h.writes
  have hlen : (es.filterMap Event.completion).length = ds.length :=
    hall.length.trans (rxPieces_length ds 0)
  rw [newCompletions_of_trace es htrace,List.length_map]
  refine ⟨hlen,fun j entry hj => ?_⟩
  rw [List.getElem?_map,Option.map_eq_some_iff] at hj
  obtain ⟨r,hr,rfl⟩ := hj
  have hlt : j < (rxPieces frame.length ds 0).length := by
    rw [← hall.length]
    by_contra hge
    rw [List.getElem?_eq_none (Nat.le_of_not_lt hge)] at hr
    cases hr
  obtain ⟨e,he,hc⟩ := hall.entry j _ (List.getElem?_eq_getElem hlt)
  cases hr.symm.trans he
  refine ⟨_,List.getElem?_eq_getElem hlt,hc.length,hc.reqId,hc.hash,hc.subQid,
    hc.first.trans (by simp),?_⟩
  rw [hc.last,rxPieces_length]

/-- The completions of one frame: one first, one last, and the length of the frame in all. -/
lemma RxDelivered.counts (h : RxDelivered net w w' frame i c ds) :
    (newCompletions w w').countP rxEntryFirst = 1 ∧ (newCompletions w w').countP rxEntryLast = 1 ∧
      ((newCompletions w w').map rxEntryLength).sum = frame.length := by
  obtain ⟨hlen,hentry⟩ := h.entries
  have hpos : 0 < ds.length := by
    have hmin := h.steered.accepts.min
    have henough := h.enough
    cases ds with
    | nil =>
      rw [rxCapacity_nil] at henough
      simp only [ethHlen] at hmin
      omega
    | cons d ds => exact Nat.succ_pos _
  refine ⟨?_,?_,?_⟩
  · refine countP_eq_one (k := 0) (by omega) fun j entry hj => ?_
    obtain ⟨p,-,hc⟩ := hentry j entry hj
    rw [rxEntryFirst,bne_iff_ne]
    exact hc.first
  · refine countP_eq_one (k := ds.length - 1) (by omega) fun j entry hj => ?_
    obtain ⟨p,-,hc⟩ := hentry j entry hj
    rw [rxEntryLast,bne_iff_ne,hc.last]
    omega
  · rw [← h.sum]
    congr 1
    refine List.ext_getElem? fun j => ?_
    rw [List.getElem?_map,List.getElem?_map]
    rcases Nat.lt_or_ge j ds.length with hlt | hge
    · have hj := List.getElem?_eq_getElem (show j < (newCompletions w w').length by omega)
      obtain ⟨p,hp,hc⟩ := hentry j _ hj
      rw [hj,hp,Option.map_some,Option.map_some]
      exact congrArg some hc.length
    · rw [List.getElem?_eq_none (show (newCompletions w w').length ≤ j by omega),
        List.getElem?_eq_none (show (rxPieces frame.length ds 0).length ≤
          j by rw [rxPieces_length]; exact hge)]
      rfl

lemma RxUndelivered.newCompletions (h : RxUndelivered net w w' frame) : newCompletions w w' = [] :=
  newCompletions_of_trace [] (h.trace.trans (List.append_nil _).symm)

/-- What one received frame adds. -/
lemma RxCounted.receive {cs : List Bytes} (h : RxCounted w.dev cs) (hw : TableInv w.dev)
    (hs : RxOutcome net w frame w') : RxCounted w'.dev (cs ++ newCompletions w w') := by
  rcases hs.delivered_or_not hw with ⟨i,c,ds,hd⟩ | hu
  · obtain ⟨hfirst,hlast,hlen⟩ := hd.counts
    refine ⟨?_,?_,?_⟩
    · rw [List.countP_append,hfirst,hd.rxPkts,h.first,UInt64.ofNat_add]
      rfl
    · rw [List.countP_append,hlast,hd.rxPkts,h.last,UInt64.ofNat_add]
      rfl
    · rw [List.map_append,List.sum_append,hlen,hd.rxBytes,h.bytes,UInt64.ofNat_add]
  · rw [hu.newCompletions,List.append_nil]
    exact ⟨hu.rxPkts.trans h.first,hu.rxPkts.trans h.last,hu.rxBytes.trans h.bytes⟩

lemma RxCounted.of_counters {cs : List Bytes} (h : RxCounted w.dev cs)
    (hc : w'.dev.counters = w.dev.counters) :
    RxCounted w'.dev cs := by
  have hpkts : w'.dev.rxPkts = w.dev.rxPkts := congrArg Counters.rxPkts hc
  have hbytes : w'.dev.rxBytes = w.dev.rxBytes := congrArg Counters.rxBytes hc
  exact ⟨hpkts.trans h.first,hpkts.trans h.last,hbytes.trans h.bytes⟩

lemma TxFrame.rxCounters (h : TxFrame i c w w') : w'.dev.rxPkts = w.dev.rxPkts ∧
    w'.dev.rxBytes = w.dev.rxBytes := by
  rw [h.rest]
  exact ⟨rfl,rfl⟩

lemma rxCompletions_of_ne {inp : Input} (h : ∀ frame, inp ≠ .receive frame) :
    rxCompletions w w' inp = [] := by
  cases inp with
  | receive frame => exact absurd rfl (h frame)
  | _ => rfl

/-- The statistics stay in step with the completions, one step of the device at a time. -/
lemma RxCounted.step {inp : Input} {cs : List Bytes} (h : RxCounted w.dev cs) (hw : TableInv w.dev)
    (hs : step net w inp = .ok w') (hno : ¬ inp.Resets) :
    RxCounted w'.dev (cs ++ rxCompletions w w' inp) := by
  by_cases hrecv : ∃ frame, inp = .receive frame
  · obtain ⟨frame,rfl⟩ := hrecv
    exact h.receive hw ((enaRxReceiveIov_outcome net frame hw).of_ok hs)
  · rw [not_exists] at hrecv
    rw [rxCompletions_of_ne hrecv,List.append_nil]
    cases step_acted hw hs with
    | rest hdata => exact h.of_counters hdata.counters
    | txDoorbell _ _ _ _ hframe =>
      obtain ⟨hpkts,hbytes⟩ := hframe.rxCounters
      exact ⟨hpkts.trans h.first,hpkts.trans h.last,hbytes.trans h.bytes⟩
    | rxDoorbell => exact ⟨h.first,h.last,h.bytes⟩
    | received => exact absurd rfl (hrecv _)
    | admin hran => exact h.of_counters hran.counters
    | reset hreset => exact absurd hreset hno

lemma rxCounted_reset {s : EnaState} (h : SameData s.devReset w.dev) : RxCounted w.dev [] :=
  ⟨congrArg Counters.rxPkts h.counters,congrArg Counters.rxPkts h.counters,
    congrArg Counters.rxBytes h.counters⟩

lemma RxHistory.counted {cs : List Bytes} (h : RxHistory net w cs) :
    (TableInv w.dev ∧ TxIdle none w.dev) ∧ RxCounted w.dev cs := by
  induction h with
  | reset w₀ => exact ⟨reset_tables w₀,rxCounted_reset (.refl _)⟩
  | step _ hs hno ih => exact ⟨step_tables ih.1 hs,ih.2.step ih.1.1 hs hno⟩
  | resets _ hs hreset ih => exact ⟨step_tables ih.1 hs,rxCounted_reset (step_resets hs hreset)⟩

/-- Every reachable state has a history. -/
lemma Reachable.rxHistory (h : Reachable net w) : ∃ cs, RxHistory net w cs := by
  obtain ⟨w₀,inputs,hrun⟩ := h
  refine run_invariant (P := fun w => ∃ cs, RxHistory net w cs) (fun w inp w' hw hs => ?_)
    ⟨[],.reset w₀⟩ hrun
  obtain ⟨cs,hcs⟩ := hw
  by_cases hreset : inp.Resets
  · exact ⟨_,.resets hcs hs hreset⟩
  · exact ⟨_,.step hcs hs hreset⟩

/-- A frame longer than the MTU allows is dropped, whoever it is for. -/
lemma enaRxReceiveIov_oversize (net : Net) (h : frame.length > (w.dev.mtu + 14 + 4).toNat) :
    enaRxReceiveIov net w frame = .ok w.rxDrop := by
  unfold enaRxReceiveIov
  rw [if_pos h]
  rfl

/-- A frame that the fabric does not deliver is ignored. -/
lemma enaRxReceiveIov_ignored (net : Net) (hw : TableInv w.dev)
    (hlen : frame.length ≤ (w.dev.mtu + 14 + 4).toNat)
    (h : frame.length < ethHlen ∨ (groupBit frame = false ∧
    frame.take ethAlen ≠ List.ofFn w.dev.macaddr)) :
    enaRxReceiveIov net w frame = .ok w := by
  have hfit : frame.length ≤ enaRxMaxFrame := by
    rw [hw.maxFrame] at hlen
    have hmax := hw.mtu.2
    simp only [enaRxMaxFrame,ethHlen,show enaMaxMtu.toNat = 9000 from rfl]
    omega
  unfold enaRxReceiveIov
  rw [if_neg (Nat.not_lt.mpr hlen),decide_eq_true hfit,check_true,ok_bind,if_pos (by simpa using h)]
  rfl

/-- Frames for this device count once, as a packet or as a drop. -/
lemma RxOutcome.counts (h : RxOutcome net w frame w') (haccepts : RxAccepts w.dev frame) :
    (w'.dev.rxPkts = w.dev.rxPkts + 1 ∧ w'.dev.rxDrops = w.dev.rxDrops) ∨
      (w'.dev.rxPkts = w.dev.rxPkts ∧ w'.dev.rxDrops = w.dev.rxDrops + 1) := by
  cases h with
  | ignored hno => exact absurd haccepts hno
  | dropped => exact .inr ⟨rfl,rfl⟩
  | short => exact .inr ⟨rfl,rfl⟩
  | bad => exact .inr ⟨rfl,rfl⟩
  | @delivered i c ds =>
    have hscatter := rxScattered_dev i c frame (enaRxStatus net frame)
      (enaRssHash net w.dev frame) ds true 0 w
    rw [(irqOnly_cqIntr _ c false).dev]
    generalize rxScattered i c frame (enaRxStatus net frame)
      (enaRssHash net w.dev frame) ds true 0 w = w₁ at hscatter
    left
    change w₁.dev.rxPkts + 1 = _ ∧ w₁.dev.rxDrops = _
    rw [hscatter]
    exact ⟨rfl,rfl⟩

/-- RX accounting over whole runs: packets are first completions and last completions, bytes are
what the completions announce, every frame for this device counts once, and runts do not count. -/
theorem rx_accounting (net : Net) :
    (∀ w, Reachable net w → ∃ cs, RxHistory net w cs) ∧
    (∀ w cs, RxHistory net w cs → w.dev.rxPkts = UInt64.ofNat (cs.countP rxEntryFirst) ∧
      w.dev.rxPkts = UInt64.ofNat (cs.countP rxEntryLast) ∧
      w.dev.rxBytes = UInt64.ofNat ((cs.map rxEntryLength).sum)) ∧
    (∀ w, Reachable net w → ∀ frame : Bytes, ethHlen ≤ frame.length →
      groupBit frame = true ∨ frame.take ethAlen = List.ofFn w.dev.macaddr →
      ∃ w', step net w (.receive frame) = .ok w' ∧
        ((w'.dev.rxPkts = w.dev.rxPkts + 1 ∧ w'.dev.rxDrops = w.dev.rxDrops) ∨
          (w'.dev.rxPkts = w.dev.rxPkts ∧ w'.dev.rxDrops = w.dev.rxDrops + 1))) ∧
    ∀ w, Reachable net w → ∀ frame : Bytes, frame.length < ethHlen →
      ∃ w', step net w (.receive frame) = .ok w' ∧ w'.dev.counters = w.dev.counters := by
  refine ⟨fun w => Reachable.rxHistory,?_,?_,?_⟩
  · intro w cs h
    obtain ⟨-,hcount⟩ := h.counted
    exact ⟨hcount.first,hcount.last,hcount.bytes⟩
  · intro w h frame hmin haddr
    have hw := h.tables.1
    rcases Nat.lt_or_ge (w.dev.mtu + 14 + 4).toNat frame.length with hover | hmax
    · exact ⟨_,enaRxReceiveIov_oversize net hover,.inr ⟨rfl,rfl⟩⟩
    · obtain ⟨w',hrecv,hout⟩ := (enaRxReceiveIov_outcome net frame hw).exists_ok
      exact ⟨w',hrecv,hout.counts ⟨hmax,hmin,haddr⟩⟩
  · intro w h frame hshort
    have hw := h.tables.1
    refine ⟨w,enaRxReceiveIov_ignored net hw ?_ (.inl hshort),rfl⟩
    rw [hw.maxFrame]
    simp only [ethHlen] at hshort
    omega

/-- A frame of 14 bytes in two buffers is one packet with two completions. -/
theorem rx_accounting_two_buffers :
    ∃ w w' cs, run Net.nonIp freshWorld
        (rxSetup [rxDescOf 0x1c 8 0 0x5000,rxDescOf 0x1c 8 1 0x6000]) = .ok w ∧
      step Net.nonIp w (.receive (List.replicate 14 0xff)) = .ok w' ∧ RxHistory Net.nonIp w' cs ∧
      w'.dev.rxPkts = 1 ∧ w'.dev.rxPkts = UInt64.ofNat (cs.countP rxEntryFirst) ∧
      w'.dev.rxBytes = UInt64.ofNat ((cs.map rxEntryLength).sum) := by
  obtain ⟨w,hrun,hnext⟩ := exists_of_okAnd
    (p := fun w : World => okAnd (fun w' : World => w'.dev.rxPkts == 1)
      (step Net.nonIp w (.receive (List.replicate 14 0xff))))
    (x := run Net.nonIp freshWorld (rxSetup [rxDescOf 0x1c 8 0 0x5000,rxDescOf 0x1c 8 1 0x6000]))
    (by decide +kernel)
  obtain ⟨w',hstep,hone⟩ := exists_of_okAnd hnext
  obtain ⟨hhist,hcount,-⟩ := rx_accounting Net.nonIp
  obtain ⟨cs,hcs⟩ := hhist w (reachable_of_run hrun)
  have hnext := RxHistory.step hcs hstep id
  obtain ⟨hfirst,-,hbytes⟩ := hcount _ _ hnext
  exact ⟨w,w',_,hrun,hstep,hnext,beq_iff_eq.mp hone,hfirst,hbytes⟩

/-- Frames for a foreign address are invisible exactly if they are not too long: longer ones are
counted as drops before anybody looks at the address. -/
theorem foreign_frames_invisible_iff (h : Reachable net w) (hgroup : groupBit frame = false)
    (hmac : frame.take ethAlen ≠ List.ofFn w.dev.macaddr) :
    step net w (.receive frame) = .ok w ↔ frame.length ≤ w.dev.mtu.toNat + 18 := by
  have hw := h.tables.1
  rw [← hw.maxFrame]
  constructor
  · intro hsame
    by_contra hover
    have hdrop : step net w (.receive frame) = .ok w.rxDrop :=
      enaRxReceiveIov_oversize net (Nat.lt_of_not_le hover)
    have heq : w.rxDrop = w := Except.ok.inj (hdrop.symm.trans hsame)
    have hdrops : w.dev.rxDrops + 1 = w.dev.rxDrops := congrArg (fun w : World => w.dev.rxDrops) heq
    exact absurd hdrops (by grind)
  · intro hlen
    exact enaRxReceiveIov_ignored net hw hlen (.inr ⟨hgroup,hmac⟩)

/-- A short frame for somebody else changes nothing at all. -/
theorem foreign_frames_invisible_short :
    step Net.nonIp freshWorld (.receive (List.replicate 14 4)) = .ok freshWorld :=
  (foreign_frames_invisible_iff ⟨_,[],rfl⟩ (by decide) (by decide +kernel)).mpr
    (by decide +kernel)

/-- A frame for somebody else that is longer than the MTU allows shows up in the drop counter. -/
theorem foreign_frame_counted :
    ∃ w w', Reachable Net.nonIp w ∧ groupBit (List.replicate 9019 4) = false ∧
      (List.replicate 9019 4).take ethAlen ≠ List.ofFn w.dev.macaddr ∧
      step Net.nonIp w (.receive (List.replicate 9019 4)) = .ok w' ∧
      w'.dev.rxDrops ≠ w.dev.rxDrops := by
  have hlen : (List.replicate 9019 (4 : UInt8)).length > (freshWorld.dev.mtu + 14 + 4).toNat := by
    rw [List.length_replicate]
    decide +kernel
  have hstep : step Net.nonIp freshWorld (.receive (List.replicate 9019 4)) =
      .ok freshWorld.rxDrop :=
    enaRxReceiveIov_oversize Net.nonIp hlen
  refine ⟨freshWorld,_,⟨_,[],rfl⟩,rfl,?_,hstep,?_⟩
  · rw [List.take_replicate]
    decide +kernel
  · decide +kernel

end
end EnaDevice
