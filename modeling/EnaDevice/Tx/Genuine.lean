import EnaDevice.Control.Trace
import EnaDevice.Tx.Outcome

/-! What leaves the device: only doorbells of TX queues hand frames to the backend, and each such
frame is the assembled frame of a packet, from the device's own MAC and within its length limit. -/
namespace EnaDevice
open Bytes Result Relation

/-- The bytes that an event hands to the backend. -/
def Event.handedOver : Event → Option Bytes
  | .sendPacket frame => some frame
  | .addRawFragment frame => some frame
  | .txPktSend frame _ _ => some frame
  | _ => none

/-- No frame is handed over. -/
abbrev Silent (w w' : World) : Prop := Adds (fun e => e.handedOver = none) w w'

section Silent
variable {net : Net} {w w' : World} {inp : Input} {frame : Bytes}

lemma silent_dmaWrite (w : World) (site : WriteSite) (addr : UInt64) (data : Bytes) :
    Silent w (enaDmaWrite w site addr data) := ⟨[_],rfl,by simp [Event.handedOver]⟩

lemma silent_cqIntr (w : World) (c : CqIdx) (isTx : Bool) : Silent w (enaCqIntr w c isTx) :=
  adds_cqIntr w c isTx rfl fun _ _ => rfl

lemma silent_cqPushed (w : World) (c : CqIdx) (cdesc : Bytes) : Silent w (w.cqPushed c cdesc) :=
  ⟨[_],rfl,by simp [Event.handedOver]⟩

lemma rxScattered_silent (i : SqIdx) (c : CqIdx) (frame : Bytes) (status hash : UInt32)
    (ds : List EnaRxDesc) (first : Bool) (off : ℕ) (w : World) :
    Silent w (rxScattered i c frame status hash ds first off w) := by
  induction ds generalizing first off w with
  | nil => exact .refl w
  | cons d ds ih =>
    have hpush : ∀ cdesc chunk, Silent w
        ((enaDmaWrite w (.rxBuf i) d.addr chunk).cqPushed c cdesc) :=
      fun _ _ => (silent_dmaWrite w _ _ _).trans (silent_cqPushed _ c _)
    exact (hpush _ _).trans (ih _ _ _)

lemma RxOutcome.silent (h : RxOutcome net w frame w') : Silent w w' := by
  cases h with
  | ignored => exact .refl w
  | dropped => exact .of_eq rfl
  | short => exact .of_eq rfl
  | bad => exact .of_eq rfl
  | @delivered i c ds =>
    have hscatter := rxScattered_silent i c frame (enaRxStatus net frame)
      (enaRssHash net w.dev frame) ds
      true 0 w
    have htook : Silent (rxScattered i c frame (enaRxStatus net frame)
      (enaRssHash net w.dev frame) ds true 0 w)
        ((rxScattered i c frame (enaRxStatus net frame)
          (enaRssHash net w.dev frame) ds true 0 w).rxTook i
          ds.length frame.length) := .of_eq rfl
    exact (hscatter.trans htook).trans (silent_cqIntr _ c false)

/-- Everything but a doorbell leaves the backend alone. -/
lemma step_silent (hw : TableInv w.dev) (hno : inp.doorbell = none) (h : step net w inp = .ok w') :
    Silent w w' := by
  have hp : ControlEvents (fun e => e.handedOver = none) inp :=
    ⟨fun _ _ _ _ _ _ => rfl,fun _ _ _ _ => rfl,fun _ => rfl,fun _ _ _ _ => rfl,fun _ => rfl⟩
  by_cases hrx : ∃ frame, inp = .receive frame
  · obtain ⟨frame,rfl⟩ := hrx
    exact ((enaRxReceiveIov_outcome net frame hw).of_ok h).silent
  · exact step_control_adds ⟨hno,fun frame he => hrx ⟨frame,he⟩⟩ hp h

end Silent

/-- Bytes handed over for a packet: its frame, from the device's own MAC, with the two bytes of the
IPv4 header checksum as the only possible change, and not longer than the MTU or a packet allows. -/
structure TxGenuine (net : Net) (s : EnaState) (w : World) (i : SqIdx) (p : EnaTxPkt)
    (frame buf : Bytes) :
    Prop where
  assembled : w.txAssembled i p = some frame
  length : buf.length = frame.length
  changed : ∀ k, buf[k]? ≠ frame[k]? → IsIp4 net frame ∧
    (k = net.ethGetL2HdrLength frame + 10 ∨ k = net.ethGetL2HdrLength frame + 11)
  min : 14 ≤ buf.length
  mac : (buf.drop 6).take 6 = List.ofFn s.macaddr
  mtu : p.metaCtrl &&& txTsoEn = 0 → buf.length ≤ s.mtu.toNat + 18
  tso : p.metaCtrl &&& txTsoEn ≠ 0 → l4Proto net frame = ipProtoTcp ∧ (w.dev.sq i).txMeta.mss ≠ 0 ∧
    buf.length ≤ 65536 + 224

/-- A TX queue whose doorbell is accepted. -/
structure TxAccepted (w : World) (i : SqIdx) (val : UInt64) : Prop where
  used : (w.dev.sq i).used = true
  isTx : (w.dev.sq i).isTx = true
  count : val.toUInt32.toUInt16 - (w.dev.sq i).head ≤ (w.dev.sq i).depth

section Genuine
variable {net : Net} {w w' u : World} {i : SqIdx} {p : EnaTxPkt} {inp : Input} {frame : Bytes}

lemma ip4Summed_length (h : IsIp4 net frame) : (ip4Summed net frame).length = frame.length := by
  have hclear : (ip4Cleared net frame).length = frame.length := withBe16_length h.fits 0
  rw [ip4Summed,withBe16_length (by rw [hclear]; exact h.fits),hclear]

lemma getElem?_ip4Summed (h : IsIp4 net frame) {k : ℕ}
    (hk : k < net.ethGetL2HdrLength frame + 10 ∨ net.ethGetL2HdrLength frame + 10 + 2 ≤ k) :
    (ip4Summed net frame)[k]? = frame[k]? := by
  have hclear : (ip4Cleared net frame).length = frame.length := withBe16_length h.fits 0
  rw [ip4Summed,getElem?_withBe16 (by rw [hclear]; exact h.fits) _ hk,ip4Cleared,
    getElem?_withBe16 h.fits _ hk]

/-- The prepared frame is the assembled one, or the one with its checksum. -/
lemma txPrepared_cases (net : Net) (offloads : UInt32) (frame : Bytes) :
    (txPrepared net (txApplied net offloads frame) frame).1 = frame ∨
      IsIp4 net frame ∧ (txPrepared net (txApplied net offloads frame) frame).1 =
        ip4Summed net frame := by
  unfold txPrepared
  split_ifs with hl3
  · exact .inr ⟨of_decide_eq_true (txApplicable_l3 hl3.1),rfl⟩
  · exact .inl rfl

lemma txPrepared_length (net : Net) (offloads : UInt32) (frame : Bytes) :
    (txPrepared net (txApplied net offloads frame) frame).1.length = frame.length := by
  rcases txPrepared_cases net offloads frame with he | ⟨h4,he⟩
  · rw [he]
  · rw [he,ip4Summed_length h4]

lemma txPrepared_changed {offloads : UInt32} {k : ℕ}
    (hk : (txPrepared net (txApplied net offloads frame) frame).1[k]? ≠ frame[k]?) :
    IsIp4 net frame ∧
      (k = net.ethGetL2HdrLength frame + 10 ∨ k = net.ethGetL2HdrLength frame + 11) := by
  rcases txPrepared_cases net offloads frame with he | ⟨h4,he⟩
  · rw [he] at hk
    exact absurd rfl hk
  · refine ⟨h4,?_⟩
    by_contra hout
    rw [he] at hk
    exact hk (getElem?_ip4Summed h4 (by omega))

/-- The checksum is behind the addresses. -/
lemma txPrepared_mac {offloads : UInt32} (hl2 : 14 ≤ net.ethGetL2HdrLength frame) :
    ((txPrepared net (txApplied net offloads frame) frame).1.drop 6).take 6 =
      (frame.drop 6).take 6 := by
  refine List.ext_getElem? fun k => ?_
  rw [List.getElem?_take,List.getElem?_take,List.getElem?_drop,List.getElem?_drop]
  split_ifs with hk
  · by_contra hne
    have hat := (txPrepared_changed hne).2
    omega
  · rfl

lemma offloads_tso (p : EnaTxPkt) : p.offloads &&& txTsoEn = p.metaCtrl &&& txTsoEn := by
  rw [EnaTxPkt.offloads,UInt32.and_assoc]
  rfl

/-- A frame that passes the checks is genuine as it is prepared. -/
lemma TxPasses.genuine (hl2 : ∀ buf, 14 ≤ net.ethGetL2HdrLength buf) (hw : TableInv w.dev)
    (ha : TxAdmitted (w.dev.sq i) p) (hb : w.txAssembled i p = some frame)
    (hp : TxPasses net w.dev (w.dev.sq i).txMeta.mss p.offloads frame) :
    TxGenuine net w.dev w i p frame (txPrepared net (txApplied net p.offloads frame) frame).1 := by
  have hlen := txPrepared_length net p.offloads frame
  obtain ⟨hmin,hmac⟩ := not_or.mp hp.own
  refine ⟨hb,hlen,fun k => txPrepared_changed,?_,?_,?_,?_⟩
  · rw [hlen]
    exact Nat.not_lt.mp hmin
  · rw [txPrepared_mac (hl2 frame)]
    exact not_ne_iff.mp hmac
  · intro hno
    rw [hlen,← hw.maxFrame]
    exact hp.mtu ((offloads_tso p).trans hno)
  · intro hyes
    have hgood := hp.tso (by rw [offloads_tso p]; exact hyes)
    refine ⟨hgood.2,hgood.1,?_⟩
    rw [hlen,txAssembled_length ha hb]
    exact ha.max

/-- Whatever `ena_tx_xmit` hands over is genuine. -/
lemma TxResult.genuine (hl2 : ∀ buf, 14 ≤ net.ethGetL2HdrLength buf) (hw : TableInv w.dev)
    (h : TxResult net w i p w') :
    Adds (fun e => ∀ buf, e.handedOver = some buf →
    ∃ frame, TxGenuine net w.dev w i p frame buf) w w' := by
  cases h with
  | refused => exact .refl w
  | unread => exact .of_eq rfl
  | filtered => exact .refl w
  | dropped => exact .of_eq rfl
  | sent ha hb hp hr =>
    subst hr
    refine Adds.trans (.emit ?_) (.of_eq rfl)
    rintro buf ⟨⟩
    exact ⟨_,hp.genuine hl2 hw ha hb⟩
  | unparsable ha hb hp hr =>
    subst hr
    refine Adds.trans (.emit ?_) (.of_eq rfl)
    rintro buf ⟨⟩
    exact ⟨_,hp.genuine hl2 hw ha hb⟩
  | offloaded ha hb hp hr =>
    subst hr
    refine Adds.trans (Adds.trans (.emit ?_) (.emit ?_)) (.of_eq rfl) <;>
    · rintro buf ⟨⟩
      exact ⟨_,hp.genuine hl2 hw ha hb⟩
  | notTaken ha hb hp hr =>
    subst hr
    refine Adds.trans (.emit ?_) (.emit ?_) <;>
    · rintro buf ⟨⟩
      exact ⟨_,hp.genuine hl2 hw ha hb⟩

end Genuine

section Chain
variable {net : Net} {w w' u : World} {i : SqIdx} {p : EnaTxPkt} {inp : Input} {P : Event → Prop}
  {n : ℕ}

/-- Behind the exit of `ena_tx_xmit` no frame is handed over any more. -/
lemma TxProcessed.silent (h : TxProcessed net i p w w') :
    ∃ w₁, TxResult net (w.withMeta i p) i p w₁ ∧ Silent w₁ w' := by
  cases h with
  | @taken w₁ n hr => exact ⟨w₁,hr,.of_eq rfl⟩
  | @completed w₁ n hr c reqId =>
    have htaken : Silent w₁ (w₁.txTaken i n) := .of_eq rfl
    exact ⟨w₁,hr,htaken.trans ((silent_cqPushed _ c _).trans (silent_cqIntr _ c true))⟩

lemma withMeta_trace (w : World) (i : SqIdx) (p : EnaTxPkt) : (w.withMeta i p).trace = w.trace := by
  unfold World.withMeta
  split_ifs <;> rfl

lemma TxProcessed.adds (hsilent : ∀ e, e.handedOver = none → P e) (h : TxProcessed net i p w w')
    (hp : ∀ w₁, TxResult net (w.withMeta i p) i p w₁ → Adds P (w.withMeta i p) w₁) :
    Adds P w w' := by
  obtain ⟨w₁,hresult,hrest⟩ := h.silent
  have hmeta : Adds P w (w.withMeta i p) := .of_eq (withMeta_trace w i p)
  exact (hmeta.trans (hp _ hresult)).trans (hrest.mono hsilent)

/-- What the packets of a doorbell do to the trace, the whole doorbell does. -/
lemma TxIterates.adds (hsilent : ∀ e, e.handedOver = none → P e) (hw : TableInv w.dev)
    (hu : (w.dev.sq i).used = true) (htx : (w.dev.sq i).isTx = true) (h : TxIterates net i n w w')
    (hp : ∀ k u p w₁, TxIterates net i k w u → enaTxParse u i = .ok (some p) →
      TxResult net (u.withMeta i p) i p w₁ → Adds P (u.withMeta i p) w₁) : Adds P w w' := by
  induction h with
  | done w => exact .refl w
  | @next n w w₁ w' hiter _ ih =>
    obtain ⟨o,hparse,-⟩ := ((hw.sq i hu).txReadable w i).parse_iff.exists_ok
    have hfirst : Adds P w w₁ := by
      cases o with
      | none =>
        have hstep := hiter.step
        unfold enaTxDoorbellStep at hstep
        rw [show enaTxParse w i = .ok none from hparse,ok_bind] at hstep
        cases hstep
        exact .of_eq rfl
      | some p =>
        exact (enaTxDoorbellStep_processed hw hu hparse hiter.step).adds hsilent fun w₂ =>
          hp 0 w p w₂ (.done w) hparse
    obtain ⟨hw₁,hu₁,htx₁⟩ := (TxIterates.next hiter (.done w₁)).tables hw hu htx
    exact hfirst.trans (ih hw₁ hu₁ htx₁ fun k u p w₂ hk => hp (k+1) u p w₂ (.next hiter hk))

/-- The doorbell that an input rings has the same effect as the register of its queue. -/
lemma step_of_doorbell (net : Net) (w : World) {addr : ℕ} {val : UInt64}
    (hdb : (Input.regWrite addr val).doorbell = some i) :
    step net w (.regWrite addr val) = step net w (sqDoorbell i val) := by
  rw [step_sqDoorbell]
  change enaRegWrite net w addr val = _
  rw [Input.doorbell] at hdb
  split_ifs at hdb with hrange
  cases hdb
  rw [enaRegWrite,dif_pos hrange]

/-- An accepted doorbell of a TX queue is a chain of iterations that drains the queue. -/
lemma TxAccepted.drains {val : UInt64} (h : TxAccepted w i val) (net : Net) (hw : TableInv w.dev) :
    ∃ n w', step net w (sqDoorbell i val) = .ok w' ∧ TxIterates net i n (w.rung i val) w' ∧
      (w'.dev.sq i).head = (w'.dev.sq i).tail := by
  have hsq := rung_sq w i val
  obtain ⟨n,w₁,hloop,-,hiter,hhead,htail⟩ := enaTxDoorbellLoop_iterates (i := i) net _
    (rung_tables hw h.count) (by rw [hsq]; exact h.used) (by rw [hsq]; exact h.isTx) le_rfl
  rw [hsq] at hloop
  exact ⟨n,w₁,(step_sqDoorbell_tx net hw h.used h.isTx h.count).trans hloop,hiter,
    hhead.trans htail.symm⟩

lemma TxAccepted.iterates {val : UInt64} (h : TxAccepted w i val) (hw : TableInv w.dev)
    (hs : step net w (sqDoorbell i val) = .ok w') :
    ∃ n, TxIterates net i n (w.rung i val) w' ∧ (w'.dev.sq i).head = (w'.dev.sq i).tail := by
  obtain ⟨n,w₁,hstep,hdrains⟩ := h.drains net hw
  cases hstep.symm.trans hs
  exact ⟨n,hdrains⟩

/-- The chain from the doorbell to a drained queue is the whole step. -/
lemma TxAccepted.step_eq {val : UInt64} (h : TxAccepted w i val) (hw : TableInv w.dev)
    (hiter : TxIterates net i n (w.rung i val) u) (hdone : (u.dev.sq i).head = (u.dev.sq i).tail) :
    step net w (sqDoorbell i val) = .ok u := by
  obtain ⟨m,w₁,hstep,hall,hdrained⟩ := h.drains net hw
  obtain ⟨k,hrest⟩ := hiter.split hall hdrained
  cases hrest with
  | done => exact hstep
  | next hnext => exact absurd hdone hnext.busy

/-- A step hands nothing over, or it is an accepted doorbell of a TX queue. -/
lemma step_handed (hw : TableInv w.dev) (hs : step net w inp = .ok w') :
    Silent w w' ∨ ∃ i addr val, inp = .regWrite addr val ∧ inp.doorbell = some i ∧
      TxAccepted w i val ∧
      step net w (sqDoorbell i val) = .ok w' := by
  cases hdb : inp.doorbell with
  | none => exact .inl (step_silent hw hdb hs)
  | some i =>
    obtain ⟨addr,val,rfl⟩ : ∃ addr val, inp = .regWrite addr val := by
      cases inp with
      | regWrite addr val => exact ⟨addr,val,rfl⟩
      | _ => cases hdb
    rw [step_of_doorbell net w hdb] at hs
    rcases enaSqDoorbell_cases ((step_sqDoorbell net w i val).symm.trans hs) with rfl | ⟨hu,hcount,
      htx | ⟨-,rfl⟩⟩
    · exact .inl (.refl w')
    · exact .inr ⟨i,addr,val,rfl,rfl,⟨hu,htx,hcount⟩,hs⟩
    · exact .inl ⟨[.flushQueuedPackets],rfl,by simp [Event.handedOver]⟩

lemma TxIterates.ran (h : TxIterates net i n w w') (hw : TableInv w.dev)
    (hu : (w.dev.sq i).used = true) (htx : (w.dev.sq i).isTx = true) : TxRan i w w' := by
  induction h with
  | done w => exact .refl
  | @next n w w₁ w' hiter _ ih =>
    have hcases := (enaTxDoorbellStep_cases (E := fun _ => True) net hw hu).of_ok hiter.step
    obtain ⟨hw₁,hu₁,htx₁⟩ := (TxIterates.next hiter (.done w₁)).tables hw hu htx
    exact .head hcases (ih hw₁ hu₁ htx₁)

/-- The MAC and the MTU stay as they are during a doorbell. -/
lemma TxIterates.constants (h : TxIterates net i n w w') (hw : TableInv w.dev)
    (hu : (w.dev.sq i).used = true) (htx : (w.dev.sq i).isTx = true) :
    w'.dev.macaddr = w.dev.macaddr ∧ w'.dev.mtu = w.dev.mtu := by
  obtain ⟨c,hc,-⟩ := (hw.sq i hu).cq
  have hframe := (h.ran hw hu htx).frame hw htx hc
  rw [hframe.rest]
  exact ⟨rfl,rfl⟩

lemma withMeta_constants (w : World) (i : SqIdx) (p : EnaTxPkt) :
    (w.withMeta i p).dev.macaddr = w.dev.macaddr ∧ (w.withMeta i p).dev.mtu = w.dev.mtu := by
  unfold World.withMeta
  split_ifs <;> exact ⟨rfl,rfl⟩

/-- The state at a packet of a doorbell, with the packet's meta descriptor cached. -/
lemma TxAccepted.at_packet {val : UInt64} (h : TxAccepted w i val) (hw : TableInv w.dev)
    (hiter : TxIterates net i n (w.rung i val) u) (p : EnaTxPkt) :
    TableInv u.dev ∧ (u.dev.sq i).used = true ∧ (u.dev.sq i).isTx = true ∧
      TableInv (u.withMeta i p).dev ∧
      (u.withMeta i p).dev.macaddr = w.dev.macaddr ∧ (u.withMeta i p).dev.mtu = w.dev.mtu := by
  have hsq := rung_sq w i val
  have hu : ((w.rung i val).dev.sq i).used = true := by rw [hsq]; exact h.used
  have htx : ((w.rung i val).dev.sq i).isTx = true := by rw [hsq]; exact h.isTx
  obtain ⟨hwu,huu,htxu⟩ := hiter.tables (rung_tables hw h.count) hu htx
  obtain ⟨hmac,hmtu⟩ := hiter.constants (rung_tables hw h.count) hu htx
  obtain ⟨hmac',hmtu'⟩ := withMeta_constants u i p
  have hpath : Path u (.regWrite (regSqDbBase + 4*i.val) 0) u (u.withMeta i p) := withMeta_path p
  exact ⟨hwu,huu,htxu,hpath.tableInv hwu,hmac'.trans hmac,hmtu'.trans hmtu⟩

/-- A property of events that the packets of a doorbell have is one of the doorbell. -/
lemma TxAccepted.adds {val : UInt64} (h : TxAccepted w i val)
    (hsilent : ∀ e, e.handedOver = none → P e) (hw : TableInv w.dev)
    (hs : step net w (sqDoorbell i val) = .ok w')
    (hp : ∀ k u p w₁, TxIterates net i k (w.rung i val) u → enaTxParse u i = .ok (some p) →
      TxResult net (u.withMeta i p) i p w₁ → Adds P (u.withMeta i p) w₁) : Adds P w w' := by
  have hsq := rung_sq w i val
  obtain ⟨n,hiter,-⟩ := h.iterates hw hs
  have hall : Adds P (w.rung i val) w' := hiter.adds hsilent (rung_tables hw h.count)
    (by rw [hsq]; exact h.used) (by rw [hsq]; exact h.isTx) hp
  exact hall

/-- No spoofed frame leaves the device: in every reachable state, whatever a step hands to the
backend is handed over by a TX doorbell for a packet in its ring, and is genuine. -/
theorem no_spoofed_frame (hl2 : ∀ buf, 14 ≤ net.ethGetL2HdrLength buf) (h : Reachable net w)
    (hs : step net w inp = .ok w') :
    ∃ es, w'.trace = w.trace ++ es ∧ ∀ e ∈ es, ∀ buf, e.handedOver = some buf →
      ∃ i val n u p frame, inp.doorbell = some i ∧ step net w (sqDoorbell i val) = .ok w' ∧
        TxIterates net i n (w.rung i val) u ∧ enaTxParse u i = .ok (some p) ∧
        TxGenuine net w.dev (u.withMeta i p) i p frame buf := by
  have hw := h.tables.1
  rcases step_handed hw hs with hsilent | ⟨i,addr,val,-,hdb,hacc,hstep⟩
  · obtain ⟨es,htrace,hnone⟩ := hsilent
    refine ⟨es,htrace,fun e he buf hbuf => ?_⟩
    rw [hnone e he] at hbuf
    cases hbuf
  · refine hacc.adds ?_ hw hstep ?_
    · intro e hnone buf hbuf
      rw [hnone] at hbuf
      cases hbuf
    · intro k u p w₁ hk hparse hresult
      obtain ⟨-,-,-,hwm,hmac,hmtu⟩ := hacc.at_packet hw hk p
      refine (hresult.genuine hl2 hwm).mono fun e he buf hbuf => ?_
      obtain ⟨frame,hg⟩ := he buf hbuf
      refine ⟨i,val,k,u,p,frame,hdb,hstep,hk,hparse,hg.assembled,hg.length,hg.changed,hg.min,?_,?_,
        hg.tso⟩
      · rw [hg.mac,hmac]
      · intro hno
        have hle := hg.mtu hno
        rw [hmtu] at hle
        exact hle

/-- The frame of one descriptor goes out, and it is genuine. -/
theorem no_spoofed_frame_own :
    ∃ w w' es i val n u p frame, run Net.nonIp freshWorld (oneDescSetup (ownDesc 0) ownFrame) =
      .ok w ∧
      step Net.nonIp w (sqDoorbell 0 1) = .ok w' ∧ w'.trace = w.trace ++ es ∧
      (∃ e ∈ es, e.handedOver = some ownFrame) ∧ TxIterates Net.nonIp i n (w.rung i val) u ∧
      TxGenuine Net.nonIp w.dev (u.withMeta i p) i p frame ownFrame := by
  obtain ⟨w,hrun,hstep⟩ := exists_of_okAnd
    (p := fun w : World => okAnd (fun w' : World =>
      (w'.trace.drop w.trace.length).any fun e => e.handedOver == some ownFrame)
        (step Net.nonIp w (sqDoorbell 0 1)))
    (x := run Net.nonIp freshWorld (oneDescSetup (ownDesc 0) ownFrame)) (by decide +kernel)
  obtain ⟨w',hstep,hany⟩ := exists_of_okAnd hstep
  obtain ⟨es,htrace,hes⟩ := no_spoofed_frame (fun _ => le_rfl) (reachable_of_run hrun) hstep
  rw [htrace,List.drop_left,List.any_eq_true] at hany
  obtain ⟨e,hmem,hbuf⟩ := hany
  rw [beq_iff_eq] at hbuf
  obtain ⟨i,val,n,u,p,frame,-,-,hiter,-,hgenuine⟩ := hes e hmem ownFrame hbuf
  exact ⟨w,w',es,i,val,n,u,p,frame,hrun,hstep,htrace,⟨e,hmem,hbuf⟩,hiter,hgenuine⟩

end Chain
end EnaDevice
