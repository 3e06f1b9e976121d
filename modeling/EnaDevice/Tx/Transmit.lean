import EnaDevice.Cq.Channel
import EnaDevice.Tx.Packet

/-! TX end to end. Bursts of posted packets are rung in one after another; the frames that the
backend gets and the completions that the driver gets are those of the packets, in order. -/
namespace EnaDevice
open Bytes Result CqChannel

/-- A frame that the device lets through: neither short nor over the MTU, and from its own MAC. -/
def TxAccepts (s : EnaState) (frame : Bytes) : Prop :=
  14 ≤ frame.length ∧ frame.length ≤ s.mtu.toNat + 18 ∧
    (frame.drop 6).take 6 = List.ofFn s.macaddr

instance (s : EnaState) (frame : Bytes) : Decidable (TxAccepts s frame) :=
  inferInstanceAs (Decidable (_ ∧ _))

/-- What `ena_tx_xmit` makes of a frame without offloads. -/
def World.txXmitted (w : World) (frame : Bytes) : World :=
  if frame.length < ethHlen ∨ enaTxMaxPkt < frame.length then w
  else if (frame.drop ethAlen).take ethAlen ≠ List.ofFn w.dev.macaddr then w
  else if frame.length > (w.dev.mtu + 14 + 4).toNat then w.txDrop
  else (w.emit (.sendPacket frame)).txCount frame.length

/-- A descriptor whose buffer can be read, and the buffer. -/
def ReadsBuf (w : World) (d : EnaTxDesc) (b : TxBuf) : Prop :=
  d.len = b.data.length ∧ enaDmaRead w d.addr d.len = (true,b.data)

section Xmit
variable {net : Net} {w : World} {i : SqIdx} {p : TxPacket}

lemma forall₂_len {ds : List EnaTxDesc} {bufs : List TxBuf}
    (h : List.Forall₂ (ReadsBuf w) ds bufs) :
    (ds.map EnaTxDesc.len).sum = (bufs.map TxBuf.data).flatten.length := by
  induction h with
  | nil => rfl
  | cons hd _ ih =>
    rw [List.map_cons,List.sum_cons,List.map_cons,List.flatten_cons,List.length_append,ih,hd.1]

lemma enaTxGather_eq {total : ℕ} {ds : List EnaTxDesc} {bufs : List TxBuf}
    (h : List.Forall₂ (ReadsBuf w) ds bufs) (buf : Bytes)
    (htotal : buf.length + (ds.map EnaTxDesc.len).sum = total) :
    enaTxGather w total ds buf = .ok (some (buf ++ (bufs.map TxBuf.data).flatten)) := by
  induction h generalizing buf with
  | nil => simp [enaTxGather]
  | @cons d b ds bufs hd _ ih =>
    rw [List.map_cons,List.sum_cons] at htotal
    have hfit : buf.length + d.len ≤ total := by omega
    rw [enaTxGather,decide_eq_true hfit,check_true,ok_bind,hd.2]
    dsimp only
    rw [ih (buf ++ b.data) (by rw [List.length_append,← hd.1]; omega),List.append_assoc]
    rfl

lemma txApplicable_zero (ip4 : Bool) (l4 : UInt8) : txApplicable 0 ip4 l4 = 0 := by
  simp [txApplicable]

lemma enaTxFilter_plain {metaCtrl : UInt32}
    (h : metaCtrl &&& (txTsoEn ||| txL3CsumEn ||| txL4CsumEn) = 0) {frame : Bytes}
    (hmax : frame.length ≤ enaTxMaxPkt) (sq : EnaSq) :
    enaTxFilter net w sq metaCtrl frame = .ok (w.txXmitted frame) := by
  unfold enaTxFilter World.txXmitted
  by_cases hlen : frame.length < ethHlen
  · rw [if_pos hlen,if_pos (.inl hlen)]
    rfl
  have hmac : 2*ethAlen ≤ frame.length := le_trans (by decide) (Nat.le_of_not_lt hlen)
  have hsize : ¬ (frame.length < ethHlen ∨ enaTxMaxPkt < frame.length) :=
    not_or.mpr ⟨hlen,Nat.not_lt.mpr hmax⟩
  rw [if_neg hlen,if_neg hsize,decide_eq_true hmac,check_true,ok_bind]
  split_ifs with hsrc hmtu
  · rfl
  · unfold enaTxHandOver
    dsimp only
    rw [h,if_pos ⟨UInt32.zero_and,hmtu⟩]
    rfl
  · obtain ⟨protos,hprotos,-⟩ := (enaTxFrameProtos_spec net frame).exists_ok
    unfold enaTxHandOver
    dsimp only
    rw [h,if_neg fun ho => hmtu ho.2,hprotos,ok_bind,if_neg (by simp),txApplicable_zero]
    simp [enaTxL3Csum,enaTxSend]

/-- A packet without offloads goes out as its header and its buffers. -/
lemma enaTxXmit_plain {d : EnaTxDesc} {ds : List EnaTxDesc}
    (hbufs : List.Forall₂ (ReadsBuf w) (d::ds) p.bufs) (hd : EncodesPacket d p)
    (hhost : (w.dev.sq i).llq = false → p.header = [])
    (hfits : (w.dev.sq i).llq = true → p.header.length + 32 ≤ (w.dev.sq i).entrySize.toNat)
    (hheader : enaTxHeader w i (w.dev.sq i) p.header.length = .ok p.header) (n : ℕ) (b : Bool)
    (m : EnaTxMeta) :
    enaTxXmit net w i ⟨d::ds,n,b,m⟩ = .ok (w.txXmitted p.frame) := by
  have hframe : p.header.length + ((d::ds).map EnaTxDesc.len).sum = p.frame.length := by
    rw [forall₂_len hbufs,TxPacket.frame,List.length_append]
  have hno : ¬ ((!(w.dev.sq i).llq) = true ∧ p.header.length ≠ 0) := by
    rintro ⟨hl,hlen⟩
    rw [hhost (by simpa using hl)] at hlen
    exact hlen rfl
  have hle : ¬ UInt64.ofNat p.header.length >
      (w.dev.sq i).entrySize.toUInt64 - UInt64.ofNat enaLlqHeaderOff := by
    cases hl : (w.dev.sq i).llq with
    | false =>
      rw [hhost hl]
      exact UInt64.not_lt.mpr (UInt64.le_iff_toNat_le.mpr (Nat.zero_le _))
    | true =>
      have hfit := hfits hl
      have hlt := (w.dev.sq i).entrySize.toNat_lt
      rw [gt_iff_lt,UInt64.not_lt,UInt64.le_iff_toNat_le,UInt64.toNat_sub,UInt16.toNat_toUInt64,
        UInt64.toNat_ofNat',UInt64.toNat_ofNat']
      simp only [enaLlqHeaderOff, enaLlqDescsBeforeHeader, EnaTxDesc.size]
      omega
  unfold enaTxXmit
  dsimp only
  rw [hd.hdrLen_eq,hframe,if_neg hno,if_neg hle]
  by_cases hsize : p.frame.length = 0 ∨ p.frame.length > enaTxMaxPkt
  · rw [if_pos hsize,World.txXmitted,if_pos ?_]
    · rfl
    · rcases hsize with hz | hgt
      · left
        rw [hz]
        decide
      · exact .inr hgt
  · rw [if_neg hsize,hheader,ok_bind,enaTxGather_eq hbufs p.header hframe,ok_bind]
    exact enaTxFilter_plain hd.offloads (Nat.not_lt.mp (not_or.mp hsize).2) _

end Xmit

namespace TxPacket
variable {p : TxPacket} {q : EnaSq} {i : SqIdx} {writes : UInt64 → Prop} {head tail : UInt16}
  {m : EnaTxMeta} {s : EnaState} {w : World}

/-- The pushed header is found behind the first two slots. -/
lemma Posted.header_eq (h : p.Posted q i writes w.mem w.llq head) (hok : q.Ok s) :
    enaTxHeader w i (q.moved head tail m) p.header.length = .ok p.header := by
  unfold enaTxHeader
  split_ifs with hlen
  · have hl : q.llq = true := by
      by_contra hl
      rw [(h.host (by simpa using hl)).header] at hlen
      exact hlen rfl
    have hfits : 32 + p.header.length ≤ q.entrySize.toNat := by
      rw [Nat.add_comm]
      exact (h.llq hl).fits
    have hread := hok.llqRead hl w i (Nat.mod_lt head.toNat (Counter.depth_pos hok.depth.pow)) hfits
    unfold enaTxLlqHeader
    dsimp only
    change enaLlqRead w i q ((head &&& (q.depth - 1)).toNat*q.entrySize.toNat + 32) _ = _
    rw [Counter.mask hok.depth.pow,hread]
    exact congrArg _ (h.llq hl).header
  · rw [not_ne_iff,List.length_eq_zero_iff] at hlen
    rw [hlen]
    rfl

lemma Posted.readsBufs (h : p.Posted q i writes w.mem w.llq head) (hok : q.Ok s) :
    List.Forall₂ (ReadsBuf w) (p.descs w i (q.moved head tail m)) p.bufs := by
  have hlen : (p.descs w i (q.moved head tail m)).length = p.bufs.length := by simp [descs]
  refine List.forall₂_iff_get.mpr ⟨hlen,?_⟩
  intro k hk hk'
  have hslot : p.metaSlots + k < p.slots := Nat.add_lt_add_left hk' _
  have hbuf := (h.encodes hok tail m hslot).buf k _ rfl (List.getElem?_eq_getElem hk')
  have hmem : p.bufs[k] ∈ p.bufs := List.getElem_mem hk'
  have hget : (p.descs w i (q.moved head tail m)).get ⟨k,hk⟩ =
      w.txSlot i (q.moved head tail m) (p.metaSlots + k) := by
    simp [descs,List.getElem_range']
  rw [hget]
  refine ⟨hbuf.len,?_⟩
  rw [hbuf.addr,hbuf.len,enaDmaRead,Memory.read_of_ok (h.readable _ (mem_reads_buf hmem)),
    h.data _ hmem]
  rfl

end TxPacket

/-- The device of `s₀` with a TX queue at other counters and a number of completions pushed
since. -/
structure TxProgress (i : SqIdx) (c : CqIdx) (s₀ : EnaState) (head tail : UInt16) (n : ℕ)
    (w : World) :
    Prop where
  tables : TableInv w.dev
  sq : ∃ m, w.dev.sq i = (s₀.sq i).moved head tail m
  cq : w.dev.cq c = EnaCq.advance^[n] (s₀.cq c)
  mtu : w.dev.mtu = s₀.mtu
  macaddr : w.dev.macaddr = s₀.macaddr

/-- Events by which the backend gets a frame. -/
def Event.toBackend : Event → Bool
  | .sendPacket _ => true
  | .addRawFragment _ => true
  | .txPktSend _ _ _ => true
  | _ => false

/-- The request ids that the device reports, each with the queue's head after the packet. -/
def txCompletions (q : EnaSq) : UInt16 → List TxPacket → List (UInt16 × UInt16)
  | _, [] => []
  | head, p::ps =>
    (if p.compReq then [(p.reqId,head + UInt16.ofNat (p.entries q))] else []) ++
      txCompletions q (head + UInt16.ofNat (p.entries q)) ps

/-- Ring entries that packets take together. -/
def txEntries (q : EnaSq) (ps : List TxPacket) : ℕ := (ps.map (TxPacket.entries · q)).sum

/-- Packets stand in the ring one after another. -/
def PostedFrom (q : EnaSq) (i : SqIdx) (writes : UInt64 → Prop) (m : Memory) (llq : ℕ → UInt8) :
    UInt16 → List TxPacket → Prop
  | _, [] => True
  | head, p::ps => p.Posted q i writes m llq head ∧
    PostedFrom q i writes m llq (head + UInt16.ofNat (p.entries q)) ps

/-- The bytes that a CQ's next completions are written to. -/
def CqWrites (q : EnaCq) (n : ℕ) (x : UInt64) : Prop :=
  ∃ k < n, InRegion (EnaCq.advance^[k] q).slotAddr q.entrySize.toNat x

/-- What a driver does before and at one doorbell: it writes its memory and the LLQ BAR, and
rings. -/
structure TxBurst where
  mem : Memory
  llq : ℕ → UInt8
  val : UInt64
  packets : List TxPacket

namespace TxBurst

def inputs (i : SqIdx) (b : TxBurst) : List Input :=
  [.guest b.mem b.llq,.regWrite (regSqDbBase + 4*i.val) b.val]

/-- Completions that the packets ask for. -/
def completions (b : TxBurst) : ℕ := b.packets.countP TxPacket.compReq

/-- The packets of the burst stand in the ring from the head on and fit it, and the doorbell tells
where they end. What the device reads for them is apart from the completions it writes meanwhile. -/
structure Posted (b : TxBurst) (q : EnaSq) (i : SqIdx) (cq : EnaCq) (head : UInt16) : Prop where
  packets : PostedFrom q i (CqWrites cq b.completions) b.mem b.llq head b.packets
  room : txEntries q b.packets ≤ q.depth.toNat
  val : b.val.toUInt32.toUInt16 = head + UInt16.ofNat (txEntries q b.packets)

end TxBurst

/-- Bursts that follow one another, each from where the one before ended. -/
def BurstsFrom (q : EnaSq) (i : SqIdx) : EnaCq → UInt16 → List TxBurst → Prop
  | _, _, [] => True
  | cq, head, b::bs => b.Posted q i cq head ∧
    BurstsFrom q i (EnaCq.advance^[b.completions] cq) (head + UInt16.ofNat (txEntries q b.packets))
      bs

/-- The events of packets sent from a head on: every frame that the device lets through is handed to
`qemu_send_packet` and nothing else is, and every packet that asks for it is completed. -/
structure TxTrace (i : SqIdx) (c : CqIdx) (s₀ : EnaState) (head : UInt16) (ps : List TxPacket)
    (es : List Event) : Prop where
  frames : es.filter Event.toBackend =
    ((ps.map TxPacket.frame).filter (TxAccepts s₀ ·)).map Event.sendPacket
  completions : (es.filterMap Event.completion).map
      (fun e => (e.1,le16At e.2.2 0,le16At e.2.2 4,le16At e.2.2 6)) =
    (txCompletions (s₀.sq i) head ps).map fun r => (c,r.1,UInt16.ofNat i,r.2)

lemma PostedFrom.agrees {q : EnaSq} {i : SqIdx} {writes : UInt64 → Prop} {m m' : Memory}
    {llq : ℕ → UInt8} {head : UInt16} {ps : List TxPacket} (h : PostedFrom q i writes m llq head ps)
    (hm : m.Agrees writes m') : PostedFrom q i writes m' llq head ps := by
  induction ps generalizing head with
  | nil => trivial
  | cons p ps ih => exact ⟨h.1.agrees hm,ih h.2⟩

section Trace
variable {i : SqIdx} {c : CqIdx} {s₀ : EnaState} {head : UInt16}

lemma txEntries_append (q : EnaSq) (ps qs : List TxPacket) :
    txEntries q (ps ++ qs) = txEntries q ps + txEntries q qs := by
  rw [txEntries,List.map_append,List.sum_append]
  rfl

lemma txCompletions_append (q : EnaSq) (ps qs : List TxPacket) (head : UInt16) :
    txCompletions q head (ps ++ qs) = txCompletions q head ps ++
      txCompletions q (head + UInt16.ofNat (txEntries q ps)) qs := by
  induction ps generalizing head with
  | nil => simp [txCompletions,txEntries]
  | cons p ps ih =>
    rw [List.cons_append,txCompletions,ih,txCompletions,List.append_assoc]
    simp only [txEntries, List.map_cons, List.sum_cons, UInt16.ofNat_add]
    rw [UInt16.add_assoc]

lemma TxTrace.nil : TxTrace i c s₀ head [] [] := ⟨rfl,rfl⟩

/-- One packet: its frame if it is let through, then its completion if there is one. -/
lemma TxTrace.packet {p : TxPacket} {fs : List Event} (hfs : fs.filter Event.toBackend = [])
    (hcomp : (fs.filterMap Event.completion).map
        (fun e => (e.1,le16At e.2.2 0,le16At e.2.2 4,le16At e.2.2 6)) =
      if p.compReq then [(c,p.reqId,UInt16.ofNat i,head + UInt16.ofNat (p.entries (s₀.sq i)))]
      else []) :
    TxTrace i c s₀ head [p] (([p.frame].filter (TxAccepts s₀ ·)).map Event.sendPacket ++ fs) := by
  refine ⟨?_,?_⟩
  · rw [List.filter_append,hfs,List.append_nil]
    apply List.filter_eq_self.mpr
    intro e he
    obtain ⟨b,-,rfl⟩ := List.mem_map.mp he
    rfl
  · have hnone : (([p.frame].filter (TxAccepts s₀ ·)).map Event.sendPacket).filterMap
        Event.completion = [] := by
      rw [List.filterMap_map]
      exact List.filterMap_eq_nil_iff.mpr fun _ _ => rfl
    rw [List.filterMap_append,hnone,List.nil_append,hcomp]
    cases hreq : p.compReq <;> simp [txCompletions,hreq]

lemma TxTrace.append {ps qs : List TxPacket} {es fs : List Event} (h : TxTrace i c s₀ head ps es)
    (h' : TxTrace i c s₀ (head + UInt16.ofNat (txEntries (s₀.sq i) ps)) qs fs) :
    TxTrace i c s₀ head (ps ++ qs) (es ++ fs) := by
  refine ⟨?_,?_⟩
  · rw [List.filter_append,h.frames,h'.frames,List.map_append,List.filter_append,List.map_append]
  · rw [List.filterMap_append,List.map_append,h.completions,h'.completions,txCompletions_append,
      List.map_append]

end Trace

/-- What the device does with the frame of a packet: the trace, and what stays as it was. -/
lemma txXmitted_spec {w : World} (hw : TableInv w.dev) (frame : Bytes) :
    (w.txXmitted frame).trace =
        w.trace ++ ([frame].filter (TxAccepts w.dev ·)).map Event.sendPacket ∧
      (w.txXmitted frame).mem = w.mem ∧ (w.txXmitted frame).llq = w.llq ∧
      SameQueues w.dev (w.txXmitted frame).dev ∧
      (w.txXmitted frame).dev.macaddr = w.dev.macaddr := by
  have hmax := hw.maxFrame
  have hmtu := hw.mtu.2
  unfold World.txXmitted
  split_ifs with hsize hsrc hlong
  · have hno : ¬ TxAccepts w.dev frame := by
      rintro ⟨hmin,hle,-⟩
      simp only [ethHlen, enaTxMaxPkt] at hsize
      omega
    exact ⟨by simp [hno],rfl,rfl,.refl _,rfl⟩
  · have hno : ¬ TxAccepts w.dev frame := fun h => hsrc h.2.2
    exact ⟨by simp [hno],rfl,rfl,.refl _,rfl⟩
  · have hno : ¬ TxAccepts w.dev frame := by
      rintro ⟨-,hle,-⟩
      omega
    exact ⟨by simp [hno,World.txDrop,World.setDev],rfl,rfl,⟨rfl,rfl,rfl,rfl,rfl,rfl⟩,rfl⟩
  · have hyes : TxAccepts w.dev frame := by
      refine ⟨?_,by omega,not_ne_iff.mp hsrc⟩
      simp only [ethHlen] at hsize
      omega
    exact ⟨by simp [hyes,World.txCount,World.setDev,World.emit],rfl,rfl,
      ⟨rfl,rfl,rfl,rfl,rfl,rfl⟩,rfl⟩

lemma EnaCq.advance_iterate (q : EnaCq) (n : ℕ) :
    ∃ tail phase, EnaCq.advance^[n] q = { q with tail := tail, phase := phase } := by
  induction n with
  | zero => exact ⟨q.tail,q.phase,rfl⟩
  | succ n ih =>
    obtain ⟨tail,phase,h⟩ := ih
    rw [Function.iterate_succ_apply',h]
    exact ⟨_,_,rfl⟩

lemma advance_iterate_ok {q : EnaCq} (h : q.Ok) (n : ℕ) : (EnaCq.advance^[n] q).Ok := by
  induction n with
  | zero => exact h
  | succ n ih =>
    rw [Function.iterate_succ_apply']
    exact ih.advance

/-- Completions are written inside the ring of their CQ, however many came before. -/
lemma CqWrites.inRing {q : EnaCq} (hok : q.Ok) {m n : ℕ} {x : UInt64}
    (h : CqWrites (EnaCq.advance^[m] q) n x) :
    InRegion q.base (q.depth.toNat*q.entrySize.toNat) x := by
  obtain ⟨k,-,hx⟩ := h
  have hsize : (EnaCq.advance^[m] q).entrySize = q.entrySize := by
    obtain ⟨tail,phase,hiter⟩ := q.advance_iterate m
    rw [hiter]
  have hok' := advance_iterate_ok hok (k+m)
  rw [← Function.iterate_add_apply,hsize] at hx
  obtain ⟨tail,phase,hiter⟩ := q.advance_iterate (k+m)
  rw [hiter] at hx hok'
  exact hok'.slot_within x hx

/-- The progress of a queue is in the device, not in memory. -/
lemma TxProgress.overwritten {i : SqIdx} {c : CqIdx} {s₀ : EnaState} {head tail : UInt16} {n : ℕ}
    {w : World} (h : TxProgress i c s₀ head tail n w) (mem : Memory) (llq : ℕ → UInt8) :
    TxProgress i c s₀ head tail n { w with mem := mem, llq := llq } :=
  ⟨h.tables,h.sq,h.cq,h.mtu,h.macaddr⟩

section Doorbell
variable (net : Net) {i : SqIdx} {c : CqIdx} {s₀ : EnaState} {head tail : UInt16} {n : ℕ}
  {w : World} (h₀ : TableInv s₀) (hu : (s₀.sq i).used = true) (htx : (s₀.sq i).isTx = true)
  (hc : (s₀.sq i).cqIdx.toNat = c.val)

include h₀ hu hc in
lemma used_cq : (s₀.cq c).used = true := by
  obtain ⟨c',hc',hused,-⟩ := (h₀.sq i hu).cq
  cases Fin.ext (hc.symm.trans hc')
  exact hused

include h₀ hu hc in
/-- A completion is one entry in the CQ, at the next slot, and names the packet and the head. -/
lemma TxProgress.complete (h : TxProgress i c s₀ head tail n w) (reqId : UInt16) :
    ∃ w' es data, enaTxComplete w i reqId = .ok w' ∧ TxProgress i c s₀ head tail (n+1) w' ∧
      data.length ≤ (s₀.cq c).entrySize.toNat ∧
      w'.mem = w.mem.write (EnaCq.advance^[n] (s₀.cq c)).slotAddr data ∧ w'.llq = w.llq ∧
      w'.trace = w.trace ++ es ∧ es.filter Event.toBackend = [] ∧
      (es.filterMap Event.completion).map
        (fun e => (e.1,le16At e.2.2 0,le16At e.2.2 4,le16At e.2.2 6)) =
          [(c,reqId,UInt16.ofNat i,head)] := by
  obtain ⟨m,hsq⟩ := h.sq
  obtain ⟨ctail,phase,hiter⟩ := (s₀.cq c).advance_iterate n
  have hcq := h.cq.trans hiter
  have husedc : (w.dev.cq c).used = true := by
    rw [hcq]
    exact used_cq h₀ hu hc
  have hok := h.tables.cq c husedc
  have hsize : 8 ≤ (w.dev.cq c).entrySize.toNat := by
    rcases hok.entrySize with he | he | he <;> rw [he] <;> decide
  have hcomplete := enaTxComplete_eq reqId
    (show (w.dev.sq i).cqIdx.toNat = c.val by rw [hsq]; exact hc)
    husedc hok.entrySize_le
  have hhead : (w.dev.sq i).head = head := by rw [hsq]; rfl
  rw [hhead] at hcomplete
  generalize hcdesc : txCdesc (w.dev.cq c).phase reqId (UInt16.ofNat i) head = cdesc at hcomplete
  have hintr := irqOnly_cqIntr (w.cqPushed c cdesc) c true
  have hdev := hintr.dev
  obtain ⟨fs,hfs,hquiet⟩ := adds_cqIntr
    (P := fun e => e.toBackend = false ∧ e.completion = none) (w.cqPushed c cdesc) c true
    ⟨rfl,rfl⟩ fun _ _ => ⟨rfl,rfl⟩
  have hframes : fs.filter Event.toBackend = [] :=
    List.filter_eq_nil_iff.mpr fun e he => by simp [(hquiet e he).1]
  have hcompletions : fs.filterMap Event.completion = [] :=
    List.filterMap_eq_nil_iff.mpr fun e he => (hquiet e he).2
  have hpath : Path w (.regWrite (regSqDbBase + 4*i.val) 0) w
      (enaCqIntr (w.cqPushed c cdesc) c true) :=
    (cqPushed_path cdesc h.tables husedc (.inl (by rw [doorbell_regWrite]; simp))).tail
      (.cqIntr c true (cqPushed_used husedc _) (cqPushed_justPushed w c cdesc))
  refine ⟨_,[.dmaWrite (.cq c) w.dev (w.dev.cq c).slotAddr
    (cdesc.take (w.dev.cq c).entrySize.toNat)] ++ fs,cdesc.take (w.dev.cq c).entrySize.toNat,
      hcomplete,
    ⟨hpath.tableInv h.tables,⟨m,?_⟩,?_,?_,?_⟩,?_,?_,hintr.llq,?_,?_,?_⟩
  · rw [hdev]
    exact hsq
  · rw [hdev,Function.iterate_succ_apply',← h.cq]
    exact cqPushed_cq w c cdesc
  · rw [hdev]
    exact h.mtu
  · rw [hdev]
    exact h.macaddr
  · rw [List.length_take,hcq]
    exact min_le_left _ _
  · rw [hintr.mem,← h.cq]
    rfl
  · rw [hfs,cqPushed_trace,List.append_assoc]
  · rw [List.filter_append,hframes]
    rfl
  · rw [List.filterMap_append,hcompletions,← hcdesc]
    simp only [Event.completion, List.filterMap_cons, List.filterMap_nil, List.append_nil,
      List.map_cons, List.map_nil]
    rw [le16At_take (by omega),le16At_take (by omega),le16At_take (by omega)]
    exact congrArg (fun r => [(c,r)]) (Prod.ext (le16At_ofLe16 reqId _)
      (Prod.ext (le16At_ofLe16 (UInt16.ofNat i) []) (le16At_ofLe16 head [])))

lemma txSlot_congr {w w₁ : World} (hmem : w₁.mem = w.mem) (hllq : w₁.llq = w.llq) (q : EnaSq)
    (m m₁ : EnaTxMeta) :
    w₁.txSlot i (q.moved head tail m₁) = w.txSlot i (q.moved head tail m) := by
  funext j
  unfold World.txSlot
  rw [hmem,hllq]
  rfl

/-- The cached meta descriptor is the only thing that a packet's meta descriptor changes. -/
lemma TxProgress.withMeta (h : TxProgress i c s₀ head tail n w) (p : EnaTxPkt) :
    TxProgress i c s₀ head tail n (w.withMeta i p) ∧ (w.withMeta i p).mem = w.mem ∧
      (w.withMeta i p).llq = w.llq ∧ (w.withMeta i p).trace = w.trace := by
  have hpath : Path w (.regWrite (regSqDbBase + 4*i.val) 0) w (w.withMeta i p) := withMeta_path p
  obtain ⟨m,hsq⟩ := h.sq
  obtain ⟨m₁,hsq₁⟩ := withMeta_sq w i p
  rw [hsq] at hsq₁
  have hrest : (w.withMeta i p).dev.cq = w.dev.cq ∧ (w.withMeta i p).dev.mtu = w.dev.mtu ∧
      (w.withMeta i p).dev.macaddr = w.dev.macaddr ∧ (w.withMeta i p).mem = w.mem ∧
      (w.withMeta i p).llq = w.llq ∧ (w.withMeta i p).trace = w.trace := by
    unfold World.withMeta
    split_ifs <;> exact ⟨rfl,rfl,rfl,rfl,rfl,rfl⟩
  obtain ⟨hcq,hmtu,hmac,henv⟩ := hrest
  exact ⟨⟨hpath.tableInv h.tables,⟨m₁,hsq₁⟩,hcq ▸ h.cq,hmtu.trans h.mtu,hmac.trans h.macaddr⟩,henv⟩

/-- The frame of a packet goes to the backend, and nothing else changes. -/
lemma TxProgress.xmitted (h : TxProgress i c s₀ head tail n w) (frame : Bytes) :
    TxProgress i c s₀ head tail n (w.txXmitted frame) ∧ (w.txXmitted frame).mem = w.mem ∧
      (w.txXmitted frame).llq = w.llq ∧ (w.txXmitted frame).trace =
        w.trace ++ ([frame].filter (TxAccepts s₀ ·)).map Event.sendPacket := by
  obtain ⟨htrace,hmem,hllq,hqueues,hmac⟩ := txXmitted_spec h.tables frame
  obtain ⟨m,hsq⟩ := h.sq
  have haccepts : TxAccepts w.dev = TxAccepts s₀ := by
    funext b
    rw [TxAccepts,h.mtu,h.macaddr]
    rfl
  refine ⟨⟨h.tables.of_sameQueues hqueues,⟨m,?_⟩,?_,hqueues.mtu.trans h.mtu,hmac.trans h.macaddr⟩,
    hmem,hllq,?_⟩
  · rw [hqueues.sq]
    exact hsq
  · rw [hqueues.cq]
    exact h.cq
  · rw [htrace]
    congr 3
    funext b
    simp only [haccepts]

include h₀ hu in
/-- The packet at the head is parsed and sent. -/
lemma TxProgress.xmit (h : TxProgress i c s₀ head tail n w) {p : TxPacket} {writes : UInt64 → Prop}
    (hpost : p.Posted (s₀.sq i) i writes w.mem w.llq head)
    (hroom : p.entries (s₀.sq i) ≤ (tail - head).toNat) :
    ∃ d ds m w', enaTxParse w i = .ok (some ⟨d::ds,p.slots,p.haveMeta,m⟩) ∧ EncodesPacket d p ∧
      enaTxXmit net (w.withMeta i ⟨d::ds,p.slots,p.haveMeta,m⟩) i ⟨d::ds,p.slots,p.haveMeta,m⟩ =
        .ok w' ∧
      TxProgress i c s₀ head tail n w' ∧ w'.mem = w.mem ∧ w'.llq = w.llq ∧
      w'.trace = w.trace ++ ([p.frame].filter (TxAccepts s₀ ·)).map Event.sendPacket := by
  have hok₀ := h₀.sq i hu
  obtain ⟨m,hsq⟩ := h.sq
  have hok : ((s₀.sq i).moved head tail m).Ok w.dev := hsq ▸ h.tables.sq i (by rw [hsq]; exact hu)
  have hdesc : ∀ j < p.slots, p.Encodes j (w.txSlot i ((s₀.sq i).moved head tail m) j) :=
    fun j hj => hpost.encodes hok₀ tail m hj
  obtain ⟨pm,hparse⟩ := TxPacket.parse_eq hok hpost.max hdesc
    (fun j hj => (TxPacket.slotPos_lt hok₀ hpost.nonempty hj).trans_le hroom) hpost.nonempty
  have hfirst := (hdesc _ (TxPacket.slots_pos hpost.nonempty)).first rfl
  obtain ⟨r,hr⟩ := Nat.exists_eq_add_of_lt (List.length_pos_iff.mpr hpost.nonempty)
  rw [Nat.zero_add] at hr
  generalize hd : w.txSlot i ((s₀.sq i).moved head tail m) p.metaSlots = d at hfirst
  obtain ⟨ds,hds⟩ : ∃ ds, p.descs w i ((s₀.sq i).moved head tail m) = d::ds :=
    ⟨_,by rw [TxPacket.descs,hr,List.range'_succ,List.map_cons,hd]⟩
  rw [hds,← hsq] at hparse
  -- the descriptors are the same after the cached meta has changed
  obtain ⟨h₁,hmem₁,hllq₁,htrace₁⟩ := h.withMeta ⟨d::ds,p.slots,p.haveMeta,pm⟩
  generalize hw₁ : w.withMeta i ⟨d::ds,p.slots,p.haveMeta,pm⟩ = w₁ at h₁ hmem₁ hllq₁ htrace₁
  obtain ⟨m₁,hsq₁⟩ := h₁.sq
  have hpost₁ : p.Posted (s₀.sq i) i writes w₁.mem w₁.llq head := by
    rw [hmem₁,hllq₁]
    exact hpost
  have hds₁ : p.descs w₁ i ((s₀.sq i).moved head tail m₁) = d::ds := by
    rw [TxPacket.descs,txSlot_congr hmem₁ hllq₁ (s₀.sq i) m m₁]
    exact hds
  have hbufs : List.Forall₂ (ReadsBuf w₁) (d::ds) p.bufs := hds₁ ▸ hpost₁.readsBufs hok₀
  have hxmit : enaTxXmit net w₁ i ⟨d::ds,p.slots,p.haveMeta,pm⟩ = .ok (w₁.txXmitted p.frame) := by
    refine enaTxXmit_plain hbufs hfirst ?_ ?_ ?_ _ _ _ <;> rw [hsq₁]
    · exact fun hl => (hpost.host hl).header
    · exact fun hl => (hpost.llq hl).fits
    · exact hpost₁.header_eq hok₀
  obtain ⟨h₂,hmem₂,hllq₂,htrace₂⟩ := h₁.xmitted p.frame
  rw [htrace₁] at htrace₂
  exact ⟨d,ds,pm,_,hparse,hfirst,by rw [hw₁]; exact hxmit,h₂,hmem₂.trans hmem₁,hllq₂.trans hllq₁,
    htrace₂⟩

/-- The head moves over the packet. -/
lemma TxProgress.setHead (h : TxProgress i c s₀ head tail n w) {k : ℕ}
    (hk : k ≤ (tail - head).toNat) :
    TxProgress i c s₀ (head + UInt16.ofNat k) tail n
      (w.setSq i { w.dev.sq i with head := (w.dev.sq i).head + UInt16.ofNat k }) := by
  obtain ⟨m,hsq⟩ := h.sq
  refine ⟨h.tables.setHead i ?_,⟨m,?_⟩,h.cq,h.mtu,h.macaddr⟩
  · rw [hsq]
    exact hk
  · rw [World.setSq_sq,hsq]
    rfl

include h₀ hu hc in
/-- One iteration of the doorbell loop serves the packet at the head. -/
lemma TxProgress.step (h : TxProgress i c s₀ head tail n w) {p : TxPacket} {writes : UInt64 → Prop}
    (hpost : p.Posted (s₀.sq i) i writes w.mem w.llq head)
    (hroom : p.entries (s₀.sq i) ≤ (tail - head).toNat)
    (hwrites : p.compReq = true → ∀ x, InRegion (EnaCq.advance^[n] (s₀.cq c)).slotAddr
      (s₀.cq c).entrySize.toNat x → writes x) :
    ∃ w' es, enaTxDoorbellStep net w i = .ok w' ∧
      TxProgress i c s₀ (head + UInt16.ofNat (p.entries (s₀.sq i))) tail (n + p.compReq.toNat) w' ∧
      w.mem.Agrees writes w'.mem ∧ w'.llq = w.llq ∧ w'.trace = w.trace ++ es ∧
      TxTrace i c s₀ head [p] es := by
  have hok₀ := h₀.sq i hu
  obtain ⟨d,ds,pm,w₂,hparse,hd,hxmit,h₂,hmem₂,hllq₂,htrace₂⟩ := h.xmit net h₀ hu hpost hroom
  obtain ⟨m₂,hsq₂⟩ := h₂.sq
  have hentries : enaTxPktEntries (w₂.dev.sq i) p.slots = .ok (p.entries (s₀.sq i)) := by
    have hok₂ := h₂.tables.sq i (by rw [hsq₂]; exact hu)
    rw [hok₂.txPktEntries (Nat.zero_le _ |>.trans_lt (TxPacket.slots_pos hpost.nonempty)),hsq₂,
      ← TxPacket.entries_eq hok₀ hpost.nonempty]
    rfl
  have h₃ := h₂.setHead hroom
  have hstep : enaTxDoorbellStep net w i =
      if p.compReq then enaTxComplete (w₂.setSq i { w₂.dev.sq i with
        head := (w₂.dev.sq i).head + UInt16.ofNat (p.entries (s₀.sq i)) }) i p.reqId
      else .ok (w₂.setSq i { w₂.dev.sq i with
        head := (w₂.dev.sq i).head + UInt16.ofNat (p.entries (s₀.sq i)) }) := by
    unfold enaTxDoorbellStep
    rw [hparse,ok_bind]
    change (enaTxXmit net (w.withMeta i _) i _ >>= _) = _
    rw [hxmit,ok_bind,hentries,ok_bind,hd.isCompReq,hd.reqId_eq]
    rfl
  obtain ⟨w₃,hw₃,hmem₃,hllq₃,htrace₃⟩ : ∃ w₃, w₂.setSq i { w₂.dev.sq i with
      head := (w₂.dev.sq i).head + UInt16.ofNat (p.entries (s₀.sq i)) } = w₃ ∧ w₃.mem = w.mem ∧
      w₃.llq = w.llq ∧ w₃.trace = w.trace ++
        ([p.frame].filter (TxAccepts s₀ ·)).map Event.sendPacket := ⟨_,rfl,hmem₂,hllq₂,htrace₂⟩
  rw [hw₃] at h₃ hstep
  cases hcomp : p.compReq with
  | false =>
    rw [hcomp,if_neg Bool.false_ne_true] at hstep
    refine ⟨w₃,_,hstep,h₃,hmem₃ ▸ .refl _,hllq₃,by rw [htrace₃,List.append_nil],.packet rfl ?_⟩
    rw [hcomp]
    rfl
  | true =>
    obtain ⟨w',fs,data,hok,h',hlen,hmem',hllq',htrace',hfs,hdone⟩ := h₃.complete h₀ hu hc p.reqId
    rw [hcomp,if_pos rfl,hok] at hstep
    refine ⟨w',_,hstep,h',?_,hllq'.trans hllq₃,by rw [htrace',htrace₃,List.append_assoc],
      .packet hfs (by rw [hdone,hcomp]; rfl)⟩
    rw [hmem',hmem₃]
    exact .write fun x hx => hwrites hcomp x (Nat.lt_of_lt_of_le hx hlen)

include h₀ hu hc in
/-- The loop serves the posted packets one after another. -/
lemma TxProgress.loop {ps : List TxPacket} {writes : UInt64 → Prop} (fuel : ℕ)
    (h : TxProgress i c s₀ head tail n w)
    (hpost : PostedFrom (s₀.sq i) i writes w.mem w.llq head ps)
    (htail : (tail - head).toNat = txEntries (s₀.sq i) ps) (hfuel : ps.length ≤ fuel)
    (hwrites : ∀ k < ps.countP TxPacket.compReq, ∀ x,
      InRegion (EnaCq.advance^[n+k] (s₀.cq c)).slotAddr (s₀.cq c).entrySize.toNat x → writes x) :
    ∃ w' es, enaTxDoorbellLoop net i fuel w = .ok w' ∧
      TxProgress i c s₀ (head + UInt16.ofNat (txEntries (s₀.sq i) ps)) tail
        (n + ps.countP TxPacket.compReq) w' ∧
      w'.trace = w.trace ++ es ∧ TxTrace i c s₀ head ps es := by
  obtain ⟨m,hsq⟩ := h.sq
  induction ps generalizing fuel head n w m with
  | nil =>
    have he : (w.dev.sq i).head = (w.dev.sq i).tail := by
      rw [hsq]
      exact (Counter.sub_toNat_eq_zero_iff _ _).mp htail
    refine ⟨w,[],?_,?_,(List.append_nil _).symm,.nil⟩
    · cases fuel <;> rw [enaTxDoorbellLoop,if_pos he] <;> rfl
    · simpa [txEntries] using h
  | cons p ps ih =>
    obtain ⟨hp,hps⟩ := hpost
    have hsum : txEntries (s₀.sq i) (p::ps) = p.entries (s₀.sq i) + txEntries (s₀.sq i) ps := rfl
    have hpos := TxPacket.entries_eq (h₀.sq i hu) hp.nonempty
    have hroom : p.entries (s₀.sq i) ≤ (tail - head).toNat := by omega
    have hne : ¬ (w.dev.sq i).head = (w.dev.sq i).tail := by
      rw [hsq]
      intro he
      have hz := (Counter.sub_toNat_eq_zero_iff tail head).mpr he
      omega
    cases fuel with
    | zero => exact absurd hfuel (by simp)
    | succ fuel =>
      have hcount : (p::ps).countP TxPacket.compReq =
          p.compReq.toNat + ps.countP TxPacket.compReq := by
        rw [List.countP_cons,Nat.add_comm]
        cases p.compReq <;> rfl
      obtain ⟨w₁,es,hstep,h₁,hmem,hllq,htrace,hes⟩ := h.step net h₀ hu hc hp hroom fun hreq =>
        hwrites 0 (by rw [hcount,hreq]; exact Nat.lt_add_right _ (by decide))
      obtain ⟨m₁,hsq₁⟩ := h₁.sq
      have hps₁ : PostedFrom (s₀.sq i) i writes w₁.mem w₁.llq _ ps := hllq ▸ hps.agrees hmem
      have htail₁ : (tail - (head + UInt16.ofNat (p.entries (s₀.sq i)))).toNat =
          txEntries (s₀.sq i) ps := by
        rw [Counter.sub_add_toNat _ _ _ hroom]
        omega
      obtain ⟨w',fs,hloop,h',htrace',hfs⟩ := ih fuel h₁ hps₁ htail₁ (Nat.le_of_succ_le_succ hfuel)
        (fun k hk => by
          rw [Nat.add_assoc]
          exact hwrites _ (by rw [hcount]; omega)) m₁ hsq₁
      refine ⟨w',es ++ fs,?_,?_,?_,?_⟩
      · rw [enaTxDoorbellLoop,if_neg hne,hstep,ok_bind,hloop]
      · rw [UInt16.add_assoc,← UInt16.ofNat_add,← hsum,Nat.add_assoc,← hcount] at h'
        exact h'
      · rw [htrace',htrace,List.append_assoc]
      · have hall : TxTrace i c s₀ head ([p] ++ ps) (es ++ fs) :=
          hes.append (by simpa [txEntries] using hfs)
        exact hall

lemma length_le_txEntries {ps : List TxPacket} {writes : UInt64 → Prop} {m : Memory}
    {llq : ℕ → UInt8} (hok : (s₀.sq i).Ok s₀) (h : PostedFrom (s₀.sq i) i writes m llq head ps) :
    ps.length ≤ txEntries (s₀.sq i) ps := by
  induction ps generalizing head with
  | nil => exact Nat.zero_le _
  | cons p ps ih =>
    have hpos := TxPacket.entries_eq hok h.1.nonempty
    have hrest := ih h.2
    have hsum : txEntries (s₀.sq i) (p::ps) = p.entries (s₀.sq i) + txEntries (s₀.sq i) ps := rfl
    rw [List.length_cons]
    omega

include h₀ hu htx hc in
/-- A doorbell serves its burst. -/
lemma TxProgress.doorbell (h : TxProgress i c s₀ head tail n w) {b : TxBurst}
    (hmem : b.mem = w.mem) (hllq : b.llq = w.llq)
    (hb : b.Posted (s₀.sq i) i (EnaCq.advance^[n] (s₀.cq c)) head) :
    ∃ w' es, EnaDevice.step net w (.regWrite (regSqDbBase + 4*i.val) b.val) = .ok w' ∧
      TxProgress i c s₀ (head + UInt16.ofNat (txEntries (s₀.sq i) b.packets))
        (head + UInt16.ofNat (txEntries (s₀.sq i) b.packets)) (n + b.completions) w' ∧
      w'.trace = w.trace ++ es ∧ TxTrace i c s₀ head b.packets es := by
  have hok₀ := h₀.sq i hu
  have hi := i.isLt
  obtain ⟨m,hsq⟩ := h.sq
  have hdepth : (s₀.sq i).depth.toNat ≤ 1024 := hok₀.depth.max
  have hroom := hb.room
  have hdist : (head + UInt16.ofNat (txEntries (s₀.sq i) b.packets) - head).toNat =
      txEntries (s₀.sq i) b.packets := by
    rw [show head + UInt16.ofNat (txEntries (s₀.sq i) b.packets) - head =
      UInt16.ofNat (txEntries (s₀.sq i) b.packets) by grind,UInt16.toNat_ofNat']
    omega
  have hle : b.val.toUInt32.toUInt16 - (w.dev.sq i).head ≤ (w.dev.sq i).depth := by
    rw [hsq,hb.val]
    exact UInt16.le_iff_toNat_le.mpr (hdist.trans_le hroom)
  -- the doorbell moves the tail, and the loop starts
  have hpath : Path w (.regWrite (regSqDbBase + 4*i.val) b.val) w
      (w.setSq i { w.dev.sq i with tail := b.val.toUInt32.toUInt16 }) :=
    .single (.sqTail i _ (doorbell_regWrite i b.val) hle)
  have h₁ : TxProgress i c s₀ head (head + UInt16.ofNat (txEntries (s₀.sq i) b.packets)) n
      (w.setSq i { w.dev.sq i with tail := b.val.toUInt32.toUInt16 }) := by
    refine ⟨hpath.tableInv h.tables,⟨m,?_⟩,h.cq,h.mtu,h.macaddr⟩
    rw [World.setSq_sq,hsq,hb.val]
    rfl
  have hpost : PostedFrom (s₀.sq i) i (CqWrites (EnaCq.advance^[n] (s₀.cq c)) b.completions) w.mem
      w.llq head b.packets := hmem ▸ hllq ▸ hb.packets
  obtain ⟨w',es,hloop,h',htrace,hes⟩ := TxProgress.loop net h₀ hu hc
    (txEntries (s₀.sq i) b.packets) h₁ hpost hdist (length_le_txEntries hok₀ hpost)
    (fun k hk x hx => ⟨k,hk,by
      obtain ⟨t,ph,he⟩ := (s₀.cq c).advance_iterate n
      rw [← Function.iterate_add_apply,Nat.add_comm,he]
      exact hx⟩)
  refine ⟨w',es,?_,h',htrace,hes⟩
  have hcq : (w.dev.cq c).used = true := by
    obtain ⟨t,ph,he⟩ := (s₀.cq c).advance_iterate n
    rw [h.cq,he]
    exact used_cq h₀ hu hc
  change enaRegWrite net w _ b.val = _
  rw [enaRegWrite_doorbell,enaSqDoorbell]
  dsimp only
  rw [if_neg (by rw [hsq]; simp [EnaSq.moved,hu]),if_neg (UInt16.not_lt.mpr hle),
    if_pos (by rw [hsq]; exact htx)]
  generalize hw₁ : w.setSq i _ = w₁ at h₁ hloop
  have hcq₁ : w₁.dev.cq = w.dev.cq := by rw [← hw₁]; rfl
  obtain ⟨m₁,hsq₁⟩ := h₁.sq
  unfold enaTxDoorbell
  dsimp only
  rw [show (w₁.dev.sq i).isTx = true by rw [hsq₁]; exact htx,check_true,ok_bind,
    cqAt_eq (show (w₁.dev.sq i).cqIdx.toNat = c.val by rw [hsq₁]; exact hc),ok_bind,hcq₁,hcq,
    if_neg (by decide),hsq₁]
  change enaTxDoorbellLoop net i (head + UInt16.ofNat (txEntries (s₀.sq i) b.packets) - head).toNat
    w₁ = _
  rw [hdist]
  exact hloop

include h₀ hu htx hc in
lemma TxProgress.run {bs : List TxBurst} (h : TxProgress i c s₀ head head n w)
    (hb : BurstsFrom (s₀.sq i) i (EnaCq.advance^[n] (s₀.cq c)) head bs) :
    ∃ w' es n', EnaDevice.run net w (bs.flatMap (TxBurst.inputs i)) = .ok w' ∧
      TxProgress i c s₀ (head + UInt16.ofNat (txEntries (s₀.sq i) (bs.flatMap TxBurst.packets)))
        (head + UInt16.ofNat (txEntries (s₀.sq i) (bs.flatMap TxBurst.packets))) n' w' ∧
      w'.trace = w.trace ++ es ∧ TxTrace i c s₀ head (bs.flatMap TxBurst.packets) es := by
  induction bs generalizing head n w with
  | nil =>
    refine ⟨w,[],n,rfl,?_,(List.append_nil _).symm,.nil⟩
    simpa [txEntries] using h
  | cons b bs ih =>
    obtain ⟨hpost,hrest⟩ := hb
    have hguest : TxProgress i c s₀ head head n { w with mem := b.mem, llq := b.llq } :=
      ⟨h.tables,h.sq,h.cq,h.mtu,h.macaddr⟩
    obtain ⟨w₁,es,hstep,h₁,htrace,hes⟩ := hguest.doorbell net h₀ hu htx hc rfl rfl hpost
    rw [← Function.iterate_add_apply,Nat.add_comm] at hrest
    obtain ⟨w',fs,n',hrun,h',htrace',hfs⟩ := ih h₁ hrest
    rw [UInt16.add_assoc,← UInt16.ofNat_add,← txEntries_append] at h'
    refine ⟨w',es ++ fs,n',?_,h',?_,hes.append hfs⟩
    · change (EnaDevice.step net { w with mem := b.mem, llq := b.llq } _ >>= _) = _
      rw [hstep,ok_bind]
      exact hrun
    · rw [htrace',htrace,List.append_assoc]

end Doorbell

/-- TX end to end: over any bursts of well-formed packets the backend gets the frames that the
device lets through, in order and once each, the driver gets the completions it asked for, and the
queue ends up drained. -/
theorem txRun_transmits (net : Net) {w : World} {i : SqIdx} {c : CqIdx} (hw : TableInv w.dev)
    (hidle : TxIdle none w.dev) (hu : (w.dev.sq i).used = true) (htx : (w.dev.sq i).isTx = true)
    (hc : (w.dev.sq i).cqIdx.toNat = c.val) (bs : List TxBurst)
    (hb : BurstsFrom (w.dev.sq i) i (w.dev.cq c) (w.dev.sq i).head bs) :
    ∃ w' es, run net w (bs.flatMap (TxBurst.inputs i)) = .ok w' ∧ w'.trace = w.trace ++ es ∧
      TxTrace i c w.dev (w.dev.sq i).head (bs.flatMap TxBurst.packets) es ∧
      (w'.dev.sq i).head = (w.dev.sq i).head +
        UInt16.ofNat (txEntries (w.dev.sq i) (bs.flatMap TxBurst.packets)) ∧
      (w'.dev.sq i).head = (w'.dev.sq i).tail := by
  have hstart : TxProgress i c w.dev (w.dev.sq i).head (w.dev.sq i).head 0 w := by
    refine ⟨hw,⟨(w.dev.sq i).txMeta,?_⟩,rfl,rfl,rfl⟩
    have htail := hidle i (by simp) hu htx
    nth_rewrite 2 [htail]
    rfl
  obtain ⟨w',es,n,hrun,h',htrace,hes⟩ := hstart.run net hw hu htx hc hb
  obtain ⟨m,hsq⟩ := h'.sq
  exact ⟨w',es,hrun,htrace,hes,by rw [hsq]; rfl,by rw [hsq]; rfl⟩

/-- The TX queue that `createSqCmd` makes. -/
def txQueue : EnaSq := ⟨true,true,false,0,0x4000,16,0,0,0,EnaTxMeta.zero⟩

/-- A meta descriptor and two buffers, with a request id that needs both fields. -/
def metaPacket : TxPacket where
  haveMeta := true
  reqId := 1029
  compReq := true
  header := []
  bufs := [⟨0x5000,List.replicate 6 0xff ++ List.replicate 6 2 ++ [0x88,0xb5]⟩,
    ⟨0x500e,List.replicate 46 7⟩]

/-- A frame that does not come from the device's address. -/
def foreignPacket : TxPacket where
  haveMeta := false
  reqId := 3
  compReq := false
  header := []
  bufs := [⟨0x6000,List.replicate 14 0xff⟩]

/-- Two buffers without a meta descriptor. -/
def splitPacket : TxPacket where
  haveMeta := false
  reqId := 4
  compReq := true
  header := []
  bufs := [⟨0x7000,List.replicate 6 0xff ++ List.replicate 6 2 ++ [0x88,0xb5]⟩,
    ⟨0x700e,List.replicate 46 9⟩]

/-- Two packets in the slots 0 to 3 of the ring, and one in the slots 4 and 5. -/
def twoBursts : List TxBurst :=
  [{ mem := .ofSegments ((0x4000,[0x04b04000,0,0,0,0x1001000e,0x01400000,0x5000,0,
        0x0800002e,0,0x500e,0,0x0c00000e,0x00c00000,0x6000,0].flatMap ofLe32) ::
        (metaPacket.bufs ++ foreignPacket.bufs).map fun b => (b.addr,b.data)),
     llq _ := 0, val := 4, packets := [metaPacket,foreignPacket] },
   { mem := .ofSegments ((0x4040,[0x1400000e,0x01000000,0x7000,0,
        0x0800002e,0,0x700e,0].flatMap ofLe32) ::
        splitPacket.bufs.map fun b => (b.addr,b.data)),
     llq _ := 0, val := 6, packets := [splitPacket] }]

lemma twoBursts_posted : BurstsFrom txQueue 0 createdCq 0 twoBursts := by
  have hring : ∀ k n x, CqWrites (EnaCq.advance^[k] createdCq) n x → x.toNat < 0x4000 := by
    intro k n x hx
    have hlt : (x - 0x3000).toNat < 256 := CqWrites.inRing createdCq_fresh.ok hx
    rw [UInt64.toNat_sub] at hlt
    have hxlt := x.toNat_lt
    simp only [UInt64.reduceToNat] at hlt
    omega
  exact ⟨⟨⟨.of_above 0x4000 (by decide +kernel) (hring 0 _),
      .of_above 0x4000 (by decide +kernel) (hring 0 _),trivial⟩,by decide,by decide⟩,
    ⟨⟨.of_above 0x4000 (by decide +kernel) (hring 1 _),trivial⟩,by decide,by decide⟩,trivial⟩

/-- Two bursts of three packets: two frames go out, and two request ids come back. -/
theorem txRun_transmits_two :
    ∃ w w' es, run Net.nonIp freshWorld
        (driverSetup [createCqCmd,createSqCmd sqIdentityTx] []) = .ok w ∧
      run Net.nonIp w (twoBursts.flatMap (TxBurst.inputs 0)) = .ok w' ∧ w'.trace = w.trace ++ es ∧
      TxTrace 0 0 w.dev 0 [metaPacket,foreignPacket,splitPacket] es ∧
      [metaPacket,foreignPacket,splitPacket].map (decide <| TxAccepts w.dev ·.frame) =
        [true,false,true] ∧
      txCompletions (w.dev.sq 0) 0 [metaPacket,foreignPacket,splitPacket] = [(1029,3),(4,6)] ∧
      (w'.dev.sq 0).head = 6 ∧ (w'.dev.sq 0).head = (w'.dev.sq 0).tail := by
  obtain ⟨w,hrun,hw⟩ := exists_of_okAnd
    (p := fun w : World => w.dev.sq 0 == txQueue && w.dev.cq 0 == createdCq &&
      [metaPacket,foreignPacket,splitPacket].map (decide <| TxAccepts w.dev ·.frame) ==
        [true,false,true])
    (x := run Net.nonIp freshWorld (driverSetup [createCqCmd,createSqCmd sqIdentityTx] []))
    (by decide +kernel)
  simp only [Bool.and_eq_true, beq_iff_eq] at hw
  obtain ⟨⟨hsq,hcq⟩,haccepts⟩ := hw
  obtain ⟨htables,hidle⟩ := Reachable.tables (reachable_of_run hrun)
  obtain ⟨w',es,hrun',htrace,hes,hhead,hdrained⟩ :=
    txRun_transmits Net.nonIp (i := 0) (c := 0) htables
    hidle (by rw [hsq]; rfl) (by rw [hsq]; rfl) (by rw [hsq]; rfl) twoBursts
    (by rw [hsq,hcq]; exact twoBursts_posted)
  rw [hsq] at hes hhead
  exact ⟨w,w',es,hrun,hrun',htrace,hes,haccepts,by rw [hsq]; decide,hhead,hdrained⟩

end EnaDevice
