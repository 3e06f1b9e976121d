import EnaDevice.Control.Beside
import EnaDevice.Driver.Posting

/-! TX end to end, from the driver's calls to the backend and back: bursts that are pushed and rung
in, polls for their completions, and steps of the device beside the queue pair, in any order. -/
namespace EnaDevice.Driver
open Bytes Result PhaseRing CqChannel Slots

/-- The bytes of the two rings of a queue pair. -/
def RingBytes (t : EnaTxQueue) (x : UInt64) : Prop :=
  InRegion t.sqRing (t.depth.toNat*16) x ∨ InRegion t.cqRing (t.depth.toNat*t.cqEntrySize.toNat) x

/-- A burst that the driver may send: the packets stand in memory, there is room in the SQ, and in
the CQ there is room for the completions that are unread or will be asked for. -/
structure Sendable (t : EnaTxQueue) (s : Session) (sent ps : List TxPacket) (polled : List Bytes) :
    Prop where
  packets : ∀ p ∈ ps, Plain p ∧ Loaded s.w.mem (RingBytes t) p
  room : (ps.flatMap packetDescs).length ≤ t.depth.toNat
  fits : (sent ++ ps).countP TxPacket.compReq ≤ polled.length + t.depth.toNat

/-- A driver at its TX queue pair since the creation, with the packets sent, the completions polled
and what its own bursts made the device do so far. In between the device takes steps beside the pair
that do not set the MTU; other pairs may send. -/
inductive TxRun (q : Qtest) (i : SqIdx) (c : CqIdx) (s₀ : Session) :
    EnaTxQueue → Session → List TxPacket → List Bytes → List Event → Prop
  | create {s : Session} {log : List (Bytes × UInt8)} {depth : UInt16} {words : UInt8}
    {vector : UInt32} {cqRing sqRing : UInt64} {t : EnaTxQueue} (h : Calls q s log)
    (htables : TableInv s.w.dev ∧ TxIdle none s.w.dev) (hcq : CqArgs depth words vector cqRing)
    (hsq : sqRing ≠ 0 ∧ sqRing.toNat < 2^48)
    (hclear : (rings s.d).Clear cqRing (depth.toNat*(words*4).toNat))
    (hapart : Apart sqRing (depth.toNat*16) cqRing (depth.toNat*(words*4).toNat))
    (hread : s.w.mem.ringOk sqRing 16 depth.toNat) (hc : Lowest s.w.dev.book.cq c)
    (hi : Lowest s.w.dev.book.sq i)
    (hcreate : enaTxqCreate q s depth words vector false cqRing sqRing = .ok (t,s₀)) :
    TxRun q i c s₀ t s₀ [] [] []
  | send {t t' : EnaTxQueue} {s s' : Session} {sent ps : List TxPacket} {polled : List Bytes}
    {out : List Event} (h : TxRun q i c s₀ t s sent polled out) (hps : Sendable t s sent ps polled)
    (hs : sendBurst q s t ps = .ok (t',s')) :
    TxRun q i c s₀ t' s' (sent ++ ps) polled (out ++ s'.w.trace.drop s.w.trace.length)
  | poll {t t' : EnaTxQueue} {s : Session} {sent : List TxPacket} {polled : List Bytes}
    {out : List Event} {cdesc : Bytes} (h : TxRun q i c s₀ t s sent polled out)
    (hp : enaTxqPollCdesc s t = (some cdesc,t')) :
    TxRun q i c s₀ t' s sent (polled ++ [cdesc]) out
  | other {t : EnaTxQueue} {s s' : Session} {sent : List TxPacket} {polled : List Bytes}
    {out : List Event} {inp : Input} (h : TxRun q i c s₀ t s sent polled out)
    (hb : Beside q.net i c (RingBytes t) s.w inp s'.w)
    (hmtu : ∀ cmd, (cmd,AdminStatus.success.code) ∈ newExecs s.w s'.w → ¬ IsSet .mtu cmd) :
    TxRun q i c s₀ t s' sent polled out

/-- The queue pair as the driver has it is the device's. -/
structure SamePair (t : EnaTxQueue) (i : SqIdx) (c : CqIdx) (s₀ : EnaState) : Prop where
  used : (s₀.sq i).used = true
  isTx : (s₀.sq i).isTx = true
  cqIdx : (s₀.sq i).cqIdx.toNat = c.val
  llq : (s₀.sq i).llq = false ∧ t.llq = false
  sqRing : t.sqRing = (s₀.sq i).base
  cqRing : t.cqRing = (s₀.cq c).base
  cqEntrySize : t.cqEntrySize = (s₀.cq c).entrySize
  depth : t.depth = (s₀.sq i).depth ∧ t.depth = (s₀.cq c).depth
  doorbell : RingsSq t.dbOff i
  apart : Apart t.sqRing (t.depth.toNat*16) t.cqRing (t.depth.toNat*t.cqEntrySize.toNat)

lemma SamePair.withTail {t : EnaTxQueue} {i : SqIdx} {c : CqIdx} {s₀ : EnaState}
    (h : SamePair t i c s₀) (tail : UInt16) :
    SamePair { t with tail := tail } i c s₀ := by
  obtain ⟨hused,htx,hcq,hllq,hsqRing,hcqRing,hentry,hdepth,hdoorbell,hapart⟩ := h
  exact ⟨hused,htx,hcq,hllq,hsqRing,hcqRing,hentry,hdepth,hdoorbell,hapart⟩

lemma SamePair.withHead {t : EnaTxQueue} {i : SqIdx} {c : CqIdx} {s₀ : EnaState}
    (h : SamePair t i c s₀) (head : UInt16) (phase : Bool) :
    SamePair { t with cqHead := head, cqPhase := phase } i c s₀ := by
  obtain ⟨hused,htx,hcq,hllq,hsqRing,hcqRing,hentry,hdepth,hdoorbell,hapart⟩ := h
  exact ⟨hused,htx,hcq,hllq,hsqRing,hcqRing,hentry,hdepth,hdoorbell,hapart⟩

/-- Driver and device after some packets and polls. -/
structure TxState (i : SqIdx) (c : CqIdx) (s₀ : Session) (t : EnaTxQueue) (s : Session)
    (sent : List TxPacket) (polled : List Bytes) (out : List Event) : Prop where
  tables : TableInv s₀.w.dev
  pair : SamePair t i c s₀.w.dev
  tail : t.tail = UInt16.ofNat (txEntries (s₀.w.dev.sq i) sent)
  progress : TxProgress i c s₀.w.dev t.tail t.tail (sent.countP TxPacket.compReq) s.w
  idle : TxIdle none s.w.dev
  readable : s.w.mem.ringOk t.sqRing 16 t.depth.toNat
  frames : out.filter Event.toBackend =
    ((sent.map TxPacket.frame).filter (TxAccepts s₀.w.dev ·)).map Event.sendPacket
  among : ∃ es, s.w.trace = s₀.w.trace ++ es ∧ out.Sublist es
  channel : ∃ pushed entries, Inv c ⟨s.w,⟨t.cqHead,t.cqPhase⟩,pushed,entries⟩ ∧
    polled = entries.map (·.take 8) ∧
    pushed.map txFields = (txCompletions (s₀.w.dev.sq i) 0 sent).map fun r =>
      (r.1,UInt16.ofNat i,r.2)

section State
variable {q : Qtest} {i : SqIdx} {c : CqIdx} {s₀ s s' : Session} {t t' : EnaTxQueue}
  {sent ps : List TxPacket} {polled : List Bytes} {out : List Event}

lemma TxState.cq_eq (h : TxState i c s₀ t s sent polled out) : (s.w.dev.cq c).base = t.cqRing ∧
    (s.w.dev.cq c).depth = t.depth ∧ (s.w.dev.cq c).entrySize = t.cqEntrySize := by
  obtain ⟨tail,phase,hiter⟩ := (s₀.w.dev.cq c).advance_iterate (sent.countP TxPacket.compReq)
  rw [h.progress.cq,hiter]
  exact ⟨h.pair.cqRing.symm,h.pair.depth.2.symm,h.pair.cqEntrySize.symm⟩

/-- The queues are created, and nothing was sent yet. -/
lemma TxState.create {log : List (Bytes × UInt8)} {depth : UInt16} {words : UInt8} {vector : UInt32}
    {cqRing sqRing : UInt64} (h : Calls q s log) (htables : TableInv s.w.dev ∧ TxIdle none s.w.dev)
    (hcq : CqArgs depth words vector cqRing) (hsq : sqRing ≠ 0 ∧ sqRing.toNat < 2^48)
    (hclear : (rings s.d).Clear cqRing (depth.toNat*(words*4).toNat))
    (hapart : Apart sqRing (depth.toNat*16) cqRing (depth.toNat*(words*4).toNat))
    (hread : s.w.mem.ringOk sqRing 16 depth.toNat) (hc : Lowest s.w.dev.book.cq c)
    (hi : Lowest s.w.dev.book.sq i)
    (hcreate : enaTxqCreate q s depth words vector false cqRing sqRing = .ok (t,s₀)) :
    TxState i c s₀ t s₀ [] [] [] := by
  obtain ⟨t₁,s₁,log',hcreate₁,-,hnew⟩ := txqCreate_new q h hcq (fun _ : false = false => hsq)
    (fun hno => absurd hno Bool.false_ne_true) hclear hc hi
  obtain ⟨rfl,rfl⟩ := Prod.mk.inj (Except.ok.inj (hcreate₁.symm.trans hcreate))
  have hsq₀ : s₁.w.dev.sq i = askedSq s.w.dev true false (UInt16.ofNat c) depth sqRing := by
    rw [hnew.sqs,Function.update_self]
  have hcq₀ : s₁.w.dev.cq c = askedCq depth words vector cqRing := by
    rw [hnew.cqs,Function.update_self]
  obtain ⟨hring,hentry,hdepth⟩ := hnew.cqRing
  obtain ⟨hsqRing,hllq,hsqDepth⟩ := hnew.sqRing
  obtain ⟨htables₀,hidle₀⟩ := hnew.tables htables
  refine ⟨htables₀,⟨by rw [hsq₀]; rfl,by rw [hsq₀]; rfl,?_,⟨by rw [hsq₀]; rfl,hllq⟩,
    by rw [hsq₀]; exact hsqRing,by rw [hcq₀]; exact hring,by rw [hcq₀]; exact hentry,
      ⟨by rw [hsq₀]; exact hsqDepth,by rw [hcq₀]; exact hdepth⟩,
    hnew.doorbell,?_⟩,hnew.tail.1,?_,hidle₀,?_,rfl,⟨[],(List.append_nil _).symm,.slnil⟩,[],[],
      hnew.start.inv,rfl,rfl⟩
  · rw [hsq₀]
    exact idx_toNat c
  · rw [hsqRing,hring,hdepth,hentry]
    exact hapart
  · refine ⟨htables₀,⟨(s₁.w.dev.sq i).txMeta,?_⟩,rfl,rfl,rfl⟩
    rw [hsq₀,hnew.tail.1]
    rfl
  · rw [hsqRing,hsqDepth]
    intro k hk
    rw [hnew.mem.okAt]
    exact hread k hk

lemma TxState.depth (h : TxState i c s₀ t s sent polled out) : t.depth.toNat.isPowerOfTwo ∧
    t.depth.toNat*16 ≤ 2^64 := by
  have hok := (h.tables.sq i h.pair.used).depth
  rw [← h.pair.depth.1] at hok
  have hmax : t.depth.toNat ≤ 1024 := hok.max
  exact ⟨hok.pow,by omega⟩

/-- Entries that plain packets take are their descriptors. -/
lemma txEntries_plain {sq : EnaSq} (hq : sq.llq = false) (hps : ∀ p ∈ ps, Plain p) :
    txEntries sq ps = (ps.flatMap packetDescs).length := by
  induction ps with
  | nil => rfl
  | cons p ps ih =>
    have hrest := ih fun p' hp' => hps p' (List.mem_cons_of_mem _ hp')
    rw [List.flatMap_cons,List.length_append,← hrest,← (hps p List.mem_cons_self).entries_eq hq]
    rfl

lemma mem_flatMap_length {e : Bytes} (h : e ∈ ps.flatMap packetDescs) : e.length = 16 := by
  obtain ⟨p,-,he⟩ := List.mem_flatMap.mp h
  exact mem_packetDescs_length he

/-- The memory with the descriptors of a burst. -/
def burstMem (t : EnaTxQueue) (m : Memory) (ps : List TxPacket) : Memory :=
  m.writeRing t.sqRing 16 t.depth.toNat t.tail.toNat (ps.flatMap packetDescs)

lemma TxState.agrees (h : TxState i c s₀ t s sent polled out) :
    s.w.mem.Agrees (InRegion t.sqRing (t.depth.toNat*16)) (burstMem t s.w.mem ps) :=
  Memory.writeRing_agrees (Counter.depth_pos h.depth.1) _ _ fun _ => mem_flatMap_length

/-- The completions are written into the CQ's ring. -/
lemma TxState.cqWrites (h : TxState i c s₀ t s sent polled out) {n k : ℕ} {x : UInt64}
    (hx : CqWrites (EnaCq.advance^[n] (s₀.w.dev.cq c)) k x) :
    InRegion t.cqRing (t.depth.toNat*t.cqEntrySize.toNat) x := by
  rw [h.pair.cqRing,h.pair.depth.2,h.pair.cqEntrySize]
  exact CqWrites.inRing (h.tables.cq c (used_cq h.tables h.pair.used h.pair.cqIdx)) hx

/-- The burst as the device finds it when the doorbell rings. -/
lemma TxState.posted (h : TxState i c s₀ t s sent polled out) (hps : Sendable t s sent ps polled) :
    TxBurst.Posted ⟨burstMem t s.w.mem ps,s.w.llq,
        (t.tail + UInt16.ofNat (ps.flatMap packetDescs).length).toUInt32.toUInt64,ps⟩
          (s₀.w.dev.sq i) i
      (EnaCq.advance^[sent.countP TxPacket.compReq] (s₀.w.dev.cq c)) t.tail := by
  obtain ⟨hd,hsize⟩ := h.depth
  have hplain : ∀ p ∈ ps, Plain p := fun p hp => (hps.packets p hp).1
  have hentries := txEntries_plain h.pair.llq.1 hplain
  have hloaded : ∀ p ∈ ps, Plain p ∧ Loaded (burstMem t s.w.mem ps)
      (CqWrites (EnaCq.advance^[sent.countP TxPacket.compReq] (s₀.w.dev.cq c))
        (ps.countP TxPacket.compReq)) p := by
    intro p hp
    obtain ⟨hpp,hl⟩ := hps.packets p hp
    exact ⟨hpp,(hl.agrees h.agrees fun x hx => .inl hx).weaken fun x hx => .inr (h.cqWrites hx)⟩
  have hfrom : PostedFrom (s₀.w.dev.sq i) i
      (CqWrites (EnaCq.advance^[sent.countP TxPacket.compReq] (s₀.w.dev.cq c))
        (ps.countP TxPacket.compReq))
      (burstMem t s.w.mem ps) s.w.llq t.tail ps := by
    apply postedFrom_of_slots _ h.pair.llq.1 hloaded
    · rw [← h.pair.sqRing,← h.pair.depth.1]
      intro j e he
      exact Memory.writeRing_slot hsize (Counter.depth_pos hd) _ _
        (fun _ => mem_flatMap_length) hps.room he
    · rw [← h.pair.sqRing,← h.pair.depth.1]
      intro k hk
      rw [h.agrees.okAt]
      exact h.readable k hk
    · rw [← h.pair.sqRing,← h.pair.depth.1]
      intro k hk x hx hw
      exact h.pair.apart x (Memory.slot_within _ hk x hx) (h.cqWrites hw)
    · rw [← h.pair.depth.1]
      exact hd
  refine ⟨hfrom,?_,?_⟩
  · rw [hentries,← h.pair.depth.1]
    exact hps.room
  · rw [hentries]
    exact toUInt16_widen _

/-- The descriptors of a burst are pushed, and the channel of the CQ stays as it is. -/
lemma TxState.feeds_push (h : TxState i c s₀ t s sent polled out) :
    Feeds c s.w { s.w with mem := burstMem t s.w.mem ps } [] := by
  obtain ⟨hbase,hdepth,hentry⟩ := h.cq_eq
  have hok := h.progress.tables.cq c (by
    obtain ⟨tail,phase,hiter⟩ := (s₀.w.dev.cq c).advance_iterate (sent.countP TxPacket.compReq)
    rw [h.progress.cq,hiter]
    exact used_cq h.tables h.pair.used h.pair.cqIdx)
  have hagree : s.w.mem.Agrees (InRegion t.sqRing (t.depth.toNat*16)) (burstMem t s.w.mem ps) :=
    h.agrees
  generalize burstMem t s.w.mem ps = m at hagree
  refine .of_same (List.append_nil _).symm hagree.readable
    (fun e he => by cases he) rfl fun k hk => ?_
  refine hagree.bytesAt fun x hx => ?_
  have hin := Memory.slot_within _ hk x hx
  dsimp only at hin
  rw [hbase,hdepth,hentry] at hin
  exact h.pair.apart.symm x hin

/-- A burst takes the device where the doorbell takes it once the descriptors are pushed. -/
lemma TxState.sendBurst_eq (h : TxState i c s₀ t s sent polled out) {w' : World}
    (hstep : step q.net { s.w with mem := burstMem t s.w.mem ps } (.regWrite (regSqDbBase + 4*i.val)
      (t.tail + UInt16.ofNat (ps.flatMap packetDescs).length).toUInt32.toUInt64) = .ok w') :
    sendBurst q s t ps = .ok
      ({ t with tail := t.tail + UInt16.ofNat (ps.flatMap packetDescs).length },
        { s with w := w' }) := by
  have hdoorbell : RingsSq
      { t with tail := t.tail + UInt16.ofNat (ps.flatMap packetDescs).length }.dbOff i :=
    h.pair.doorbell
  unfold sendBurst
  rw [enaTxqPushAll_eq h.pair.llq.2 h.depth.1]
  simp only [ok_bind]
  exact congrArg (· >>= _) (enaTxqDoorbell_eq hdoorbell hstep)

/-- The completions of a burst that fits join the ones on the channel. -/
lemma TxState.channel_sent (h : TxState i c s₀ t s sent polled out)
    (hps : Sendable t s sent ps polled) {w' : World} {es : List Event} (hfeeds : Feeds c s.w w' es)
    (htrace : TxTrace i c s₀.w.dev t.tail ps es) :
    ∃ pushed entries, Inv c ⟨w',⟨t.cqHead,t.cqPhase⟩,pushed,entries⟩ ∧
      polled = entries.map (·.take 8) ∧
      pushed.map txFields = (txCompletions (s₀.w.dev.sq i) 0 (sent ++ ps)).map fun r =>
        (r.1,UInt16.ofNat i,r.2) := by
  obtain ⟨pushed,entries,hinv,hpolled,hfields⟩ := h.channel
  have hlength : pushed.length = sent.countP TxPacket.compReq := by
    rw [← txCompletions_length (s₀.w.dev.sq i) 0,← List.length_map (f := txFields),hfields,
      List.length_map]
  have hadded := TxTrace.entries htrace
  have haddedLength := congrArg List.length hadded
  rw [List.length_map,List.length_map,txCompletions_length] at haddedLength
  have hfit := hps.fits
  rw [List.countP_append,hpolled,List.length_map] at hfit
  have hinv' := hfeeds.inv _ _ _ hinv (by
    rw [List.length_append,hlength,haddedLength,h.cq_eq.2.1]
    exact hfit)
  refine ⟨_,entries,hinv',hpolled,?_⟩
  rw [List.map_append,hfields,hadded,txCompletions_append,List.map_append,UInt16.zero_add,h.tail]

/-- A burst is sent: the pushes and the doorbell succeed, the frames go out and the completions are
pushed. -/
lemma TxState.send (q : Qtest) (h : TxState i c s₀ t s sent polled out)
    (hps : Sendable t s sent ps polled) :
    ∃ t' s', sendBurst q s t ps = .ok (t',s') ∧
      TxState i c s₀ t' s' (sent ++ ps) polled (out ++ s'.w.trace.drop s.w.trace.length) := by
  have hplain : ∀ p ∈ ps, Plain p := fun p hp => (hps.packets p hp).1
  have hentries := txEntries_plain h.pair.llq.1 hplain
  have hpushed := h.progress.overwritten (burstMem t s.w.mem ps) s.w.llq
  obtain ⟨w',es,hstep,hprogress,htrace,hes⟩ := hpushed.doorbell q.net h.tables h.pair.used
    h.pair.isTx h.pair.cqIdx rfl rfl (h.posted hps)
  dsimp only at hprogress
  rw [hentries] at hprogress
  have htail : t.tail + UInt16.ofNat (ps.flatMap packetDescs).length =
      UInt16.ofNat (txEntries (s₀.w.dev.sq i) (sent ++ ps)) := by
    rw [txEntries_append,hentries,h.tail,UInt16.ofNat_add]
  -- the completions are pushed on the channel
  obtain ⟨m,hsq⟩ := hpushed.sq
  obtain ⟨fs,hfed⟩ := feeds_of_doorbell hpushed.tables (by rw [hsq]; exact h.pair.used)
    (by rw [hsq]; exact h.pair.isTx) (by rw [hsq]; exact h.pair.cqIdx) hstep
  obtain rfl : fs = es := List.append_cancel_left (hfed.trace.symm.trans htrace)
  have hfeeds := h.feeds_push.trans hfed
  rw [List.nil_append] at hfeeds
  have hprogress' : TxProgress i c s₀.w.dev
      (t.tail + UInt16.ofNat (ps.flatMap packetDescs).length)
      (t.tail + UInt16.ofNat (ps.flatMap packetDescs).length)
      ((sent ++ ps).countP TxPacket.compReq) w' := by
    rw [List.countP_append]
    exact hprogress
  have hidle : TxIdle none w'.dev :=
    (step_tables (w := { s.w with mem := burstMem t s.w.mem ps }) ⟨hpushed.tables,h.idle⟩ hstep).2
  have hdrop : w'.trace.drop s.w.trace.length = fs := by
    rw [htrace]
    exact List.drop_left
  have hframes : (out ++ w'.trace.drop s.w.trace.length).filter Event.toBackend =
      (((sent ++ ps).map TxPacket.frame).filter (TxAccepts s₀.w.dev ·)).map Event.sendPacket := by
    rw [hdrop,List.filter_append,h.frames,hes.frames,List.map_append,List.filter_append,
      List.map_append]
  obtain ⟨es₀,htrace₀,hamong⟩ := h.among
  have hamong' : ∃ es, w'.trace = s₀.w.trace ++ es ∧
      (out ++ w'.trace.drop s.w.trace.length).Sublist es := by
    refine ⟨es₀ ++ fs,by rw [htrace,htrace₀,List.append_assoc],?_⟩
    rw [hdrop]
    exact hamong.append (.refl fs)
  refine ⟨_,_,h.sendBurst_eq hstep,h.tables,h.pair.withTail _,htail,hprogress',hidle,?_,hframes,
    hamong',h.channel_sent hps hfeeds hes⟩
  intro k hk
  have hreadable := h.readable k hk
  rw [Memory.okAt,← hfeeds.readable] at hreadable
  exact hreadable

lemma txFields_take (e : Bytes) : txFields (e.take 8) = txFields e := by
  rw [txFields,le16At_take (by decide),le16At_take (by decide),le16At_take (by decide)]
  rfl

/-- What the driver makes of a poll of the ring. -/
def EnaTxQueue.polledBy (t : EnaTxQueue) : Option (Bytes × RingDriver) → Option Bytes × EnaTxQueue
  | none => (none,t)
  | some (entry,d) => (some (entry.take 8),{ t with cqHead := d.head, cqPhase := d.phase })

/-- The driver's poll is a poll of the device's CQ. -/
lemma TxState.poll_eq (h : TxState i c s₀ t s sent polled out) :
    enaTxqPollCdesc s t = t.polledBy (cqPoll s.w.mem (s.w.dev.cq c) ⟨t.cqHead,t.cqPhase⟩) := by
  obtain ⟨hbase,hdepth,hentry⟩ := h.cq_eq
  have hbyte : ∀ e : Bytes, (u8At (e.take 8) 3 &&& 1 != 0) = phaseBit e := by
    intro e
    rw [phaseBit,u8At_take (by decide)]
  unfold enaTxqPollCdesc cqPoll
  rw [hbase,hdepth,hentry]
  simp only [hbyte, qtestMemread]
  split_ifs <;> first | rfl | contradiction

/-- A completion is taken off the ring. -/
lemma TxState.poll (h : TxState i c s₀ t s sent polled out) {cdesc : Bytes}
    (hp : enaTxqPollCdesc s t = (some cdesc,t')) :
    TxState i c s₀ t' s sent (polled ++ [cdesc]) out := by
  obtain ⟨pushed,entries,hinv,hpolled,hfields⟩ := h.channel
  rw [h.poll_eq] at hp
  cases hr : cqPoll s.w.mem (s.w.dev.cq c) ⟨t.cqHead,t.cqPhase⟩ with
  | none =>
    rw [hr] at hp
    cases hp
  | some r =>
    obtain ⟨entry,d⟩ := r
    rw [hr] at hp
    obtain ⟨hcdesc,rfl⟩ := Prod.mk.inj hp
    obtain rfl := Option.some.inj hcdesc
    refine ⟨h.tables,h.pair.withHead _ _,h.tail,h.progress,h.idle,h.readable,h.frames,h.among,
      pushed,entries ++ [entry],hinv.poll hr,?_,hfields⟩
    rw [List.map_append,hpolled]
    rfl

/-- A pair that a step spares goes on as before, if the MTU is kept. -/
lemma TxState.spared (h : TxState i c s₀ t s sent polled out)
    (hs : Spared i c (RingBytes t) s.w s'.w) (hmtu : s'.w.dev.mtu = s.w.dev.mtu) :
    TxState i c s₀ t s' sent polled out := by
  obtain ⟨pushed,entries,hinv,hpolled,hfields⟩ := h.channel
  obtain ⟨es₀,htrace₀,hamong⟩ := h.among
  obtain ⟨es,htrace⟩ := hs.trace
  obtain ⟨m,hsq⟩ := h.progress.sq
  obtain ⟨hbase,hdepth,hentry⟩ := h.cq_eq
  have hroom := hinv.room
  have hring : ∀ k < (s.w.dev.cq c).depth.toNat, ring c s'.w k = ring c s.w k := by
    intro k hk
    rw [ring,ring,hs.cq]
    refine hs.mem.bytesAt fun x hx hno => hno (.inr ?_)
    have hin := Memory.slot_within _ hk x hx
    rw [hbase,hdepth,hentry] at hin
    exact hin
  refine ⟨h.tables,h.pair,h.tail,⟨hs.tables.1,⟨m,hs.sq.trans hsq⟩,hs.cq.trans h.progress.cq,
    hmtu.trans h.progress.mtu,hs.macaddr.trans h.progress.macaddr⟩,hs.tables.2,?_,h.frames,
    ⟨es₀ ++ es,?_,?_⟩,pushed,entries,?_,hpolled,hfields⟩
  · intro k hk
    rw [hs.mem.okAt]
    exact h.readable k hk
  · rw [htrace,htrace₀,List.append_assoc]
  · exact hamong.trans (List.sublist_append_left _ _)
  · refine Step.inv (.other hs.cq hring) hinv ?_
    dsimp only at hroom ⊢
    rw [hs.cq]
    exact hroom

/-- A step of the device beside the pair spares it. -/
lemma TxState.other {inp : Input} (h : TxState i c s₀ t s sent polled out)
    (hb : Beside q.net i c (RingBytes t) s.w inp s'.w)
    (hmtu : ∀ cmd, (cmd,AdminStatus.success.code) ∈ newExecs s.w s'.w → ¬ IsSet .mtu cmd) :
    TxState i c s₀ t s' sent polled out := by
  obtain ⟨m,hsq⟩ := h.progress.sq
  have hu : (s.w.dev.sq i).used = true := by rw [hsq]; exact h.pair.used
  have hc : (s.w.dev.sq i).cqIdx.toNat = c.val := by rw [hsq]; exact h.pair.cqIdx
  exact h.spared (hb.spared ⟨h.progress.tables,h.idle⟩ hu hc) (hb.mtu h.progress.tables hmtu)

/-- Every run of the driver is in step with its device. -/
lemma TxRun.state (h : TxRun q i c s₀ t s sent polled out) :
    TxState i c s₀ t s sent polled out := by
  induction h with
  | create h htables hcq hsq hclear hapart hread hc hi hcreate =>
    exact .create h htables hcq hsq hclear hapart hread hc hi hcreate
  | send _ hps hs ih =>
    obtain ⟨t',s',hsend,hstate⟩ := ih.send q hps
    obtain ⟨rfl,rfl⟩ := Prod.mk.inj (Except.ok.inj (hs.symm.trans hsend))
    exact hstate
  | poll _ hp ih => exact ih.poll hp
  | other _ hb hmtu ih => exact ih.other hb hmtu

/-- What a poll finds is the next completion that the packets asked for. -/
lemma TxState.poll_next (h : TxState i c s₀ t s sent polled out) :
    (enaTxqPollCdesc s t).1.map txFields =
    (txCompletions (s₀.w.dev.sq i) 0 sent)[polled.length]?.map fun r =>
      (r.1,UInt16.ofNat i,r.2) := by
  obtain ⟨pushed,entries,hinv,hpolled,hfields⟩ := h.channel
  obtain ⟨hnone,hsome⟩ := hinv.poll_iff
  dsimp only at hnone hsome
  rw [← List.getElem?_map,← hfields,List.getElem?_map,hpolled,List.length_map,h.poll_eq]
  cases hr : cqPoll s.w.mem (s.w.dev.cq c) ⟨t.cqHead,t.cqPhase⟩ with
  | none =>
    rw [List.getElem?_eq_none (hnone.mp hr).le]
    rfl
  | some r =>
    obtain ⟨entry,d⟩ := r
    rw [(hsome entry d hr).1]
    exact congrArg some (txFields_take entry)

/-- From the creation of a TX queue pair with its ring in host memory on, whatever plain packets the
driver sends and polls, and whatever other steps the device takes beside the pair: the driver's
bursts made the device hand the frames of the packets that pass to the backend, in order, and
nothing else; the completions that the driver has polled are the first of those that the packets
asked for, in order; a poll finds the next one, and fails just if there is none; and a burst that
there is room for is sent. -/
theorem tx_end_to_end (h : TxRun q i c s₀ t s sent polled out) :
    out.filter Event.toBackend =
      ((sent.map TxPacket.frame).filter (TxAccepts s₀.w.dev ·)).map Event.sendPacket ∧
    (∃ es, s.w.trace = s₀.w.trace ++ es ∧ out.Sublist es) ∧
    polled.map txFields = ((txCompletions (s₀.w.dev.sq i) 0 sent).take polled.length).map
      (fun r => (r.1,UInt16.ofNat i,r.2)) ∧
    (enaTxqPollCdesc s t).1.map txFields =
      (txCompletions (s₀.w.dev.sq i) 0 sent)[polled.length]?.map
      (fun r => (r.1,UInt16.ofNat i,r.2)) ∧
    ∀ ps, Sendable t s sent ps polled → ∃ t' s', sendBurst q s t ps = .ok (t',s') := by
  have hstate := h.state
  refine ⟨hstate.frames,hstate.among,?_,hstate.poll_next,fun ps hps => ?_⟩
  · obtain ⟨pushed,entries,hinv,hpolled,hfields⟩ := hstate.channel
    obtain ⟨unread,hunread⟩ := hinv.fifo
    dsimp only at hunread
    rw [List.map_take,← hfields,hunread,hpolled,List.length_map,List.map_append,
      List.take_left' (List.length_map _),List.map_map]
    exact List.map_congr_left fun e _ => txFields_take e
  · obtain ⟨t',s',hsend,-⟩ := hstate.send q hps
    exact ⟨t',s',hsend⟩

/-- `send_single` is a burst of one packet in one buffer. -/
theorem TxRun.single (h : TxRun q i c s₀ t s sent polled out) {b : TxBuf} {reqId : UInt16}
    (hps : Sendable t s sent [⟨false,reqId,true,[],[b]⟩] polled) :
    ∃ t' s', sendSingle q s t b.addr b.data.length reqId = .ok (t',s') ∧
      TxRun q i c s₀ t' s' (sent ++ [⟨false,reqId,true,[],[b]⟩]) polled
        (out ++ s'.w.trace.drop s.w.trace.length) := by
  obtain ⟨t',s',hsend,-⟩ := h.state.send q hps
  exact ⟨t',s',(sendSingle_eq q s t b reqId).trans hsend,h.send hps hsend⟩

end State

/-- A frame that a device with the address `02:02:02:02:02:02` sends, and one from elsewhere. -/
def ownFrame : Bytes := List.replicate 6 0xff ++ List.replicate 54 2

def strayFrame : Bytes := List.replicate 60 0xff

/-- The first is in two pieces. -/
def ownPacket : TxPacket :=
  ⟨false,7,true,[],[⟨0x8000,ownFrame.take 14⟩,⟨0x800e,ownFrame.drop 14⟩]⟩

def strayPacket : TxPacket := ⟨false,8,true,[],[⟨0x9000,strayFrame⟩]⟩

/-- The frames in memory, and the first packet also in the ring of another pair. -/
def withPackets (m : Memory) : Memory :=
  ((m.write 0x8000 ownFrame).write 0x9000 strayFrame).write 0x5000 (packetDescs ownPacket).flatten

/-- The device wrote to no byte from there on. -/
def Event.writesBelow (bound : ℕ) : Event → Bool
  | .dmaWrite _ _ addr data => addr.toNat + data.length ≤ bound
  | _ => true

section First
variable {t : EnaTxQueue}

lemma ringBytes_secondPair (hsq : t.sqRing = 0x7000) (hcq : t.cqRing = 0x6000) (hd : t.depth = 16)
    (he : t.cqEntrySize = 8) {x : UInt64} (hx : RingBytes t x) : InRegion 0x6000 0x2000 x := by
  unfold RingBytes at hx
  rw [hsq,hcq,hd,he] at hx
  rcases hx with hx | hx
  · exact within_add 0x6000 0x1000 (by decide) x hx
  · exact within_of_le _ (by decide) x hx

lemma withPackets_agrees {own : UInt64 → Prop} (m : Memory)
    (hown : ∀ x, own x → InRegion 0x6000 0x2000 x) : m.Agrees (fun x => ¬ own x)
    (withPackets m) := by
  have hclear : ∀ {a : UInt64} {n : ℕ}, Apart a n 0x6000 0x2000 → ∀ x, InRegion a n x → ¬ own x :=
    fun hapart x hx hno => hapart x hx (hown x hno)
  have hfirst := Memory.Agrees.write (m := m)
    (hclear (a := 0x8000) (n := ownFrame.length) (apart_of_le (by decide) (by decide)).symm)
  have hsecond := Memory.Agrees.write (m := m.write 0x8000 ownFrame)
    (hclear (a := 0x9000) (n := strayFrame.length) (apart_of_le (by decide) (by decide)).symm)
  exact (hfirst.trans hsecond).trans (.write (hclear (apart_of_le (by decide) (by decide))))

lemma ownPacket_plain : Plain ownPacket := by
  refine ⟨rfl,rfl,List.cons_ne_nil _ _,by decide,fun b hb => ?_⟩
  rcases List.mem_cons.mp hb with rfl | hb
  · exact ⟨by decide,by decide⟩
  · rw [List.mem_singleton.mp hb]
    exact ⟨by decide,by decide⟩

lemma strayPacket_plain : Plain strayPacket := by
  refine ⟨rfl,rfl,List.cons_ne_nil _ _,by decide,fun b hb => ?_⟩
  rw [List.mem_singleton.mp hb]
  exact ⟨by decide,by decide⟩

/-- Packets above the rings are loaded where the memory has them. -/
lemma loaded_above {m : Memory} {p : TxPacket} (hread : m.readable = freshWorld.mem.readable)
    {own : UInt64 → Prop} (hown : ∀ x, own x → InRegion 0x6000 0x2000 x)
    (hbufs : ∀ b ∈ p.bufs, 0x8000 ≤ b.addr.toNat ∧ b.addr.toNat + b.data.length ≤ 2^64)
    (hdata : p.bufs.all fun b => decide (m.bytesAt b.addr b.data.length = b.data)) :
    Loaded m own p := by
  refine ⟨fun b hb => of_decide_eq_true (List.all_eq_true.mp hdata b hb),fun b hb => ?_,
    fun b hb x hx hno => ?_⟩
  · rw [Memory.okAt,hread]
    refine List.all_eq_true.mpr fun y hy => ?_
    obtain ⟨j,rfl⟩ := List.mem_ofFn.mp hy
    rfl
  · obtain ⟨hle,hend⟩ := hbufs b hb
    exact apart_of_le hle hend x (hown x hno) hx

/-- The doorbell of the first pair is beside the second, if it writes below its rings. -/
lemma beside_firstPair {net : Net} {w w' : World} {val : UInt64} {own : UInt64 → Prop}
    (hown : ∀ x, own x → InRegion 0x6000 0x2000 x) (hcq : (w.dev.sq 0).cqIdx = 0)
    (hstep : step net w (.regWrite (regSqDbBase + 4*(0 : SqIdx).val) val) = .ok w')
    (hexecs : newExecs w w' = [])
    (hbelow : (w'.trace.drop w.trace.length).all (Event.writesBelow 0x6000) = true) :
    Beside net 1 1 own w (.regWrite (regSqDbBase + 4*(0 : SqIdx).val) val) w' := by
  refine ⟨hstep,fun hr => absurd hr.1 (by decide),fun j hj => ?_,fun _ _ _ he => (by cases he),
    fun cmd hmem => ?_,fun _ _ he => (by cases he),fun e he x hx hno => ?_⟩
  · rw [doorbell_regWrite] at hj
    obtain rfl := Option.some.inj hj
    rw [hcq]
    exact ⟨by decide,fun _ => by decide⟩
  · rw [hexecs] at hmem
    exact absurd hmem List.not_mem_nil
  · have hle := List.all_eq_true.mp hbelow e he
    cases e with
    | dmaWrite site dev addr data =>
      have hend : addr.toNat + data.length ≤ (0x6000 : UInt64).toNat := of_decide_eq_true hle
      exact apart_of_le hend (by decide) x hx (hown x hno)
    | _ => exact hx

/-- The first pair sends beside the burst of the second, and a completion can be polled. -/
def firstSends (r : EnaTxQueue × Session) : Bool :=
  decide ((r.2.w.dev.sq 0).cqIdx = 0) && okAnd (fun w => decide (newExecs r.2.w w = []) &&
      (w.trace.drop r.2.w.trace.length).all (Event.writesBelow 0x6000) &&
      decide ((w.trace.filter Event.toBackend).length = 2) &&
      (enaTxqPollCdesc { r.2 with w := w } r.1).1.isSome)
    (step Net.nonIp r.2.w (.regWrite (regSqDbBase + 4*(0 : SqIdx).val) 2))

/-- The second pair sends: one of the packets passes, and both ask for completions. -/
def secondSends (r : EnaTxQueue × Session) : Bool :=
  let w := { r.2.w with mem := withPackets r.2.w.mem }
  ((ownPacket.bufs ++ strayPacket.bufs).all fun b =>
    decide (w.mem.bytesAt b.addr b.data.length = b.data)) &&
  decide (([ownPacket,strayPacket].map TxPacket.frame).filter (TxAccepts w.dev ·) = [ownFrame] ∧
    txCompletions (w.dev.sq 1) 0 [ownPacket,strayPacket] = [(7,2),(8,3)]) &&
  okAnd firstSends (sendBurst plainQtest { r.2 with w := w } r.1 [ownPacket,strayPacket])

/-- The second of two pairs as it was created, in the slots 1, and what it is going to send. -/
structure SecondPair (t : EnaTxQueue) (s : Session) : Prop where
  run : TxRun plainQtest 1 1 s t s [] [] []
  sqRing : t.sqRing = 0x7000
  cqRing : t.cqRing = 0x6000
  depth : t.depth = 16
  cqEntrySize : t.cqEntrySize = 8
  readable : s.w.mem.readable = freshWorld.mem.readable
  sends : secondSends (t,s) = true

lemma exists_secondPair : ∃ t s, SecondPair t s := by
  obtain ⟨s,hbring,hcalls,haq,hacq,hcqs,hsqs,htables,hread⟩ := exists_freshCalls
  have hc : Lowest s.w.dev.book.cq 0 := lowest_zero hcqs
  have hi : Lowest s.w.dev.book.sq 0 := lowest_zero fun i => (booked_sq _ i).mpr (hsqs i)
  have hargs : CqArgs 16 2 1 0x4000 := ⟨by decide,.inl rfl,.inr (by decide),by decide,by decide⟩
  have hargs' : CqArgs 16 2 2 0x6000 := ⟨by decide,.inl rfl,.inr (by decide),by decide,by decide⟩
  obtain ⟨t,s₁,log,hcreate,hcalls₁,hnew⟩ := txqCreate_new plainQtest hcalls hargs
    (fun _ : false = false => (by decide : (0x5000 : UInt64) ≠ 0 ∧ (0x5000 : UInt64).toNat < 2^48))
    (fun hno => absurd hno Bool.false_ne_true)
    (rings_clear haq hacq (by decide) (by decide)) hc hi
  -- both creations are evaluated
  obtain ⟨r,hfirst,htest⟩ := exists_of_okAnd
    (p := fun r : EnaTxQueue × Session => decide (r.2.d.aq = 0x1000 ∧ r.2.d.acq = 0x2000) &&
      okAnd secondSends (enaTxqCreate plainQtest r.2 16 2 2 false 0x6000 0x7000))
    (x := firstBringup >>= fun s => enaTxqCreate plainQtest s 16 2 1 false 0x4000 0x5000)
    (by decide +kernel)
  rw [hbring,ok_bind,hcreate] at hfirst
  obtain rfl := Except.ok.inj hfirst
  rw [Bool.and_eq_true,decide_eq_true_eq] at htest
  obtain ⟨⟨haq₁,hacq₁⟩,htest⟩ := htest
  have hclear : (rings s₁.d).Clear 0x6000 ((16 : UInt16).toNat*((2 : UInt8)*4).toNat) :=
    rings_clear haq₁ hacq₁ (by decide) (by decide)
  obtain ⟨hc₁,hi₁⟩ := hnew.lowest_one rfl rfl (hcqs 1) (hsqs 1)
  have hread₁ : s₁.w.mem.readable = freshWorld.mem.readable := hnew.mem.readable.trans hread
  have hhost : (0x7000 : UInt64) ≠ 0 ∧ (0x7000 : UInt64).toNat < 2^48 := by decide
  have hapart : Apart 0x7000 ((16 : UInt16).toNat*16) 0x6000
      ((16 : UInt16).toNat*((2 : UInt8)*4).toNat) :=
    (apart_of_le (by decide) (by decide)).symm
  obtain ⟨t',s₀,log',hcreate',-,hnew'⟩ := txqCreate_new plainQtest hcalls₁ hargs'
    (fun _ : false = false => hhost) (fun hno => absurd hno Bool.false_ne_true) hclear hc₁ hi₁
  have hrun := TxRun.create hcalls₁ (hnew.tables htables) hargs' hhost hclear hapart
    (ringOk_fresh hread₁ _ _ _) hc₁ hi₁ hcreate'
  rw [hcreate'] at htest
  exact ⟨t',s₀,hrun,hnew'.sqRing.1,hnew'.cqRing.1,hnew'.cqRing.2.2,hnew'.cqRing.2.1,
    hnew'.mem.readable.trans hread₁,htest⟩

/-- With the packets in memory they can be sent. -/
lemma SecondPair.sendable {t : EnaTxQueue} {s : Session} (h : SecondPair t s) :
    Sendable t { s with w := { s.w with mem := withPackets s.w.mem } } []
      [ownPacket,strayPacket] [] := by
  have hbufs := h.sends
  unfold secondSends at hbufs
  simp only [Bool.and_eq_true,List.all_append] at hbufs
  obtain ⟨⟨⟨hown,hstray⟩,-⟩,-⟩ := hbufs
  have hrings : ∀ x, RingBytes t x → InRegion 0x6000 0x2000 x := fun x =>
    ringBytes_secondPair h.sqRing h.cqRing h.depth h.cqEntrySize
  have hread : (withPackets s.w.mem).readable = freshWorld.mem.readable := h.readable
  refine ⟨List.forall_mem_cons.mpr ⟨⟨ownPacket_plain,?_⟩,List.forall_mem_singleton.mpr
    ⟨strayPacket_plain,?_⟩⟩,?_,?_⟩
  · exact loaded_above hread hrings (List.forall_mem_cons.mpr ⟨by decide,
      List.forall_mem_singleton.mpr (by decide)⟩) hown
  · exact loaded_above hread hrings (List.forall_mem_singleton.mpr (by decide)) hstray
  · rw [h.depth]
    decide
  · rw [h.depth]
    decide

/-- The rings of the second pair stay where they were created. -/
lemma SecondPair.ringBytes {t t' : EnaTxQueue} {s s' : Session} {sent : List TxPacket}
    {polled : List Bytes} {out : List Event} (h : SecondPair t s)
    (hrun : TxRun plainQtest 1 1 s t' s' sent polled out) {x : UInt64} (hx : RingBytes t' x) :
    InRegion 0x6000 0x2000 x := by
  have hpair := h.run.state.pair
  have hpair' := hrun.state.pair
  exact ringBytes_secondPair (hpair'.sqRing.trans (hpair.sqRing.symm.trans h.sqRing))
    (hpair'.cqRing.trans (hpair.cqRing.symm.trans h.cqRing))
    (hpair'.depth.1.trans (hpair.depth.1.symm.trans h.depth))
    (hpair'.cqEntrySize.trans (hpair.cqEntrySize.symm.trans h.cqEntrySize)) hx

/-- Two pairs, each with a burst to send. The driver of the second sends a packet in two pieces and
one that the device filters, the first pair sends in between, and the driver polls a completion. -/
theorem tx_end_to_end_two : ∃ s₀ t s cdesc out,
    TxRun plainQtest 1 1 s₀ t s [ownPacket,strayPacket] [cdesc] out ∧
    (s.w.trace.filter Event.toBackend).length = 2 ∧
    out.filter Event.toBackend = [.sendPacket ownFrame] ∧
    txFields cdesc = (7,UInt16.ofNat (1 : SqIdx),2) ∧
    (enaTxqPollCdesc s t).1.map txFields = some (8,UInt16.ofNat (1 : SqIdx),3) := by
  obtain ⟨t,s₀,hsecond⟩ := exists_secondPair
  have htest := hsecond.sends
  unfold secondSends at htest
  simp only [Bool.and_eq_true,decide_eq_true_eq] at htest
  obtain ⟨⟨-,hpasses,hcompletions⟩,htest⟩ := htest
  -- the packets are put in memory and sent
  have hguest : Beside plainQtest.net 1 1 (RingBytes t) s₀.w
      (.guest (withPackets s₀.w.mem) s₀.w.llq) { s₀.w with mem := withPackets s₀.w.mem } :=
    .guestWrites _ _ _ (withPackets_agrees _ fun _ => hsecond.ringBytes hsecond.run)
  have hloaded : TxRun plainQtest 1 1 s₀ t
      { s₀ with w := { s₀.w with mem := withPackets s₀.w.mem } } [] [] [] :=
    hsecond.run.other hguest fun cmd hmem =>
      absurd hmem (by rw [newExecs,List.drop_length]; exact List.not_mem_nil)
  obtain ⟨⟨t₁,s₁⟩,hsend,htest⟩ := exists_of_okAnd htest
  have hsent := hloaded.send hsecond.sendable hsend
  -- the first pair sends
  unfold firstSends at htest
  rw [Bool.and_eq_true,decide_eq_true_eq] at htest
  obtain ⟨hbound,htest⟩ := htest
  obtain ⟨w₂,hstep,htest⟩ := exists_of_okAnd htest
  simp only [Bool.and_eq_true,decide_eq_true_eq] at htest
  obtain ⟨⟨⟨hexecs,hbelow⟩,hcount⟩,hsome⟩ := htest
  have hbeside := beside_firstPair (fun _ => hsecond.ringBytes hsent) hbound hstep hexecs hbelow
  have hother : TxRun plainQtest 1 1 s₀ t₁ { s₁ with w := w₂ } _ _ _ :=
    hsent.other hbeside fun cmd hmem => absurd hmem (by rw [hexecs]; exact List.not_mem_nil)
  -- a completion is polled
  obtain ⟨cdesc,hcdesc⟩ := Option.isSome_iff_exists.mp hsome
  obtain ⟨t₂,hpoll⟩ : ∃ t₂, enaTxqPollCdesc { s₁ with w := w₂ } t₁ = (some cdesc,t₂) :=
    ⟨_,Prod.ext hcdesc rfl⟩
  have hpolled := hother.poll hpoll
  obtain ⟨hframes,-,hfields,hnext,-⟩ := tx_end_to_end hpolled
  refine ⟨_,_,_,cdesc,_,hpolled,hcount,hframes.trans ?_,?_,hnext.trans ?_⟩
  · exact congrArg (List.map Event.sendPacket) hpasses
  · have hone : [txFields cdesc] = _ := hfields
    rw [List.nil_append,List.nil_append,hcompletions] at hone
    exact List.singleton_inj.mp hone
  · rw [List.nil_append,hcompletions]
    rfl

end First
end EnaDevice.Driver
