import EnaDevice.Lib.PhaseRing
import EnaDevice.Rx.Delivery

/-! IO completion queues as FIFO channels. The device pushes TX and RX completions, a driver polls
by phase bit, and the two share nothing but the ring. -/
namespace EnaDevice
open Bytes Result PhaseRing

/-- A poll as `rx_cq_next` and `ena_txq_poll_cdesc` do it: the entry at the head, if it is new. -/
def cqPoll (m : Memory) (q : EnaCq) (d : RingDriver) : Option (Bytes × RingDriver) :=
  let entry := m.bytesAt (q.base + (d.head &&& (q.depth - 1)).toUInt64*q.entrySize.toUInt64)
    q.entrySize.toNat
  if phaseBit entry = d.phase then
    some (entry,⟨d.head + 1,if (d.head + 1) &&& (q.depth - 1) = 0 then !d.phase else d.phase⟩)
  else none

/-- A device and a driver at a CQ, with the completions pushed and polled so far. -/
structure CqChannel where
  w : World
  driver : RingDriver
  pushed : List Bytes
  polled : List Bytes

namespace CqChannel

/-- The ring of the CQ, slot by slot. -/
def ring (c : CqIdx) (w : World) (k : ℕ) : Bytes :=
  w.mem.slot (w.dev.cq c).base (w.dev.cq c).entrySize.toNat k

/-- A completion as it goes into the ring. -/
def entry (c : CqIdx) (w : World) (cdesc : Bytes) : Bytes := cdesc.take (w.dev.cq c).entrySize.toNat

/-- The device is at the CQ right after its creation, over a ring with clear phase bits. -/
structure Start (c : CqIdx) (s : CqChannel) : Prop where
  cq : (s.w.dev.cq c).Fresh
  clear : ∀ k < (s.w.dev.cq c).depth.toNat, phaseBit (ring c s.w k) = false
  driver : s.driver = ⟨0,true⟩
  pushed : s.pushed = []
  polled : s.polled = []

/-- A push, a successful poll, or anything else that leaves the CQ and its ring alone. -/
inductive Step (c : CqIdx) (s : CqChannel) : CqChannel → Prop
  | txComplete {i : SqIdx} {reqId : UInt16} {w' : World}
    (hc : (s.w.dev.sq i).cqIdx.toNat = c.val) (h : enaTxComplete s.w i reqId = .ok w') :
    Step c s { s with w := w', pushed := s.pushed ++ [entry c s.w
      (txCdesc (s.w.dev.cq c).phase reqId (UInt16.ofNat i) (s.w.dev.sq i).head)] }
  | rxPush {net : Net} {frame : Bytes} {first last : Bool} {length reqId subQid : UInt16}
    {status hash : UInt32} {addr : UInt64} {w' : World}
    (hstatus : status = enaRxStatus net frame ||| (if first then rxCdescFirst else 0) |||
      (if last then rxCdescLast else 0))
    (h : enaRxPushCdesc s.w c status length reqId hash subQid addr = .ok w') :
    Step c s { s with w := w', pushed := s.pushed ++ [entry c s.w
      (rxCdesc (s.w.dev.cq c).phase status length reqId hash subQid addr)] }
  | poll {entry : Bytes} {d : RingDriver}
    (h : cqPoll s.w.mem (s.w.dev.cq c) s.driver = some (entry,d)) :
    Step c s { s with driver := d, polled := s.polled ++ [entry] }
  | other {w' : World} (hcq : w'.dev.cq c = s.w.dev.cq c)
    (hring : ∀ k < (s.w.dev.cq c).depth.toNat, ring c w' k = ring c s.w k) :
    Step c s { s with w := w' }

/-- The states of runs in which the unread completions always fit the ring. -/
inductive Run (c : CqIdx) : CqChannel → Prop
  | start {s : CqChannel} (h : Start c s) : Run c s
  | step {s s' : CqChannel} (h : Run c s) (hs : Step c s s')
    (hroom : s'.pushed.length ≤ s'.polled.length + (s'.w.dev.cq c).depth.toNat) : Run c s'

/-- The ring holds the last lap of pushed completions, and both sides know where they are in it. -/
structure Inv (c : CqIdx) (s : CqChannel) : Prop where
  used : (s.w.dev.cq c).used = true
  ok : (s.w.dev.cq c).Ok
  contents : Contents (s.w.dev.cq c).depth.toNat phaseBit (ring c s.w) s.pushed
  tail : At (s.w.dev.cq c).depth.toNat (s.w.dev.cq c).tail (s.w.dev.cq c).phase s.pushed.length
  head : At (s.w.dev.cq c).depth.toNat s.driver.head s.driver.phase s.polled.length
  fifo : ∃ unread, s.pushed = s.polled ++ unread
  room : s.pushed.length ≤ s.polled.length + (s.w.dev.cq c).depth.toNat

end CqChannel

section Ring
variable {q : EnaCq}

/-- Both sides compute the address of a slot. -/
lemma EnaCq.Ok.slot_eq (h : q.Ok) {idx : UInt16} {phase : Bool} {n : ℕ}
    (hidx : At q.depth.toNat idx phase n) :
    (idx &&& (q.depth - 1)).toUInt64*q.entrySize.toUInt64 =
      UInt64.ofNat (n % q.depth.toNat*q.entrySize.toNat) := by
  rw [← UInt64.ofNat_toNat (x := _ * _),h.slot_toNat,hidx.slot h.depth.pow]

lemma EnaCq.Ok.ring_size (h : q.Ok) : q.depth.toNat*q.entrySize.toNat ≤ 2^64 := by
  calc q.depth.toNat*q.entrySize.toNat ≤ 1024*32 := Nat.mul_le_mul h.depth.max h.entrySize_le
    _ ≤ 2^64 := by norm_num

/-- Index and phase move on together on both sides. -/
lemma EnaCq.Ok.at_succ (h : q.Ok) {idx : UInt16} {phase : Bool} {n : ℕ}
    (hidx : At q.depth.toNat idx phase n) :
    At q.depth.toNat (idx+1) (if (idx+1) &&& (q.depth - 1) = 0 then !phase else phase) (n+1) := by
  have hnext := hidx.succ h.depth.pow
  simp only [Counter.mask_eq_zero_iff h.depth.pow]
  exact hnext

end Ring

lemma txCdesc_length (phase : Bool) (reqId subQid sqHeadIdx : UInt16) :
    (txCdesc phase reqId subQid sqHeadIdx).length = 32 := pad_length _ _ (by simp)

lemma rxCdesc_length (phase : Bool) (status : UInt32) (length reqId : UInt16) (hash : UInt32)
    (subQid : UInt16) (addr : UInt64) :
    (rxCdesc phase status length reqId hash subQid addr).length = 32 := pad_length _ _ (by simp)

lemma txCdesc_phase (phase : Bool) (reqId subQid sqHeadIdx : UInt16) :
    phaseBit (txCdesc phase reqId subQid sqHeadIdx) = phase := by
  have hbyte : u8At (txCdesc phase reqId subQid sqHeadIdx) 3 = if phase then 1 else 0 := rfl
  rw [phaseBit,hbyte]
  cases phase <;> rfl

lemma u8At_ofLe32 (x : UInt32) (b : Bytes) :
    u8At (ofLe32 x ++ b) 3 = UInt8.ofNat (x.toNat/65536/256) := by
  have hx := x.toNat_lt
  change UInt8.ofNat ((UInt16.ofNat (x.toNat/65536)).toNat/256) = _
  rw [UInt16.toNat_ofNat',Nat.mod_eq_of_lt (by omega)]

lemma rxCdesc_phase {phase : Bool} {status : UInt32} (length reqId : UInt16) (hash : UInt32)
    (subQid : UInt16) (addr : UInt64) (h : status &&& bit 24 = 0) :
    phaseBit (rxCdesc phase status length reqId hash subQid addr) = phase := by
  have hbyte : u8At (rxCdesc phase status length reqId hash subQid addr) 3 = _ :=
    u8At_ofLe32 (if phase then status ||| bit 24 else status) []
  rw [phaseBit,hbyte,Bits.byte3_bit]
  change ((if phase then status ||| bit 24 else status) &&& bit 24 != 0) = phase
  cases phase
  · rw [if_neg Bool.false_ne_true,h]
    rfl
  · rw [if_pos rfl,Bits.or_and,h]
    rfl

/-- The status words that the device pushes leave the phase bit to the ring. -/
lemma rxStatus_phase (net : Net) (frame : Bytes) (first last : Bool) :
    (enaRxStatus net frame ||| (if first then rxCdescFirst else 0) |||
      (if last then rxCdescLast else 0)) &&& bit 24 = 0 := by
  rw [Bits.or_and,Bits.or_and,(Bits.and_eq_zero_of_or (enaRxStatus_clear net frame)).2]
  cases first <;> cases last <;> decide

namespace CqChannel
variable {c : CqIdx} {s s' : CqChannel}

lemma Start.inv (h : Start c s) : Inv c s := by
  have hok := h.cq.ok
  have hpos := Counter.depth_pos hok.depth.pow
  refine ⟨h.cq.used,hok,?_,?_,?_,⟨[],by rw [h.pushed,h.polled]; rfl⟩,by simp [h.pushed]⟩
  · rw [h.pushed]
    exact .empty h.clear
  · rw [h.pushed,h.cq.tail,h.cq.phase]
    exact At.zero _ hpos
  · rw [h.polled,h.driver]
    exact At.zero _ hpos

/-- One push, whatever interrupt it raises. -/
lemma Inv.push (h : Inv c s) {cdesc : Bytes} {w' : World}
    (hmem : w'.mem = (s.w.cqPushed c cdesc).mem) (hcq : w'.dev.cq c = (s.w.dev.cq c).advance)
    (hlen : cdesc.length = 32) (hphase : phaseBit cdesc = (s.w.dev.cq c).phase)
    (hroom : (s.pushed ++ [entry c s.w cdesc]).length ≤
      s.polled.length + (s.w.dev.cq c).depth.toNat) :
    Inv c { s with w := w', pushed := s.pushed ++ [entry c s.w cdesc] } := by
  have hpos := Counter.depth_pos h.ok.depth.pow
  have hslot := Nat.mod_lt s.pushed.length hpos
  have hsize := h.ok.entrySize_le
  have hring : ring c w' = fun k => (s.w.mem.write (s.w.dev.cq c).slotAddr
      (entry c s.w cdesc)).slot (s.w.dev.cq c).base (s.w.dev.cq c).entrySize.toNat k := by
    funext k
    rw [ring,hmem,hcq]
    rfl
  have hentry : (entry c s.w cdesc).length = (s.w.dev.cq c).entrySize.toNat := by
    rw [entry,List.length_take]
    omega
  have hbit : phaseBit (entry c s.w cdesc) =
      lapPhase (s.w.dev.cq c).depth.toNat s.pushed.length := by
    rw [← h.tail.phase,← hphase,phaseBit,entry,u8At_take,phaseBit]
    rcases h.ok.entrySize with he | he | he <;> rw [he] <;> decide
  refine ⟨?_,?_,?_,?_,?_,?_,?_⟩
  · change (w'.dev.cq c).used = true
    rw [hcq]
    exact h.used
  · change (w'.dev.cq c).Ok
    rw [hcq]
    exact h.ok.advance
  · change Contents (w'.dev.cq c).depth.toNat phaseBit (ring c w') _
    rw [hcq,hring]
    refine h.contents.push hpos hbit ?_ ?_
    · rw [EnaCq.slotAddr,h.ok.slot_eq h.tail]
      exact Memory.slot_write_self _ _ hentry (by omega)
    · intro k hk hne
      rw [EnaCq.slotAddr,h.ok.slot_eq h.tail]
      exact Memory.slot_write_of_ne _ _ hentry h.ok.ring_size hk hslot hne
  · change At (w'.dev.cq c).depth.toNat (w'.dev.cq c).tail (w'.dev.cq c).phase _
    rw [hcq,List.length_append,List.length_singleton]
    exact h.ok.at_succ h.tail
  · change At (w'.dev.cq c).depth.toNat _ _ _
    rw [hcq]
    exact h.head
  · obtain ⟨unread,hu⟩ := h.fifo
    exact ⟨unread ++ [_],by rw [← List.append_assoc,← hu]⟩
  · change _ ≤ s.polled.length + (w'.dev.cq c).depth.toNat
    rw [hcq]
    exact hroom

/-- The slot that the driver looks at. -/
lemma Inv.poll_slot (h : Inv c s) :
    s.w.mem.bytesAt ((s.w.dev.cq c).base + (s.driver.head &&& ((s.w.dev.cq c).depth - 1)).toUInt64 *
      (s.w.dev.cq c).entrySize.toUInt64) (s.w.dev.cq c).entrySize.toNat =
      ring c s.w (s.polled.length % (s.w.dev.cq c).depth.toNat) := by
  rw [h.ok.slot_eq h.head]
  rfl

/-- A poll reads the first unread completion, or finds that there is none. -/
lemma Inv.poll_iff (h : Inv c s) :
    (cqPoll s.w.mem (s.w.dev.cq c) s.driver = none ↔ s.pushed.length = s.polled.length) ∧
      ∀ entry d, cqPoll s.w.mem (s.w.dev.cq c) s.driver = some (entry,d) →
        s.pushed[s.polled.length]? = some entry ∧
          At (s.w.dev.cq c).depth.toNat d.head d.phase (s.polled.length+1) := by
  have hle : s.polled.length ≤ s.pushed.length := by
    obtain ⟨unread,hu⟩ := h.fifo
    rw [hu,List.length_append]
    omega
  unfold cqPoll
  dsimp only
  rw [h.poll_slot]
  obtain ⟨hnone,hsome⟩ := h.contents.poll_iff (Counter.depth_pos h.ok.depth.pow) hle h.room
    h.head.phase
  refine ⟨hnone,fun entry d he => ?_⟩
  obtain ⟨hread,rfl⟩ := hsome entry d he
  exact ⟨hread,h.ok.at_succ h.head⟩

lemma Inv.poll (h : Inv c s) {entry : Bytes} {d : RingDriver}
    (hp : cqPoll s.w.mem (s.w.dev.cq c) s.driver = some (entry,d)) :
    Inv c { s with driver := d, polled := s.polled ++ [entry] } := by
  obtain ⟨hnext,hat⟩ := h.poll_iff.2 entry d hp
  refine ⟨h.used,h.ok,h.contents,h.tail,?_,fifo_read h.fifo hnext,?_⟩
  · rw [List.length_append,List.length_singleton]
    exact hat
  · have hroom := h.room
    rw [List.length_append,List.length_singleton]
    dsimp only
    omega

theorem Step.inv (hs : Step c s s') (h : Inv c s)
    (hroom : s'.pushed.length ≤ s'.polled.length + (s'.w.dev.cq c).depth.toNat) : Inv c s' := by
  cases hs with
  | @txComplete i reqId w' hc hok =>
    rw [enaTxComplete_eq reqId hc h.used h.ok.entrySize_le] at hok
    cases hok
    have hintr := irqOnly_cqIntr (s.w.cqPushed c (txCdesc (s.w.dev.cq c).phase reqId
      (UInt16.ofNat i) (s.w.dev.sq i).head)) c true
    have hadv := (congrFun hintr.sameQueues.cq c).trans (cqPushed_cq s.w c _)
    refine h.push hintr.mem hadv (txCdesc_length _ _ _ _) (txCdesc_phase _ _ _ _) ?_
    dsimp only at hroom
    rw [hadv] at hroom
    exact hroom
  | @rxPush net frame first last length reqId subQid status hash addr w' hstatus hok =>
    unfold enaRxPushCdesc at hok
    simp only [h.ok.entrySize_le, decide_true, check_true, ok_bind] at hok
    rw [enaCqPush_eq _ h.used] at hok
    cases hok
    refine h.push rfl (cqPushed_cq s.w c _) (rxCdesc_length _ _ _ _ _ _ _)
      (rxCdesc_phase _ _ _ _ _ (by rw [hstatus]; exact rxStatus_phase net frame first last)) ?_
    dsimp only at hroom
    rw [cqPushed_cq] at hroom
    exact hroom
  | poll hp => exact h.poll hp
  | @other w' hcq hring =>
    refine ⟨?_,?_,?_,?_,?_,h.fifo,?_⟩ <;> dsimp only <;> rw [hcq]
    · exact h.used
    · exact h.ok
    · exact h.contents.congr (Counter.depth_pos h.ok.depth.pow) hring
    · exact h.tail
    · exact h.head
    · exact h.room

lemma Run.inv (h : Run c s) : Inv c s := by
  induction h with
  | start hs => exact hs.inv
  | step _ hstep hroom ih => exact hstep.inv ih hroom

/-- A completion queue is a FIFO channel: what was polled is what was pushed, up to the completions
that are still unread, and a poll returns the first of these or fails when there is none. -/
theorem run_fifo (h : Run c s) :
    ∃ unread, s.pushed = s.polled ++ unread ∧
      (cqPoll s.w.mem (s.w.dev.cq c) s.driver = none ↔ unread = []) ∧
      ∀ entry d, cqPoll s.w.mem (s.w.dev.cq c) s.driver = some (entry,d) →
        unread.head? = some entry := by
  obtain ⟨unread,hu⟩ := h.inv.fifo
  obtain ⟨hnone,hsome⟩ := h.inv.poll_iff
  refine ⟨unread,hu,?_,?_⟩
  · rw [hnone,hu,List.length_append,← List.length_eq_zero_iff]
    omega
  · intro entry d hp
    have hnext := (hsome entry d hp).1
    rw [hu,List.getElem?_append_right le_rfl,Nat.sub_self] at hnext
    rw [List.head?_eq_getElem?]
    exact hnext

/-- The CQ that `createCqCmd` makes. -/
def createdCq : EnaCq := ⟨true,0x3000,16,16,true,1,0,true⟩

lemma createdCq_fresh : createdCq.Fresh :=
  ⟨rfl,by decide,.inr (.inl rfl),by decide,fun _ => .inr (by decide),rfl,rfl⟩

/-- An RX and a TX completion are pushed, and one is polled. -/
theorem run_fifo_two :
    ∃ s, Run 0 s ∧ s.pushed.length = 2 ∧ s.polled.length = 1 ∧
      ∃ unread, s.pushed = s.polled ++ unread ∧
        (cqPoll s.w.mem (s.w.dev.cq 0) s.driver = none ↔ unread = []) ∧
        ∀ entry d, cqPoll s.w.mem (s.w.dev.cq 0) s.driver = some (entry,d) →
          unread.head? = some entry := by
  obtain ⟨w,-,hw⟩ := exists_of_okAnd
    (p := fun w : World => w.dev.cq 0 == createdCq &&
      (List.range 16).all (fun k => !phaseBit (ring 0 w k)) &&
      okAnd (fun w₁ : World => w₁.dev.cq 0 == createdCq.advance &&
        (w₁.dev.sq 0).cqIdx.toNat == 0 && okAnd (fun w₂ : World =>
        w₂.dev.cq 0 == createdCq.advance.advance && (cqPoll w₂.mem (w₂.dev.cq 0) ⟨0,true⟩).isSome)
        (enaTxComplete w₁ 0 7))
        (enaRxPushCdesc w 0 (enaRxStatus Net.nonIp [] ||| rxCdescFirst ||| rxCdescLast) 60 3 0 0 0))
    (x := run Net.nonIp freshWorld (driverSetup [createCqCmd] [])) (by decide +kernel)
  simp only [Bool.and_eq_true, beq_iff_eq] at hw
  obtain ⟨⟨hcq,hclear⟩,hnext⟩ := hw
  obtain ⟨w₁,h₁,hnext⟩ := exists_of_okAnd hnext
  simp only [Bool.and_eq_true, beq_iff_eq] at hnext
  obtain ⟨⟨hcq₁,hsq⟩,hnext⟩ := hnext
  obtain ⟨w₂,h₂,hlast⟩ := exists_of_okAnd hnext
  rw [Bool.and_eq_true,beq_iff_eq] at hlast
  obtain ⟨⟨e,d⟩,hpoll⟩ := Option.isSome_iff_exists.mp hlast.2
  have hstart : Run 0 ⟨w,⟨0,true⟩,[],[]⟩ := by
    refine .start ⟨?_,?_,rfl,rfl,rfl⟩
    · rw [hcq]
      exact createdCq_fresh
    · intro k hk
      rw [hcq] at hk
      have hk := List.all_eq_true.mp hclear k (List.mem_range.mpr hk)
      simpa using hk
  have hrx := hstart.step (@Step.rxPush 0 _ Net.nonIp [] true true _ _ _ _ _ _ w₁ rfl h₁) (by
    change 1 ≤ 0 + (w₁.dev.cq 0).depth.toNat
    rw [hcq₁]
    decide)
  have hc : (w₁.dev.sq 0).cqIdx.toNat = 0 := hsq
  have htx := hrx.step (.txComplete hc h₂) (by
    change 2 ≤ 0 + (w₂.dev.cq 0).depth.toNat
    rw [hlast.1]
    decide)
  have hpolled := htx.step (.poll hpoll) (by
    change 2 ≤ 1 + (w₂.dev.cq 0).depth.toNat
    rw [hlast.1]
    decide)
  exact ⟨_,hpolled,rfl,rfl,run_fifo hpolled⟩

end CqChannel
end EnaDevice
