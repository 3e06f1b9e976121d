import EnaDevice.Driver.Create
import EnaDevice.Irq.Delivery

/-! Events and interrupts as the driver takes them: its polls of the AENQ that it brought up are
polls of the queue's channel, and its unmask writes have what is pending for a vector sent in
time. -/
namespace EnaDevice.Driver
open Bytes Result PhaseRing

/-- The driver at the AENQ that it brought up, with the events posted and read so far. -/
structure AtAenq (q : Qtest) (s : Session) (posted read : List Bytes) : Prop where
  run : AenqChannel.Run q.net ⟨s.w,⟨s.d.aenqHead,s.d.aenqPhase⟩,posted,read⟩
  base : s.w.dev.aenqBase = s.d.aenq
  depth : s.w.dev.aenqDepth = enaTestAenqDepth

section Aenq
variable {q : Qtest} {s : Session} {posted read : List Bytes}

/-- What the driver keeps of a poll, with the write of the head doorbell. -/
def Session.aenqRead (s : Session) (d : RingDriver) : Session where
  d := { s.d with aenqHead := d.head, aenqPhase := d.phase }
  w := s.w.setDev (s.w.dev.setReg regAenqHeadDb d.head.toUInt32)

/-- `ena_aenq_poll` looks as the channel's poll does. -/
lemma enaAenqPoll_eq (q : Qtest) (s : Session) :
    enaAenqPoll q s = .ok (match aenqPoll s.w.mem s.d.aenq enaTestAenqDepth
      ⟨s.d.aenqHead,s.d.aenqPhase⟩ with
      | none => (none,s)
      | some (entry,d) => (some entry,s.aenqRead d)) := by
  unfold enaAenqPoll
  by_cases hphase : aenqPhaseBit (s.w.mem.bytesAt
      (s.d.aenq + (s.d.aenqHead % enaTestAenqDepth).toUInt64*64) 64) = s.d.aenqPhase
  · have hpoll : aenqPoll s.w.mem s.d.aenq enaTestAenqDepth ⟨s.d.aenqHead,s.d.aenqPhase⟩ =
        some (_,_) :=
      if_pos hphase
    rw [hpoll]
    refine (if_neg (not_not_intro hphase)).trans ?_
    dsimp only
    rw [enaRegWrite_stored q _ (by decide)]
    rfl
  · have hpoll : aenqPoll s.w.mem s.d.aenq enaTestAenqDepth ⟨s.d.aenqHead,s.d.aenqPhase⟩ = none :=
      if_neg hphase
    rw [hpoll]
    exact if_pos hphase

/-- Bring-up leaves the driver at an AENQ without events. -/
lemma enaBringup_atAenq {aq acq aenq : UInt64} (hresp : s.d.mmioResp ≠ 0)
    (h : Allocated s.w.mem aq acq aenq) :
    ∃ s', enaBringup q s aq acq aenq = .ok s' ∧ AtAenq q s' [] [] := by
  obtain ⟨s₁,hbring,halloc,-⟩ := enaBringup_eq q hresp h
  exact ⟨_,hbring,.start (broughtUp_aenqStart halloc),broughtUp_aenqBase _,broughtUp_aenqDepth _⟩

/-- The driver reads the next event that was posted, and finds none just if it has read them all. -/
theorem enaAenqPoll_reads (h : AtAenq q s posted read) :
    ∃ e s', enaAenqPoll q s = .ok (e,s') ∧ e = posted[read.length]? ∧
      (read = posted ↔ e = none) ∧ AtAenq q s' posted (read ++ e.toList) := by
  have hinv := h.run.inv
  obtain ⟨hnone,hsome⟩ := hinv.poll_iff
  obtain ⟨unread,hfifo⟩ := hinv.fifo
  dsimp only at hnone hsome hfifo
  rw [h.base,h.depth] at hnone hsome
  rw [enaAenqPoll_eq]
  cases hpoll : aenqPoll s.w.mem s.d.aenq enaTestAenqDepth ⟨s.d.aenqHead,s.d.aenqPhase⟩ with
  | none =>
    have hlen := hnone.mp hpoll
    have hall : read = posted := (List.prefix_iff_eq_take.mp ⟨unread,hfifo.symm⟩).trans
      (by rw [← hlen,List.take_length])
    refine ⟨none,s,rfl,?_,iff_of_true hall rfl,?_⟩
    · rw [List.getElem?_eq_none hlen.le]
    · rw [Option.toList_none,List.append_nil]
      exact h
  | some r =>
    obtain ⟨e,d⟩ := r
    obtain ⟨hnext,-⟩ := hsome e d hpoll
    refine ⟨some e,s.aenqRead d,rfl,hnext.symm,iff_of_false ?_ nofun,?_⟩
    · rintro rfl
      rw [List.getElem?_eq_none le_rfl] at hnext
      cases hnext
    · have hpolled : aenqPoll s.w.mem s.w.dev.aenqBase s.w.dev.aenqDepth
        ⟨s.d.aenqHead,s.d.aenqPhase⟩ =
          some (e,d) := by rw [h.base,h.depth,hpoll]
      have hdoorbell : EnaDevice.step q.net s.w (.regWrite regAenqHeadDb d.head.toUInt32.toUInt64) =
          .ok (s.w.setDev (s.w.dev.setReg regAenqHeadDb d.head.toUInt32.toUInt64.toUInt32)) := rfl
      rw [UInt32.toUInt32_toUInt64] at hdoorbell
      have hhead : d.head.toUInt32.toUInt64.toUInt32.toUInt16 = d.head := by simp
      exact ⟨h.run.step (.poll hpolled hhead hdoorbell),h.base,h.depth⟩

end Aenq

section Unmask
variable (q : Qtest) {s : Session} {c : CqIdx} {v : Vec} {isTx : Bool}

/-- The delays after a write of an unmask register, from the bits of its value. -/
lemma unmaskWrite_delayUs (irq : EnaIrq) (val : UInt32) :
    ((irq.unmaskWrite val).delayUs isTx).toNat = if val.toNat.testBit 31 then
      (irq.delayUs isTx).toNat
      else if isTx then val.toNat/2^15 % 2^15 else val.toNat % 2^15 := by
  have hbit := Bits.bit_ne_zero val (show 31 < 32 by norm_num)
  have htx := Bits.field_toNat val (show 15 + 15 ≤ 32 by norm_num) (show 15 < 32 by norm_num)
  have hrx := Bits.low_toNat val (show 15 ≤ 32 by norm_num)
  unfold EnaIrq.unmaskWrite EnaIrq.delayUs
  by_cases hkeep : val &&& bit 31 = 0
  · have hclear : val.toNat.testBit 31 = false := hbit.symm.trans (by simpa [bit] using hkeep)
    rw [if_pos hkeep,hclear]
    cases isTx with
    | false => exact hrx
    | true => exact htx
  · have hset : val.toNat.testBit 31 = true := hbit.symm.trans (by simpa [bit] using hkeep)
    rw [if_neg hkeep,hset]
    cases isTx <;> rfl

/-- A write that the device takes for the unmask register of a CQ has what is pending for the CQ's
vector sent within the delay it leaves. -/
lemma unmask_sends {off val : UInt32} (hw : TableInv s.w.dev ∧ TxIdle none s.w.dev)
    (hoff : UnmasksCq off c) (hu : (s.w.dev.cq c).used = true) (hvec : (s.w.dev.cq c).vec = some v)
    (hp : (s.w.dev.irq v).pending isTx = true) (hval : val.toNat.testBit 30 = true) :
    ∃ s', enaRegWrite q s off.toNat val = .ok s' ∧ s'.d = s.d ∧
      SentBy q.net v (s.w.clockUs + (((s.w.dev.irq v).unmaskWrite val).delayUs isTx).toNat) s.w
        s'.w := by
  have hwrite : EnaDevice.step q.net s.w (.regWrite off.toNat val.toUInt64) =
      .ok (enaCqUnmaskWrite s.w c val) := by
    have hstep := hoff q.net s.w val.toUInt64
    rw [UInt32.toUInt32_toUInt64] at hstep
    exact hstep
  refine ⟨{ s with w := enaCqUnmaskWrite s.w c val },?_,rfl,?_⟩
  · rw [enaRegWrite,hwrite]
    rfl
  · have hc := c.isLt
    have hinp : (Input.regWrite (regCqUnmaskBase + c.val*4) val.toUInt64).unmask =
        some (c,val) := by
      have hslot : (⟨(regCqUnmaskBase + c.val*4 - regCqUnmaskBase)/4,by omega⟩ : CqIdx) = c := by
        apply Fin.ext
        change (regCqUnmaskBase + c.val*4 - regCqUnmaskBase)/4 = c.val
        omega
      rw [Input.unmask,dif_pos ⟨by omega,by omega⟩,hslot,UInt32.toUInt32_toUInt64]
    have hset : val &&& bit 30 ≠ 0 := by
      have hbit := Bits.bit_ne_zero val (show 30 < 32 by norm_num)
      rw [hval] at hbit
      exact bne_iff_ne.mp hbit
    exact (delivered hw v isTx).unmask hp _ val _ ⟨c,hinp,hu,hvec⟩ hset (step_unmask hinp)

/-- The value that `ena_txq_unmask` writes. -/
lemma txqUnmask_toNat (txDelay : UInt32) :
    (bit 30 ||| ((txDelay <<< 15) &&& genmask 29 15)).toNat = 2^30 + txDelay.toNat % 2^15*2^15 := by
  have hfield : ((txDelay <<< 15) &&& genmask 29 15).toNat = txDelay.toNat % 2^15*2^15 :=
    Bits.place_toNat txDelay (show 15 + 15 ≤ 32 by norm_num) (by norm_num)
  have hlt := Nat.mod_lt txDelay.toNat (show 0 < 2^15 by norm_num)
  rw [UInt32.or_comm,Bits.or_toNat (k := 30) (by omega) (dvd_refl _),hfield]
  rfl

/-- `ena_txq_unmask` has what is pending sent within the delay that it sets, or the one there is. -/
theorem enaTxqUnmask_sends {t : EnaTxQueue} (txDelay : UInt32) (moderationUpdate : Bool)
    (hw : TableInv s.w.dev ∧ TxIdle none s.w.dev) (hoff : UnmasksCq t.unmaskOff c)
    (hu : (s.w.dev.cq c).used = true) (hvec : (s.w.dev.cq c).vec = some v)
    (hp : (s.w.dev.irq v).pending isTx = true) :
    ∃ s', enaTxqUnmask q s t txDelay moderationUpdate = .ok s' ∧ s'.d = s.d ∧
      SentBy q.net v (s.w.clockUs +
        if moderationUpdate then if isTx then txDelay.toNat % 2^15 else 0
        else ((s.w.dev.irq v).delayUs isTx).toNat) s.w s'.w := by
  have hval := txqUnmask_toNat txDelay
  have hlt := Nat.mod_lt txDelay.toNat (show 0 < 2^15 by norm_num)
  unfold enaTxqUnmask
  dsimp only
  cases moderationUpdate with
  | true =>
    have hbit : (bit 30 ||| ((txDelay <<< 15) &&& genmask 29 15)).toNat.testBit 30 = true := by
      rw [hval,Nat.testBit_eq_decide_div_mod_eq]
      exact decide_eq_true (by omega)
    have hkeep : (bit 30 ||| ((txDelay <<< 15) &&& genmask 29 15)).toNat.testBit 31 = false := by
      rw [hval,Nat.testBit_eq_decide_div_mod_eq]
      exact decide_eq_false (by omega)
    obtain ⟨s',hwrite,hd,hsent⟩ := unmask_sends q hw hoff hu hvec hp hbit
    have htx : (2^30 + txDelay.toNat % 2^15*2^15)/2^15 % 2^15 = txDelay.toNat % 2^15 := by omega
    have hrx : (2^30 + txDelay.toNat % 2^15*2^15) % 2^15 = 0 := by omega
    rw [unmaskWrite_delayUs,hkeep,hval,htx,hrx] at hsent
    exact ⟨s',hwrite,hd,hsent⟩
  | false =>
    have hval' : (bit 30 ||| ((txDelay <<< 15) &&& genmask 29 15) ||| bit 31).toNat =
        2^31 + (2^30 + txDelay.toNat % 2^15*2^15) := by
      rw [Bits.or_toNat (k := 31) (by omega) (dvd_refl _),hval]
      rfl
    have hbit : (bit 30 ||| ((txDelay <<< 15) &&& genmask 29 15) ||| bit 31).toNat.testBit 30 =
        true := by
      rw [hval',Nat.testBit_eq_decide_div_mod_eq]
      exact decide_eq_true (by omega)
    have hkeep : (bit 30 ||| ((txDelay <<< 15) &&& genmask 29 15) ||| bit 31).toNat.testBit 31 =
        true := by
      rw [hval',Nat.testBit_eq_decide_div_mod_eq]
      exact decide_eq_true (by omega)
    obtain ⟨s',hwrite,hd,hsent⟩ := unmask_sends q hw hoff hu hvec hp hbit
    rw [unmaskWrite_delayUs,hkeep] at hsent
    exact ⟨s',hwrite,hd,hsent⟩

/-- `rx_unmask` sets an RX delay of 15 bits, and no TX delay. -/
theorem rxUnmask_sends {r : RxRing} {rxDelayUs : UInt32}
    (hw : TableInv s.w.dev ∧ TxIdle none s.w.dev) (hcq : r.cqIdx = UInt16.ofNat c)
    (hu : (s.w.dev.cq c).used = true) (hvec : (s.w.dev.cq c).vec = some v)
    (hp : (s.w.dev.irq v).pending isTx = true) (hdelay : rxDelayUs.toNat < 2^15) :
    ∃ s', rxUnmask q r s rxDelayUs = .ok s' ∧ s'.d = s.d ∧
      SentBy q.net v (s.w.clockUs + if isTx then 0 else rxDelayUs.toNat) s.w s'.w := by
  have hval : (bit 30 ||| rxDelayUs).toNat = 2^30 + rxDelayUs.toNat := by
    rw [UInt32.or_comm,Bits.or_toNat (k := 30) (by omega) (dvd_refl _)]
    rfl
  have hbit : (bit 30 ||| rxDelayUs).toNat.testBit 30 = true := by
    rw [hval,Nat.testBit_eq_decide_div_mod_eq]
    exact decide_eq_true (by omega)
  have hset : (bit 30 ||| rxDelayUs).toNat.testBit 31 = false := by
    rw [hval,Nat.testBit_eq_decide_div_mod_eq]
    exact decide_eq_false (by omega)
  have htx : (2^30 + rxDelayUs.toNat)/2^15 % 2^15 = 0 := by omega
  have hrx : (2^30 + rxDelayUs.toNat) % 2^15 = rxDelayUs.toNat := by omega
  obtain ⟨s',hwrite,hd,hsent⟩ := unmask_sends q hw (unmasksCq c) hu hvec hp hbit
  rw [unmaskWrite_delayUs,hset,hval,htx,hrx] at hsent
  refine ⟨s',?_,hd,hsent⟩
  rw [offset_toNat c (by decide)] at hwrite
  rw [rxUnmask,hcq,idx_toNat]
  exact hwrite

end Unmask
end EnaDevice.Driver
