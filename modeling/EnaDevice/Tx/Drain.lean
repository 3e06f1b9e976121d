import EnaDevice.Tx.Commute
import EnaDevice.Tx.Grammar

/-! The loop of `ena_tx_doorbell` as a chain of iterations: how many there are, how far each moves
the head, and which slots it reads. -/
namespace EnaDevice
open Bytes Result

/-- The loop of `ena_tx_parse`, over any way to read a slot. -/
def txParseBy (read : ℕ → Except Fault EnaTxDesc) (sq : EnaSq) :
    ℕ → ℕ → EnaTxPkt → Except Fault (Option EnaTxPkt)
  | 0, _, _ => return none
  | n+1, slot, p => do
    let posted ← enaTxSlotPosted sq slot (sq.tail - sq.head)
    if !posted then return none
    let d ← read slot
    if d.isMeta then
      if slot ≠ 0 ∨ !d.extValid then return none
      else txParseBy read sq n (slot+1) { p with haveMeta := true, txMeta := d.readMeta }
    else if p.desc.length = 0 ∧ !p.haveMeta ∧ !d.isFirst then return none
    else if p.desc.length = enaMaxPktDescs then return none
    else
      check (p.desc.length < enaMaxPktDescs) (.outOfBounds .txPktDesc)
      let p := { p with desc := p.desc ++ [d] }
      if d.isLast then return some { p with slots := slot+1 }
      else txParseBy read sq n (slot+1) p

/-- Reads a slot of the packet at the head; a slot that is not posted is an abort. -/
def readPosted (w : World) (i : SqIdx) (sq : EnaSq) (slot : ℕ) : Except Fault EnaTxDesc := do
  check (sq.slotPos slot < (sq.tail - sq.head).toNat) (.outOfBounds .txPktDesc)
  enaTxReadSlot w i sq slot

/-- One iteration of the doorbell loop. The head moves over at least one entry and over no more than
are posted, and parsing is the same when reads of slots that are not posted abort. -/
structure TxIteration (net : Net) (i : SqIdx) (w w' : World) : Prop where
  busy : (w.dev.sq i).head ≠ (w.dev.sq i).tail
  step : enaTxDoorbellStep net w i = .ok w'
  advance : TxAdvance i w w'
  posted : txParseBy (readPosted w i (w.dev.sq i)) (w.dev.sq i)
    (enaMaxPktDescs + 1) 0 EnaTxPkt.zero =
    enaTxParse w i

/-- A number of iterations. -/
inductive TxIterates (net : Net) (i : SqIdx) : ℕ → World → World → Prop
  | done (w : World) : TxIterates net i 0 w w
  | next {n : ℕ} {w w₁ w' : World} (h : TxIteration net i w w₁) (hrest : TxIterates net i n w₁ w') :
    TxIterates net i (n+1) w w'

section
variable {net : Net} {i : SqIdx} {w w' : World} {sq : EnaSq}

lemma txParseBy_readSlot (w : World) (i : SqIdx) (sq : EnaSq) (n slot : ℕ) (p : EnaTxPkt) :
    txParseBy (enaTxReadSlot w i sq) sq n slot p = enaTxParseFrom w i sq n slot p := by
  induction n generalizing slot p with
  | zero => rfl
  | succ n ih =>
    rw [txParseBy,enaTxParseFrom]
    simp only [ih]

/-- A slot is read after it was found to be posted. -/
lemma TxReadable.parse_posted (h : TxReadable w i sq) (n slot : ℕ) (p : EnaTxPkt) :
    txParseBy (readPosted w i sq) sq n slot p = txParseBy (enaTxReadSlot w i sq) sq n slot p := by
  induction n generalizing slot p with
  | zero => rfl
  | succ n ih =>
    rw [txParseBy,txParseBy]
    simp only [h.posted, ok_bind, ih]
    by_cases hposted : sq.slotPos slot < (sq.tail - sq.head).toNat
    · simp only [readPosted, hposted, decide_true, check_true, ok_bind]
    · simp only [hposted, decide_false, Bool.not_false, if_true]

lemma EnaSq.Ok.parse_posted {s : EnaState} (h : (w.dev.sq i).Ok s) :
    txParseBy (readPosted w i (w.dev.sq i)) (w.dev.sq i) (enaMaxPktDescs + 1) 0 EnaTxPkt.zero =
      enaTxParse w i :=
  ((h.txReadable w i).parse_posted _ _ _).trans (txParseBy_readSlot w i (w.dev.sq i) _ _ _)

/-- A chain that ends with the queue drained goes through every state that the loop gets to. -/
lemma TxIterates.split {n m : ℕ} {u : World} (h : TxIterates net i n w u)
    (hall : TxIterates net i m w w') (hdone : (w'.dev.sq i).head = (w'.dev.sq i).tail) :
    ∃ k, TxIterates net i k u w' := by
  induction h generalizing m with
  | done w => exact ⟨m,hall⟩
  | next hiter _ ih =>
    cases hall with
    | done => exact absurd hdone hiter.busy
    | next hiter' hrest =>
      cases hiter.step.symm.trans hiter'.step
      exact ih hrest

lemma txIteration_of_step (hw : TableInv w.dev) (hu : (w.dev.sq i).used = true)
    (hbusy : (w.dev.sq i).head ≠ (w.dev.sq i).tail) (hstep : enaTxDoorbellStep net w i = .ok w') :
    TxIteration net i w w' := by
  have hcases := (enaTxDoorbellStep_cases (E := fun _ => True) net hw hu).of_ok hstep
  exact ⟨hbusy,hstep,hcases.advance hbusy,(hw.sq i hu).parse_posted⟩

variable (net)

/-- The loop ends with the queue drained, after no more iterations than entries were posted. -/
lemma enaTxDoorbellLoop_iterates (n : ℕ) (hw : TableInv w.dev) (hu : (w.dev.sq i).used = true)
    (htx : (w.dev.sq i).isTx = true) (hn : ((w.dev.sq i).tail - (w.dev.sq i).head).toNat ≤ n) :
    ∃ k w', enaTxDoorbellLoop net i n w = .ok w' ∧
      k ≤ ((w.dev.sq i).tail - (w.dev.sq i).head).toNat ∧ TxIterates net i k w w' ∧
      (w'.dev.sq i).head = (w.dev.sq i).tail ∧ (w'.dev.sq i).tail = (w.dev.sq i).tail := by
  induction n generalizing w with
  | zero =>
    have he := (Counter.sub_toNat_eq_zero_iff _ _).mp (Nat.le_zero.mp hn)
    refine ⟨0,w,?_,Nat.zero_le _,.done w,he,rfl⟩
    rw [enaTxDoorbellLoop,if_pos he]
    rfl
  | succ n ih =>
    rw [enaTxDoorbellLoop]
    split_ifs with he
    · exact ⟨0,w,rfl,Nat.zero_le _,.done w,he,rfl⟩
    obtain ⟨w₁,hstep,hcases⟩ := (enaTxDoorbellStep_cases net hw hu).exists_ok
    have hiter : TxIteration net i w w₁ := txIteration_of_step hw hu he hstep
    obtain ⟨k,m,hk,hk',hsq⟩ := hiter.advance
    have hdist : ((w₁.dev.sq i).tail - (w₁.dev.sq i).head).toNat =
        ((w.dev.sq i).tail - (w.dev.sq i).head).toNat - k := by
      rw [hsq]
      exact Counter.sub_add_toNat _ _ _ hk'
    have hpath : Path w (.regWrite (regSqDbBase + 4*i.val) 0) w w₁ :=
      hcases.path w hw htx (doorbell_regWrite i 0)
    obtain ⟨r,w',hloop,hr,hrest,hhead,htail⟩ := ih (hpath.tableInv hw) (by rw [hsq]; exact hu)
      (by rw [hsq]; exact htx) (by omega)
    have htail₁ : (w₁.dev.sq i).tail = (w.dev.sq i).tail := by rw [hsq]
    rw [hstep,ok_bind]
    exact ⟨r+1,w',hloop,by omega,.next hiter hrest,hhead.trans htail₁,htail.trans htail₁⟩

/-- A TX queue of a well-formed state gets to the loop. -/
lemma enaTxDoorbell_eq (hw : TableInv w.dev) (hu : (w.dev.sq i).used = true)
    (htx : (w.dev.sq i).isTx = true) : enaTxDoorbell net w i =
      enaTxDoorbellLoop net i ((w.dev.sq i).tail - (w.dev.sq i).head).toNat w := by
  obtain ⟨c,hc,huc,-⟩ := (hw.sq i hu).cq
  rw [enaTxDoorbell]
  simp only [htx, check_true, ok_bind, cqAt_eq hc, huc, Bool.not_true, Bool.false_eq_true, if_false]

/-- The queue after an accepted doorbell, before the loop. -/
def World.rung (w : World) (i : SqIdx) (val : UInt64) : World :=
  w.setSq i { w.dev.sq i with tail := val.toUInt32.toUInt16 }

lemma rung_sq (w : World) (i : SqIdx) (val : UInt64) :
    (w.rung i val).dev.sq i = { w.dev.sq i with tail := val.toUInt32.toUInt16 } :=
      World.setSq_sq _ _ _

lemma rung_tables (hw : TableInv w.dev) {val : UInt64}
    (hval : val.toUInt32.toUInt16 - (w.dev.sq i).head ≤ (w.dev.sq i).depth) :
    TableInv (w.rung i val).dev := by
  have heffect : Effect w (.regWrite (regSqDbBase + 4*i.val) 0) w (w.rung i val) :=
    .sqTail i _ (doorbell_regWrite i 0) hval
  exact heffect.tableInv hw

/-- An accepted doorbell of a TX queue, up to the loop. -/
lemma step_sqDoorbell_tx (hw : TableInv w.dev) (hu : (w.dev.sq i).used = true)
    (htx : (w.dev.sq i).isTx = true) {val : UInt64}
    (hval : val.toUInt32.toUInt16 - (w.dev.sq i).head ≤ (w.dev.sq i).depth) :
    step net w (sqDoorbell i val) =
      enaTxDoorbellLoop net i (val.toUInt32.toUInt16 - (w.dev.sq i).head).toNat (w.rung i val) := by
  have hsq := rung_sq w i val
  have hdoorbell := enaTxDoorbell_eq (i := i) net (rung_tables hw hval) (by rw [hsq]; exact hu)
    (by rw [hsq]; exact htx)
  rw [hsq] at hdoorbell
  rw [step_sqDoorbell,enaSqDoorbell]
  dsimp only
  rw [if_neg (by simp [hu]),if_neg (UInt16.not_lt.mpr hval),if_pos htx]
  exact hdoorbell

variable {net}

/-- An accepted doorbell of a TX queue returns, with the queue drained, after at most as many
iterations as the queue has entries; each of them moves the head forward, never past the tail, and
reads posted slots only. -/
theorem txDoorbell_drains (h : Reachable net w) (hu : (w.dev.sq i).used = true)
    (htx : (w.dev.sq i).isTx = true) {val : UInt64}
    (hval : val.toUInt32.toUInt16 - (w.dev.sq i).head ≤ (w.dev.sq i).depth) :
    ∃ n w', step net w (sqDoorbell i val) = .ok w' ∧ n ≤ (w.dev.sq i).depth.toNat ∧
      TxIterates net i n (w.rung i val) w' ∧ (w'.dev.sq i).head = val.toUInt32.toUInt16 ∧
      (w'.dev.sq i).tail = val.toUInt32.toUInt16 := by
  have hw := h.tables.1
  have hsq := rung_sq w i val
  obtain ⟨n,w',hloop,hn,hiter,hhead,htail⟩ := enaTxDoorbellLoop_iterates (i := i) net _
    (rung_tables hw hval) (by rw [hsq]; exact hu) (by rw [hsq]; exact htx) le_rfl
  rw [hsq] at hloop hn hhead htail
  exact ⟨n,w',(step_sqDoorbell_tx net hw hu htx hval).trans hloop,
    hn.trans (UInt16.le_iff_toNat_le.mp hval),hiter,hhead,htail⟩

/-- A burst of two packets. -/
theorem txDoorbell_drains_two :
    ∃ w n w', run Net.nonIp freshWorld (driverSetup [createCqCmd,createSqCmd sqIdentityTx]
        [(0x4000,metaAndBuffer ++ metaAndBuffer)]) = .ok w ∧
      step Net.nonIp w (sqDoorbell 0 4) = .ok w' ∧ n ≤ (w.dev.sq 0).depth.toNat ∧
      TxIterates Net.nonIp 0 n (w.rung 0 4) w' ∧ (w'.dev.sq 0).head = 4 ∧
      (w'.dev.sq 0).tail = 4 := by
  obtain ⟨w,hrun,hw⟩ := exists_of_okAnd
    (p := fun w : World => (w.dev.sq 0).used && (w.dev.sq 0).isTx &&
      decide ((4 : UInt64).toUInt32.toUInt16 - (w.dev.sq 0).head ≤ (w.dev.sq 0).depth))
    (x := run Net.nonIp freshWorld (driverSetup [createCqCmd,createSqCmd sqIdentityTx]
      [(0x4000,metaAndBuffer ++ metaAndBuffer)])) (by decide +kernel)
  simp only [Bool.and_eq_true, decide_eq_true_eq] at hw
  obtain ⟨n,w',hdrains⟩ := txDoorbell_drains (reachable_of_run hrun) hw.1.1 hw.1.2 hw.2
  exact ⟨w,n,w',hrun,hdrains⟩

end
end EnaDevice
