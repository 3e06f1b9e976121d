import EnaDevice.Invariant.Step
import EnaDevice.Twin.Tx

/-! Runs that differ in their past and in the bytes that failed reads leave behind. The device goes
on alike, as long as the reads whose result it does not look at agree. -/
namespace EnaDevice
open Bytes Result

/-- Another past, and other bytes where a read fails. -/
def veil (past : List Event) (f : (UInt64 → UInt8) → UInt64 → UInt8) : Guise :=
  ⟨id,fun m => { m with stale := f m.stale },past⟩

section Unchecked
variable (Q : Memory → UInt64 → ℕ → Prop)

/-- The control buffer of a feature command, if the command has one. -/
def ctrlRead (cmd : Bytes) (need : ℕ) : Option (UInt64 × ℕ) :=
  match enaCtrlBuf (FeatCmd.ofBytes cmd) need with
  | .ok buf => if buf = 0 then none else some (buf,need)
  | .error _ => none

/-- What `ena_set_feature` reads. -/
def setFeatureRead (cmd : Bytes) : Option (UInt64 × ℕ) :=
  match Feature.ofId (FeatCmd.ofBytes cmd).featureId with
  | some .hostAttrConfig => if enaMemAddr cmd 20 = 0 then none else some (enaMemAddr cmd 20,196)
  | some .rssHashFunction => if le32At cmd 24 ≠ bit 1 then none else ctrlRead cmd rssKeySize
  | some .rssHashInput => ctrlRead cmd rssHashCtrlSize
  | some .rssIndirectionTableConfig =>
    if le16At cmd 24 ≠ 7 ∨ le32At cmd 28 ≠ 0xffffffff then none else ctrlRead cmd rssIndTblSize
  | _ => none

/-- The read of a command's own data has the property. -/
def CmdReads (m : Memory) (cmd : Bytes) : Prop :=
  Opcode.ofCode (u8At cmd 2) = some .setFeature → (FeatCmd.ofBytes cmd).featFlags &&& 3 = 0 →
    ∀ a n, setFeatureRead cmd = some (a,n) → Q m a n

/-- The reads of `ena_admin_process` have the property: the entries and the commands' own data. -/
def AdminReads (r : AdminRings) (tail : UInt16) : ℕ → World → Prop
  | 0, _ => True
  | n+1, w => w.dev.aqHead ≠ tail →
      Q w.mem (r.aqBase + (w.dev.aqHead % r.aqDepth).toUInt64*64) 64 ∧
        CmdReads Q w.mem (w.aqCmd r) ∧
        ∀ w', enaAdminStep r w = .ok w' → AdminReads r tail n w'

/-- The read of a descriptor in a host ring has the property. -/
def SlotReads (m : Memory) (sq : EnaSq) (slot : ℕ) : Prop :=
  sq.llq = false →
    Q m (sq.base + UInt64.ofNat (((sq.head.toNat + slot) &&& (sq.depth - 1).toNat)*EnaTxDesc.size))
      EnaTxDesc.size

/-- The descriptor reads of `ena_tx_doorbell` have the property. -/
def TxReads (net : Net) (i : SqIdx) : ℕ → World → Prop
  | 0, _ => True
  | n+1, w => (w.dev.sq i).head ≠ (w.dev.sq i).tail →
      TxLooksAt w i (w.dev.sq i) (SlotReads Q w.mem (w.dev.sq i)) (enaMaxPktDescs+1) 0 ∧
        ∀ w', enaTxDoorbellStep net w i = .ok w' → TxReads net i n w'

/-- Every read of a step whose result the code does not look at has the property `Q`: descriptors of
host-placed TX queues, admin commands and their control buffers. -/
def UncheckedReads (net : Net) (w : World) (inp : Input) : Prop :=
  match inp with
  | .regWrite addr val =>
    (∀ i, inp.doorbell = some i → (w.dev.sq i).used = true → (w.dev.sq i).isTx = true →
      val.toUInt32.toUInt16 - (w.dev.sq i).head ≤ (w.dev.sq i).depth →
      TxReads Q net i (val.toUInt32.toUInt16 - (w.dev.sq i).head).toNat
        (w.setSq i { w.dev.sq i with tail := val.toUInt32.toUInt16 })) ∧
    (addr = regAqDb → w.dev.aqBase ≠ 0 → w.dev.acqBase ≠ 0 → w.dev.capsDepth regAqCaps ≠ 0 →
      w.dev.capsDepth regAcqCaps ≠ 0 →
      val.toUInt32.toUInt16 - w.dev.aqHead ≤ w.dev.capsDepth regAqCaps →
      AdminReads Q w.dev.adminRings val.toUInt32.toUInt16
        (val.toUInt32.toUInt16 - w.dev.aqHead).toNat (w.setDev (w.dev.setReg regAqDb val.toUInt32)))
  | _ => True

end Unchecked

section Veil
variable {t : List Event} {f : (UInt64 → UInt8) → UInt64 → UInt8} {w : World} {net : Net}

lemma veil_reads (m : Memory) (a : UInt64) (n : ℕ) : (veil t f).Reads m a n := ⟨rfl,fun _ => rfl⟩

lemma veil_sparesIrq (v : Vec) : (veil t f).SparesIrq v := ⟨fun _ => rfl,fun _ _ => rfl⟩

lemma veil_sparesCq (c : CqIdx) : (veil t f).SparesCq c := ⟨fun _ => rfl,fun _ _ => rfl⟩

lemma veil_sparesTx (i : SqIdx) : (veil t f).SparesTx i :=
  ⟨fun _ => rfl,fun _ _ => rfl,fun _ => rfl,fun _ => rfl,fun _ => rfl,fun _ _ => rfl⟩

lemma veil_sparesRing (c : CqIdx) (q : EnaCq) : (veil t f).SparesRing c q :=
  ⟨veil_sparesCq c,fun v _ => veil_sparesIrq v,fun _ _ _ => rfl⟩

@[simp] lemma veil_dev : ((veil t f).wear w).dev = w.dev := rfl

lemma veil_setDev (s : EnaState) : ((veil t f).wear w).setDev s = (veil t f).wear (w.setDev s) :=
  rfl

lemma veil_dmaWrite (site : WriteSite) (a : UInt64) (data : Bytes) :
    enaDmaWrite ((veil t f).wear w) site a data = (veil t f).wear (enaDmaWrite w site a data) :=
  Guise.wear_dmaWrite rfl

/-- The reads agree behind the veil. -/
def Unveiled (f : (UInt64 → UInt8) → UInt64 → UInt8) (m : Memory) (a : UInt64) (n : ℕ) : Prop :=
  ({ m with stale := f m.stale } : Memory).read a n = m.read a n

lemma unveiled_of_okAt {m : Memory} {a : UInt64} {n : ℕ} (h : m.okAt a n = true) :
    Unveiled f m a n := by
  unfold Unveiled
  rw [Memory.read_of_ok h]
  exact Memory.read_of_ok h

lemma veil_txReadSlot {i : SqIdx} {sq : EnaSq} {slot : ℕ}
    (h : SlotReads (Unveiled f) w.mem sq slot) :
    enaTxReadSlot ((veil t f).wear w) i sq slot = enaTxReadSlot w i sq slot := by
  unfold enaTxReadSlot
  cases hl : sq.llq with
  | true => rfl
  | false =>
    have hread : enaDmaRead ((veil t f).wear w) _ _ = enaDmaRead w _ _ := h hl
    simp only [Bool.false_eq_true, if_false]
    rw [hread]

lemma veil_txDoorbellLoop {i : SqIdx} (n : ℕ) (hw : TableInv w.dev) (hu : (w.dev.sq i).used = true)
    (htx : (w.dev.sq i).isTx = true) (h : TxReads (Unveiled f) net i n w) :
    enaTxDoorbellLoop net i n ((veil t f).wear w) =
      (enaTxDoorbellLoop net i n w).map (veil t f).wear := by
  induction n generalizing w with
  | zero =>
    rw [enaTxDoorbellLoop,enaTxDoorbellLoop]
    change (if (w.dev.sq i).head = (w.dev.sq i).tail then _ else _) = _
    split_ifs <;> rfl
  | succ n ih =>
    rw [enaTxDoorbellLoop,enaTxDoorbellLoop]
    change (if (w.dev.sq i).head = (w.dev.sq i).tail then _ else _) = _
    split_ifs with he
    · rfl
    obtain ⟨hlooks,hnext⟩ := h he
    have hparse : enaTxParse ((veil t f).wear w) i = enaTxParse w i :=
      enaTxParseFrom_congr (fun _ => rfl) (hlooks.mono fun _ hs => veil_txReadSlot hs)
    refine bind_map (Guise.wear_txDoorbellStep (veil_sparesTx i) hw hu hparse
      (fun _ _ _ _ => veil_reads _ _ _) fun c _ => veil_sparesRing c _) fun w' hw' => ?_
    have hstep := (enaTxDoorbellStep_cases (E := fun _ => True) net hw hu).of_ok hw'
    obtain ⟨_,_,hsq⟩ := hstep.sq
    have hpath : Path w (.regWrite (regSqDbBase + 4*i.val) 0) w w' :=
      hstep.path w hw htx (doorbell_regWrite i 0)
    exact ih (hpath.tableInv hw) (by rw [hsq]; exact hu) (by rw [hsq]; exact htx) (hnext w' hw')

lemma veil_read (m : Memory) (a : UInt64) (n : ℕ) :
    Memory.read { m with stale := f m.stale } a n =
      if m.okAt a n then (true,m.bytesAt a n) else
        (false,Memory.staleAt { m with stale := f m.stale } a n) :=
  rfl

lemma veil_rxRead (m : Memory) (sq : EnaSq) (n : ℕ) :
    enaRxRead { m with stale := f m.stale } sq n = enaRxRead m sq n := by
  unfold enaRxRead
  rw [veil_read,Memory.read]
  split_ifs <;> rfl

lemma veil_rxCollectFrom (m : Memory) (sq : EnaSq) (len fuel : ℕ) (desc : List EnaRxDesc)
    (cap : ℕ) :
    enaRxCollectFrom { m with stale := f m.stale } sq len fuel desc cap =
      enaRxCollectFrom m sq len fuel desc cap := by
  induction fuel generalizing desc cap with
  | zero => rw [enaRxCollectFrom,enaRxCollectFrom]
  | succ fuel ih =>
    rw [enaRxCollectFrom,enaRxCollectFrom]
    simp only [veil_rxRead, ih]

lemma veil_rxPushCdesc (c : CqIdx) (status : UInt32) (length reqId : UInt16) (hash : UInt32)
    (subQid : UInt16) (addr : UInt64) :
    enaRxPushCdesc ((veil t f).wear w) c status length reqId hash subQid addr =
      (enaRxPushCdesc w c status length reqId hash subQid addr).map (veil t f).wear :=
  bind_same rfl fun _ _ => Guise.wear_cqPush (veil_sparesCq c) rfl

lemma veil_rxScatter (i : SqIdx) (c : CqIdx) (frame : Bytes) (status hash : UInt32)
    (ds : List EnaRxDesc) (first : Bool) (off : ℕ) :
    enaRxScatter i c frame status hash ds first off ((veil t f).wear w) =
      (enaRxScatter i c frame status hash ds first off w).map fun r =>
        ((veil t f).wear r.1,r.2) := by
  induction ds generalizing first off w with
  | nil => rfl
  | cons d ds ih =>
    rw [enaRxScatter,enaRxScatter]
    simp only [veil_dmaWrite]
    exact bind_map (veil_rxPushCdesc _ _ _ _ _ _ _) fun w' _ => ih _ _

lemma veil_cqIntr (c : CqIdx) (isTx : Bool) :
    enaCqIntr ((veil t f).wear w) c isTx = (veil t f).wear (enaCqIntr w c isTx) :=
  Guise.wear_cqIntr (veil_sparesCq c) (fun v _ => veil_sparesIrq v) isTx

lemma veil_rxDeliver (i : SqIdx) (c : CqIdx) (frame : Bytes) (hash : UInt32)
    (desc : List EnaRxDesc) :
    enaRxDeliver net ((veil t f).wear w) i c frame hash desc =
      (enaRxDeliver net w i c frame hash desc).map (veil t f).wear := by
  unfold enaRxDeliver
  refine bind_map (veil_rxScatter _ _ _ _ _ _ _ _) fun r _ => bind_same rfl fun _ _ => ?_
  exact congrArg Except.ok (veil_cqIntr (w := World.setDev _ _) c false)

lemma veil_rxCollect (i : SqIdx) (len : ℕ) :
    enaRxCollect ((veil t f).wear w) i len =
      (enaRxCollect w i len).map fun r => ((veil t f).wear r.1,r.2) := by
  unfold enaRxCollect
  refine bind_same (veil_rxCollectFrom w.mem _ _ _ _ _) fun r _ => ?_
  cases r <;> rfl

/-- The RX path looks at the result of every read, so nothing needs to agree. -/
lemma veil_rxReceiveIov (frame : Bytes) :
    enaRxReceiveIov net ((veil t f).wear w) frame =
      (enaRxReceiveIov net w frame).map (veil t f).wear := by
  unfold enaRxReceiveIov
  refine ite_map Iff.rfl (fun _ => rfl) fun _ => bind_same rfl fun _ _ => ?_
  refine ite_map Iff.rfl (fun _ => rfl) fun _ => ?_
  simp only [veil_dev]
  cases enaRxSq w.dev (enaRssHash net w.dev frame) with
  | none => rfl
  | some i =>
    refine bind_same rfl fun c _ => ite_map Iff.rfl (fun _ => rfl) fun _ => ?_
    refine bind_map (veil_rxCollect i _) fun r _ => ?_
    obtain ⟨w',desc⟩ := r
    cases desc with
    | none => rfl
    | some desc => exact veil_rxDeliver i c frame _ desc

lemma veil_adminIntr : enaAdminIntr ((veil t f).wear w) = (veil t f).wear (enaAdminIntr w) := by
  unfold enaAdminIntr
  exact Guise.wear_ite Iff.rfl rfl (Guise.wear_emit (g := veil t f) (e := .msixNotify 0) rfl)

lemma veil_aenqPost (group : AenqGroup) (syndrome : UInt16) (data : Bytes) :
    enaAenqPost ((veil t f).wear w) group syndrome data =
      (enaAenqPost w group syndrome data).map (veil t f).wear := by
  unfold enaAenqPost
  refine bind_same rfl fun _ _ => ?_
  refine ite_map Iff.rfl (fun _ => rfl) fun _ => ite_map Iff.rfl (fun _ => rfl) fun _ => ?_
  refine ite_map Iff.rfl (fun _ => rfl) fun _ => bind_same rfl fun slot _ => ?_
  refine bind_same rfl fun lap _ => congrArg Except.ok ?_
  rw [veil_dmaWrite,veil_setDev,veil_adminIntr]
  rfl

lemma veil_postLinkChange :
    enaPostLinkChange ((veil t f).wear w) = (enaPostLinkChange w).map (veil t f).wear :=
  veil_aenqPost _ _ _

lemma veil_keepAlive :
    enaKeepAlive ((veil t f).wear w) = (enaKeepAlive w).map (veil t f).wear :=
  bind_map (veil_aenqPost _ _ _) fun _ _ => rfl

lemma veil_aenqConfig (groups : UInt32) :
    enaAenqConfig ((veil t f).wear w) groups = (enaAenqConfig w groups).map (veil t f).wear := by
  unfold enaAenqConfig
  dsimp only
  rw [veil_setDev]
  refine ite_map Iff.rfl (fun _ => bind_map veil_postLinkChange fun w' _ => ?_) fun _ => ?_
  · exact ite_map Iff.rfl (fun _ => rfl) fun _ => rfl
  · exact ite_map Iff.rfl (fun _ => rfl) fun _ => rfl

/-- The world in a command's result wears the veil. -/
def veilResp (t : List Event) (f : (UInt64 → UInt8) → UInt64 → UInt8)
    (r : AdminStatus × Bytes × World) : AdminStatus × Bytes × World :=
  (r.1,r.2.1,(veil t f).wear r.2.2)

lemma veil_getCtrlFeature (cmd : Bytes) (need : ℕ) (data resp : Bytes) :
    getCtrlFeature ((veil t f).wear w) cmd need data resp =
      (getCtrlFeature w cmd need data resp).map (veilResp t f) := by
  refine bind_same rfl fun buf _ => congrArg (fun w' => Except.ok (AdminStatus.success,resp,w')) ?_
  rw [veil_dmaWrite,apply_ite (veil t f).wear]

lemma veil_getFeature (cmd : Bytes) :
    enaGetFeature ((veil t f).wear w) cmd = (enaGetFeature w cmd).map (veilResp t f) := by
  unfold enaGetFeature
  refine ite_map Iff.rfl (fun _ => rfl) fun _ => ?_
  cases Feature.ofId (FeatCmd.ofBytes cmd).featureId with
  | none => rfl
  | some feat =>
    cases feat with
    | rssHashFunction => exact veil_getCtrlFeature _ _ _ _
    | rssHashInput => exact veil_getCtrlFeature _ _ _ _
    | rssIndirectionTableConfig => exact veil_getCtrlFeature _ _ _ _
    | maxQueuesExt => exact ite_map Iff.rfl (fun _ => rfl) fun _ => rfl
    | _ => rfl

/-- A control buffer that reads the same gives the rest of the command the same data. -/
lemma veil_ctrlRead {cmd : Bytes} {need : ℕ} {buf : UInt64}
    (h : ∀ a n, ctrlRead cmd need = some (a,n) → Unveiled f w.mem a n)
    (hbuf : enaCtrlBuf (FeatCmd.ofBytes cmd) need = .ok buf) (hne : ¬ buf = 0) :
    enaDmaRead ((veil t f).wear w) buf need = enaDmaRead w buf need := by
  refine h buf need ?_
  rw [ctrlRead,hbuf]
  exact if_neg hne

lemma veil_setFeature {cmd : Bytes} (hop : Opcode.ofCode (u8At cmd 2) = some .setFeature)
    (h : CmdReads (Unveiled f) w.mem cmd) :
    enaSetFeature ((veil t f).wear w) cmd = (enaSetFeature w cmd).map (veilResp t f) := by
  unfold enaSetFeature
  refine ite_map Iff.rfl (fun _ => rfl) fun hflags => ?_
  replace h := h hop (not_ne_iff.mp hflags)
  unfold setFeatureRead at h
  cases hid : Feature.ofId (FeatCmd.ofBytes cmd).featureId with
  | none => rfl
  | some feat =>
    rw [hid] at h
    cases feat with
    | hostAttrConfig =>
      refine ite_map Iff.rfl (fun _ => rfl) fun haddr => bind_same ?_ fun _ _ => rfl
      have hread : enaDmaRead ((veil t f).wear w) (enaMemAddr cmd 20) 196 =
        enaDmaRead w (enaMemAddr cmd 20) 196 := h _ _ (if_neg haddr)
      dsimp only
      rw [hread]
    | aenqConfig =>
      exact ite_map Iff.rfl (fun _ => rfl) fun _ => bind_map (veil_aenqConfig _) fun _ _ => rfl
    | mtu => exact ite_map Iff.rfl (fun _ => rfl) fun _ => rfl
    | llq => exact ite_map Iff.rfl (fun _ => rfl) fun _ => rfl
    | rssHashFunction =>
      refine ite_map Iff.rfl (fun _ => rfl) fun hfunc => bind_same rfl fun buf hbuf => ?_
      refine ite_map Iff.rfl (fun _ => rfl) fun hne => ?_
      have hread := veil_ctrlRead (t := t) (fun a n hr => h a n ((if_neg hfunc).trans hr)) hbuf hne
      dsimp only
      rw [hread]
      generalize (enaDmaRead w buf _).2 = data
      exact ite_map Iff.rfl (fun _ => rfl) fun _ => rfl
    | rssHashInput =>
      refine bind_same rfl fun buf hbuf => ite_map Iff.rfl (fun _ => rfl) fun hne => ?_
      have hread := veil_ctrlRead (t := t) h hbuf hne
      dsimp only
      rw [hread]
      generalize (enaDmaRead w buf _).2 = data
      exact ite_map Iff.rfl (fun _ => rfl) fun _ => rfl
    | rssIndirectionTableConfig =>
      refine ite_map Iff.rfl (fun _ => rfl) fun hsize =>
        ite_map Iff.rfl (fun _ => rfl) fun hinline => ?_
      refine bind_same rfl fun buf hbuf => ite_map Iff.rfl (fun _ => rfl) fun hne => ?_
      have hread := veil_ctrlRead (t := t)
        (fun a n hr => h a n ((if_neg (not_or.mpr ⟨hsize,hinline⟩)).trans hr)) hbuf hne
      dsimp only
      rw [hread]
      generalize (enaDmaRead w buf _).2 = data
      exact ite_map Iff.rfl (fun _ => rfl) fun _ => rfl
    | _ => rfl

lemma veil_adminExec {cmd : Bytes} (h : CmdReads (Unveiled f) w.mem cmd) :
    enaAdminExec ((veil t f).wear w) cmd = (enaAdminExec w cmd).map (veilResp t f) := by
  unfold enaAdminExec
  cases hop : Opcode.ofCode (u8At cmd 2) with
  | none => rfl
  | some op =>
    cases op with
    | createSq => exact bind_same rfl fun _ _ => rfl
    | getFeature => exact veil_getFeature cmd
    | setFeature => exact veil_setFeature hop h
    | _ => rfl

lemma veil_acqPush (r : AdminRings) (cmd : Bytes) (status : AdminStatus) (resp : Bytes) :
    enaAcqPush r ((veil t f).wear w) cmd status resp =
      (enaAcqPush r w cmd status resp).map (veil t f).wear := by
  unfold enaAcqPush
  refine bind_same rfl fun slot _ => bind_same rfl fun lap _ => congrArg Except.ok ?_
  rw [veil_dmaWrite,veil_setDev]
  rfl

lemma veil_adminStep {r : AdminRings} (hr : r.aqDepth ≠ 0)
    (hentry : Unveiled f w.mem (r.aqBase + (w.dev.aqHead % r.aqDepth).toUInt64*64) 64)
    (hcmd : CmdReads (Unveiled f) w.mem (w.aqCmd r)) :
    enaAdminStep r ((veil t f).wear w) = (enaAdminStep r w).map (veil t f).wear := by
  have hread : enaDmaRead ((veil t f).wear w) _ 64 = enaDmaRead w _ 64 := hentry
  unfold enaAdminStep
  rw [veil_dev,modDepth_of_ne_zero hr,ok_bind,ok_bind]
  dsimp only
  rw [hread,veil_setDev]
  change (enaAdminExec ((veil t f).wear w.aqTaken) (w.aqCmd r) >>= _) =
    (enaAdminExec w.aqTaken (w.aqCmd r) >>= _).map _
  refine bind_map (veil_adminExec hcmd) fun res _ => ?_
  obtain ⟨status,resp,w₁⟩ := res
  change enaAcqPush r (((veil t f).wear w₁).emit _) _ _ _ = _
  rw [Guise.wear_emit (g := veil t f) rfl]
  exact veil_acqPush r _ status resp

lemma veil_adminLoop {r : AdminRings} {tail : UInt16} (hr : r.aqDepth ≠ 0) (n : ℕ)
    (h : AdminReads (Unveiled f) r tail n w) :
    enaAdminLoop r tail n ((veil t f).wear w) = (enaAdminLoop r tail n w).map (veil t f).wear := by
  induction n generalizing w with
  | zero =>
    rw [enaAdminLoop,enaAdminLoop]
    exact ite_map Iff.rfl (fun _ => rfl) fun _ => rfl
  | succ n ih =>
    rw [enaAdminLoop,enaAdminLoop]
    refine ite_map Iff.rfl (fun _ => rfl) fun hne => ?_
    obtain ⟨hentry,hcmd,hnext⟩ := h hne
    exact bind_map (veil_adminStep hr hentry hcmd) fun w' hw' => ih (hnext w' hw')

lemma veil_adminProcess
    (h : w.dev.aqBase ≠ 0 → w.dev.acqBase ≠ 0 → w.dev.capsDepth regAqCaps ≠ 0 →
      w.dev.capsDepth regAcqCaps ≠ 0 →
      (w.dev.getReg regAqDb).toUInt16 - w.dev.aqHead ≤ w.dev.capsDepth regAqCaps →
      AdminReads (Unveiled f) w.dev.adminRings (w.dev.getReg regAqDb).toUInt16
        ((w.dev.getReg regAqDb).toUInt16 - w.dev.aqHead).toNat w) :
    enaAdminProcess ((veil t f).wear w) = (enaAdminProcess w).map (veil t f).wear := by
  unfold enaAdminProcess
  refine ite_map Iff.rfl (fun _ => rfl) fun hrings =>
    ite_map Iff.rfl (fun _ => rfl) fun hcount => ?_
  rw [not_or,not_or,not_or] at hrings
  obtain ⟨haq,hacq,hd,hd'⟩ := hrings
  refine bind_map (veil_adminLoop hd _ (h haq hacq hd hd' (UInt16.not_lt.mp hcount))) fun w' _ => ?_
  refine ite_map Iff.rfl (fun _ => congrArg Except.ok ?_) fun _ => rfl
  rw [veil_setDev,veil_adminIntr]
  rfl

lemma veil_txDoorbell {i : SqIdx} (hw : TableInv w.dev) (hu : (w.dev.sq i).used = true)
    (htx : (w.dev.sq i).isTx = true)
    (h : TxReads (Unveiled f) net i ((w.dev.sq i).tail - (w.dev.sq i).head).toNat w) :
    enaTxDoorbell net ((veil t f).wear w) i = (enaTxDoorbell net w i).map (veil t f).wear := by
  unfold enaTxDoorbell
  refine bind_same rfl fun _ _ => bind_same rfl fun c _ =>
    ite_map Iff.rfl (fun _ => rfl) fun _ => ?_
  exact veil_txDoorbellLoop _ hw hu htx h

lemma veil_sqDoorbell {i : SqIdx} {val : UInt32} (hw : TableInv w.dev)
    (h : (w.dev.sq i).used = true → (w.dev.sq i).isTx = true →
      val.toUInt16 - (w.dev.sq i).head ≤ (w.dev.sq i).depth →
      TxReads (Unveiled f) net i (val.toUInt16 - (w.dev.sq i).head).toNat
        (w.setSq i { w.dev.sq i with tail := val.toUInt16 })) :
    enaSqDoorbell net ((veil t f).wear w) i val = (enaSqDoorbell net w i val).map
      (veil t f).wear := by
  unfold enaSqDoorbell
  refine ite_map Iff.rfl (fun _ => rfl) fun hu => ite_map Iff.rfl (fun _ => rfl) fun hcount => ?_
  rw [Bool.not_eq_true,Bool.not_eq_false'] at hu
  replace hcount := UInt16.not_lt.mp hcount
  have hset : (w.setSq i { w.dev.sq i with tail := val.toUInt16 }).dev.sq i =
    { w.dev.sq i with tail := val.toUInt16 } := World.setSq_sq _ _ _
  refine ite_map Iff.rfl (fun htx => ?_) fun _ => bind_same rfl fun _ _ => ?_
  · have hreads := h hu htx hcount
    have htail : Effect w (.regWrite (regSqDbBase + 4*i.val) 0) w _ :=
      .sqTail i val.toUInt16 (doorbell_regWrite i 0) hcount
    refine veil_txDoorbell (htail.tableInv hw) (by rw [hset]; exact hu) (by rw [hset]; exact htx) ?_
    rw [hset]
    exact hreads
  · exact congrArg Except.ok (Guise.wear_emit (g := veil t f) (w := w.setSq i _) rfl)

lemma veil_irqResume (v : Vec) :
    enaIrqResume ((veil t f).wear w) v = (veil t f).wear (enaIrqResume w v) := by
  have hsched : ∀ (w : World) delay, enaIrqSchedule ((veil t f).wear w) v delay =
    (veil t f).wear (enaIrqSchedule w v delay) := fun _ delay =>
      Guise.wear_irqSchedule (veil_sparesIrq v) delay
  have hfirst : (if (((veil t f).wear w).dev.irq v).rxPending then
      enaIrqSchedule ((veil t f).wear w) v (((veil t f).wear w).dev.irq v).rxDelayUs else
        (veil t f).wear w) =
      (veil t f).wear (if (w.dev.irq v).rxPending then enaIrqSchedule w v
        (w.dev.irq v).rxDelayUs else w) :=
    Guise.wear_ite Iff.rfl (hsched _ _) rfl
  unfold enaIrqResume
  rw [hfirst]
  exact Guise.wear_ite Iff.rfl (hsched _ _) rfl

lemma veil_cqUnmaskWrite (c : CqIdx) (val : UInt32) :
    enaCqUnmaskWrite ((veil t f).wear w) c val = (veil t f).wear (enaCqUnmaskWrite w c val) := by
  unfold enaCqUnmaskWrite
  refine Guise.wear_ite Iff.rfl ?_ rfl
  simp only [veil_dev]
  cases (w.dev.cq c).vec with
  | none => rfl
  | some v => exact Guise.wear_ite Iff.rfl (veil_irqResume (w := World.setDev _ _) v) rfl

lemma veil_mmioReadless (req : UInt32) :
    enaMmioReadless ((veil t f).wear w) req = (veil t f).wear (enaMmioReadless w req) :=
  Guise.wear_ite Iff.rfl rfl (veil_dmaWrite _ _ _)

lemma veil_devReset : enaDevReset ((veil t f).wear w) = (veil t f).wear (enaDevReset w) := by
  unfold enaDevReset
  rw [veil_dev,veil_setDev,Guise.wear_emit (g := veil t f) rfl]

lemma veil_devCtlWrite (val : UInt32) :
    enaDevCtlWrite ((veil t f).wear w) val = (enaDevCtlWrite w val).map (veil t f).wear := by
  unfold enaDevCtlWrite
  refine ite_map Iff.rfl (fun _ => rfl) fun _ => ite_map Iff.rfl (fun _ => ?_) fun _ => ?_
  · rw [veil_devReset]
    rfl
  · exact ite_map Iff.rfl (fun _ => rfl) fun _ => rfl

lemma veil_regWrite {addr : ℕ} {val : UInt64} (hw : TableInv w.dev)
    (h : UncheckedReads (Unveiled f) net w (.regWrite addr val)) :
    enaRegWrite net ((veil t f).wear w) addr val = (enaRegWrite net w addr val).map
      (veil t f).wear := by
  obtain ⟨htx,hadmin⟩ := h
  unfold enaRegWrite
  refine dite_map (fun hdb => ?_) fun _ => dite_map (fun _ => congrArg Except.ok ?_) fun _ => ?_
  · exact veil_sqDoorbell hw fun hu hisTx hcount => htx _ (dif_pos hdb) hu hisTx hcount
  · exact veil_cqUnmaskWrite _ _
  refine ite_map Iff.rfl (fun _ => rfl) fun _ => ite_map Iff.rfl (fun _ => rfl) fun _ => ?_
  refine ite_map Iff.rfl (fun _ => veil_devCtlWrite _) fun _ => ?_
  refine ite_map Iff.rfl (fun _ => congrArg Except.ok ?_) fun _ => ?_
  · rw [veil_setDev]
    exact veil_mmioReadless _
  refine ite_map Iff.rfl (fun haq => ?_) fun _ => ?_
  · subst haq
    rw [veil_setDev]
    exact veil_adminProcess fun haq hacq hd hd' hcount => hadmin rfl haq hacq hd hd' hcount
  refine ite_map Iff.rfl (fun _ => bind_same rfl fun _ _ => rfl) fun _ => ?_
  refine ite_map Iff.rfl (fun _ => bind_same rfl fun _ _ => rfl) fun _ => ?_
  refine ite_map Iff.rfl (fun _ => bind_same rfl fun _ _ => rfl) fun _ => ?_
  refine ite_map Iff.rfl (fun _ => rfl) fun _ => ite_map Iff.rfl (fun _ => ?_) fun _ => rfl
  exact ite_map Iff.rfl (fun _ => rfl) fun _ => rfl

/-- One step behind the veil: the same outcome, the same events. -/
theorem veil_step {inp : Input} (hw : TableInv w.dev) (hguest : ∀ m l, inp ≠ .guest m l)
    (h : UncheckedReads (Unveiled f) net w inp) :
    step net ((veil t f).wear w) inp = (step net w inp).map (veil t f).wear := by
  cases inp with
  | regWrite addr val => exact veil_regWrite hw h
  | receive frame => exact veil_rxReceiveIov frame
  | moderTimer v =>
    refine ite_map Iff.rfl (fun _ => congrArg Except.ok ?_) fun _ => rfl
    exact Guise.wear_irqFire (veil_sparesIrq v)
  | keepAliveTimer =>
    exact ite_map Iff.rfl (fun _ => veil_keepAlive (w := World.setDev _ _)) fun _ => rfl
  | linkChange up => exact veil_postLinkChange (w := { w with linkUp := up })
  | qdevReset => exact congrArg Except.ok veil_devReset
  | guest mem llq => exact absurd rfl (hguest mem llq)
  | tick ns => rfl

end Veil
end EnaDevice
