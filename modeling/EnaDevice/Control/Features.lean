import EnaDevice.Control.Step
import EnaDevice.Admin.Exchange

/-! The features that a driver sets and gets back are independent cells: what `GET_FEATURE` reports
is what the last successful `SET_FEATURE` stored, whatever else happens to the device. -/
namespace EnaDevice
open Bytes Result Relation

/-- A setting of one feature, in the fields of its structures. -/
inductive FeatureValue
  | mtu (mtu : UInt32)
  | aenqConfig (enabledGroups : UInt32)
  | llq (headerLocation entrySize descNum stride : UInt16)
  | rssHashFunction (selectedFunc initVal keyParts : UInt32) (key : Fin 10 → UInt32)
  | rssHashInput (selectedFields : Fin 16 → UInt16)
  | rssIndirectionTable (entries : Fin 128 → UInt16)
  deriving DecidableEq

namespace FeatureValue

def feature : FeatureValue → Feature
  | .mtu _ => .mtu
  | .aenqConfig _ => .aenqConfig
  | .llq .. => .llq
  | .rssHashFunction .. => .rssHashFunction
  | .rssHashInput _ => .rssHashInput
  | .rssIndirectionTable _ => .rssIndirectionTableConfig

/-- What a `SET_FEATURE` command asks for, in the command and in its control buffer. -/
def ofSet (m : Memory) (cmd : Bytes) : Option FeatureValue :=
  let ctrl n := (m.read (enaMemAddr cmd 8) n).2
  match Feature.ofId (u8At cmd 17) with
  | some .mtu => some (.mtu (le32At cmd 20))
  | some .aenqConfig => some (.aenqConfig (le32At cmd 24))
  | some .llq => some (.llq (le16At cmd 30) (le16At cmd 34) (le16At cmd 38) (le16At cmd 42))
  | some .rssHashFunction =>
    some (.rssHashFunction (le32At cmd 24) (le32At cmd 28) (le32At (ctrl rssKeySize) 0)
      fun i => le32At (ctrl rssKeySize) (8 + 4*i))
  | some .rssHashInput => some (.rssHashInput fun i => le16At (ctrl rssHashCtrlSize) (64 + 4*i))
  | some .rssIndirectionTableConfig =>
      some (.rssIndirectionTable fun i => le16At (ctrl rssIndTblSize) (4*i))
  | _ => none

/-- What a `GET_FEATURE` command answers, in the response and in its control buffer. -/
def ofGet (m : Memory) (cmd resp : Bytes) : Option FeatureValue :=
  let ctrl n := m.bytesAt (enaMemAddr cmd 8) n
  match Feature.ofId (u8At cmd 17) with
  | some .mtu => some (.mtu (le32At resp 0))
  | some .aenqConfig => some (.aenqConfig (le32At resp 4))
  | some .llq => some (.llq (le16At resp 10) (le16At resp 14) (le16At resp 18) (le16At resp 22))
  | some .rssHashFunction =>
    some (.rssHashFunction (le32At resp 4) (le32At resp 8) (le32At (ctrl rssKeySize) 0)
      fun i => le32At (ctrl rssKeySize) (8 + 4*i))
  | some .rssHashInput => some (.rssHashInput fun i => le16At (ctrl rssHashCtrlSize) (64 + 4*i))
  | some .rssIndirectionTableConfig =>
      some (.rssIndirectionTable fun i => le16At (ctrl rssIndTblSize) (4*i))
  | _ => none

/-- Hash fields are masked with the supported ones, field by field. -/
def normal : FeatureValue → FeatureValue
  | .rssHashInput fields => .rssHashInput fun i => fields i &&& enaRssSupportedFields i
  | v => v

end FeatureValue

/-- The cells of the device. -/
def EnaState.featureValue (s : EnaState) : Feature → Option FeatureValue
  | .mtu => some (.mtu s.mtu)
  | .aenqConfig => some (.aenqConfig s.aenqGroups)
  | .llq => some (.llq (if s.llqEnabled then 1 else 0)
      (if s.llqEntrySize = enaLlqLargeEntrySize then 4 else if s.llqEnabled then 1 else 0)
      (if s.llqEnabled then 2 else 0) (if s.llqEnabled then 2 else 0))
  | .rssHashFunction => some (.rssHashFunction (bit 1) s.rss.initVal s.rss.keyParts s.rss.key)
  | .rssHashInput => some (.rssHashInput s.rss.fields)
  | .rssIndirectionTableConfig => some (.rssIndirectionTable s.rss.indTbl)
  | _ => none

/-- A `SET_FEATURE` command of a feature. -/
def IsSet (f : Feature) (cmd : Bytes) : Prop :=
  Opcode.ofCode (u8At cmd 2) = some .setFeature ∧ Feature.ofId (u8At cmd 17) = some f

/-- Size of the control buffer that a feature is reported in, if it uses one. -/
def Feature.ctrlSize : Feature → Option ℕ
  | .rssHashFunction => some rssKeySize
  | .rssHashInput => some rssHashCtrlSize
  | .rssIndirectionTableConfig => some rssIndTblSize
  | _ => none

/-- A `GET_FEATURE` command of a feature, with a long enough indirect control buffer where one is
used. -/
structure IsGet (f : Feature) (cmd : Bytes) : Prop where
  opcode : Opcode.ofCode (u8At cmd 2) = some .getFeature
  select : u8At cmd 16 &&& 3 = 0
  feature : Feature.ofId (u8At cmd 17) = some f
  ctrlBuf : ∀ n, f.ctrlSize = some n →
    n ≤ (le32At cmd 4).toNat ∧ u8At cmd 3 &&& 4 ≠ 0 ∧ enaMemAddr cmd 8 ≠ 0

/-- A successful `SET_FEATURE` of a value. -/
def Sets (w : World) (v : FeatureValue) (w' : World) : Prop :=
  ∃ cmd resp, IsSet v.feature cmd ∧ FeatureValue.ofSet w.mem cmd = some v ∧
    enaAdminExec w cmd = .ok (.success,resp,w')

/-- Every `GET_FEATURE` of the feature reports the value and leaves the device as it is. -/
def Reports (w : World) (v : FeatureValue) : Prop :=
  ∀ cmd, IsGet v.feature cmd → ∃ resp w', enaAdminExec w cmd = .ok (.success,resp,w') ∧
    w'.dev = w.dev ∧ FeatureValue.ofGet w'.mem cmd resp = some v

section Get
variable {w : World} {cmd : Bytes} {f : Feature} {v : FeatureValue}

/-- A report through a control buffer writes the buffer. -/
lemma getCtrlFeature_eq {need : ℕ} (data resp : Bytes) (hlen : need ≤ (le32At cmd 4).toNat)
    (hflag : u8At cmd 3 &&& 4 ≠ 0) (haddr : enaMemAddr cmd 8 ≠ 0) :
    getCtrlFeature w cmd need data resp =
      .ok (.success,resp,enaDmaWrite w (.ctrlBuf cmd) (enaMemAddr cmd 8) data) := by
  have hbuf : enaCtrlBuf (FeatCmd.ofBytes cmd) need = .ok (enaMemAddr cmd 8) := by
    unfold enaCtrlBuf FeatCmd.ofBytes
    dsimp only
    rw [if_neg (Nat.not_lt.mpr hlen),if_neg hflag]
  unfold getCtrlFeature
  rw [hbuf,ok_bind,if_pos haddr]
  rfl

lemma rssKeyBytes_words (s : EnaState) :
    le32At (rssKeyBytes s) 0 = s.rss.keyParts ∧
    ∀ i : Fin 10, le32At (rssKeyBytes s) (8 + 4*i) = s.rss.key i := by
  constructor
  · rw [rssKeyBytes,List.append_assoc]
    exact le32At_ofLe32 _ _
  · intro i
    have hhead := le32At_append_right (ofLe32 s.rss.keyParts ++ zeros 4)
      (List.ofFn fun i => ofLe32 (s.rss.key i)).flatten (4*i)
    have htable := le32At_table (fun i => ofLe32 (s.rss.key i)) (fun _ => ofLe32_length _) i 0
      (by decide) []
    rw [List.append_nil] at htable
    exact hhead.trans (htable.trans (by rw [← List.append_nil (ofLe32 _),le32At_ofLe32]))

lemma enaFillHashCtrl_selected (s : EnaState) (i : Fin 16) :
    le16At (enaFillHashCtrl s) (64 + 4*i) = s.rss.fields i := by
  have hsupp : (List.ofFn fun i => ofLe16 (enaRssSupportedFields i) ++ zeros 2).flatten.length =
      64 :=
    flatten_ofFn_length (k := 4) _ fun _ => rfl
  have hhead := le16At_append_right
    (List.ofFn fun i => ofLe16 (enaRssSupportedFields i) ++ zeros 2).flatten
    ((List.ofFn fun i => ofLe16 (s.rss.fields i) ++ zeros 2).flatten ++ zeros 128) (4*i)
  have htable := le16At_table (k := 4) (fun i => ofLe16 (s.rss.fields i) ++ zeros 2)
    (fun _ => rfl) i 0
    (by decide) (zeros 128)
  rw [hsupp] at hhead
  rw [enaFillHashCtrl,List.append_assoc,hhead]
  exact htable.trans (le16At_ofLe16 _ _)

lemma rssIndTblBytes_entry (s : EnaState) (i : Fin 128) : le16At (rssIndTblBytes s)
    (4*i) = s.rss.indTbl i := by
  have htable := le16At_table (k := 4) (fun i => ofLe16 (s.rss.indTbl i) ++ zeros 2)
    (fun _ => rfl) i 0
    (by decide) []
  rw [List.append_nil] at htable
  exact htable.trans (le16At_ofLe16 _ _)

/-- The fields of the LLQ descriptor that show what is enabled. -/
lemma llqResp_enabled (s : EnaState) (version : UInt8) :
    le16At (llqResp s version) 10 = (if s.llqEnabled then 1 else 0) ∧
      le16At (llqResp s version) 14 = (if s.llqEntrySize = enaLlqLargeEntrySize then 4
        else if s.llqEnabled then 1 else 0) ∧
      le16At (llqResp s version) 18 = (if s.llqEnabled then 2 else 0) ∧
      le16At (llqResp s version) 22 = (if s.llqEnabled then 2 else 0) := by
  simp only [llqResp,List.append_assoc,le16At_skip32,le16At_skip16,le16At_ofLe16,and_self]

/-- A buffer that was just written holds what was written. -/
lemma bytesAt_dmaWrite (w : World) (site : WriteSite) (a : UInt64) {n : ℕ} {data : Bytes}
    (hlen : data.length = n) (hn : n ≤ 2^64) :
    (enaDmaWrite w site a data).mem.bytesAt a n = data := by
  subst hlen
  exact Memory.bytesAt_write_self w.mem a hn

/-- The decoders read back what the encoders of `GET_FEATURE` write. -/
theorem reports_featureValue (hv : w.dev.featureValue f = some v) : Reports w v := by
  have hfeature : v.feature = f := by
    cases f <;> cases hv <;> rfl
  intro cmd hget
  rw [hfeature] at hget
  have hexec : enaAdminExec w cmd = enaGetFeature w cmd := by
    unfold enaAdminExec
    rw [hget.opcode]
  have hsel : ¬ (FeatCmd.ofBytes cmd).featFlags &&& 3 ≠ 0 := not_ne_iff.mpr hget.select
  have hid : Feature.ofId (FeatCmd.ofBytes cmd).featureId = some f := hget.feature
  have hctrl := hget.ctrlBuf
  rw [hexec]
  unfold enaGetFeature FeatureValue.ofGet
  dsimp only
  rw [if_neg hsel,hid,hget.feature]
  cases f with
  | mtu =>
    cases hv
    refine ⟨_,w,rfl,rfl,?_⟩
    dsimp only
    rw [← List.append_nil (ofLe32 _),le32At_ofLe32]
  | aenqConfig =>
    cases hv
    refine ⟨_,w,rfl,rfl,?_⟩
    have hgroups : le32At (ofLe32 enaSupportedAenqGroups ++ ofLe32 w.dev.aenqGroups) 4 =
        w.dev.aenqGroups :=
      le32At_ofLe32 _ []
    dsimp only
    rw [hgroups]
  | llq =>
    cases hv
    obtain ⟨h0,h1,h2,h3⟩ := llqResp_enabled w.dev (FeatCmd.ofBytes cmd).featureVersion
    refine ⟨_,w,rfl,rfl,?_⟩
    dsimp only
    rw [h0,h1,h2,h3]
  | rssHashFunction =>
    cases hv
    obtain ⟨hlen,hflag,haddr⟩ := hctrl _ rfl
    obtain ⟨hparts,hkey⟩ := rssKeyBytes_words w.dev
    refine ⟨_,_,getCtrlFeature_eq _ _ hlen hflag haddr,rfl,?_⟩
    dsimp only
    rw [bytesAt_dmaWrite w _ _ (rssKeyBytes_length w.dev) (by decide),hparts]
    simp only [hkey]
    congr 2
    exact le32At_ofLe32 _ []
  | rssHashInput =>
    cases hv
    obtain ⟨hlen,hflag,haddr⟩ := hctrl _ rfl
    refine ⟨_,_,getCtrlFeature_eq _ _ hlen hflag haddr,rfl,?_⟩
    dsimp only
    rw [bytesAt_dmaWrite w _ _ (enaFillHashCtrl_length w.dev) (by decide)]
    simp only [enaFillHashCtrl_selected]
  | rssIndirectionTableConfig =>
    cases hv
    obtain ⟨hlen,hflag,haddr⟩ := hctrl _ rfl
    refine ⟨_,_,getCtrlFeature_eq _ _ hlen hflag haddr,rfl,?_⟩
    dsimp only
    rw [bytesAt_dmaWrite w _ _ (rssIndTblBytes_length w.dev) (by decide)]
    simp only [rssIndTblBytes_entry]
  | _ => cases hv

/-- `GET_FEATURE` does not change the device. -/
lemma enaGetFeature_dev : Holds (fun _ => True) (fun r => r.2.2.dev = w.dev)
    (enaGetFeature w cmd) := by
  have hctrl : ∀ need data resp,
      Holds (fun _ => True) (fun r => r.2.2.dev = w.dev) (getCtrlFeature w cmd need data resp) := by
    intro need data resp
    refine holds_bind (holds_of_ok fun _ _ => trivial) fun buf _ _ => holds_pure ?_
    dsimp only
    split_ifs <;> rfl
  unfold enaGetFeature
  refine holds_ite (fun _ => holds_throw trivial) fun _ => ?_
  split
  case h_3 => exact holds_ite (fun _ => holds_pure rfl) fun _ => holds_pure rfl
  case h_10 => exact hctrl _ _ _
  case h_11 => exact hctrl _ _ _
  case h_12 => exact hctrl _ _ _
  all_goals exact holds_pure rfl

end Get

section Set
variable {w w' : World} {cmd : Bytes} {f : Feature} {v : FeatureValue}

/-- What a command does to the cells: nothing, or a successful `SET_FEATURE` writes one of them. -/
inductive CellsAfter (w : World) (cmd : Bytes) : AdminStatus × Bytes × World → Prop
  | same {status : AdminStatus} {resp : Bytes} {w' : World}
    (h : w'.dev.featureValue = w.dev.featureValue)
    (hno : status = .success → Opcode.ofCode (u8At cmd 2) = some .setFeature →
      FeatureValue.ofSet w.mem cmd = none) : CellsAfter w cmd (status,resp,w')
  | set {resp : Bytes} {w' : World} {v : FeatureValue} (hset : IsSet v.feature cmd)
    (hv : FeatureValue.ofSet w.mem cmd = some v)
    (h : w'.dev.featureValue = Function.update w.dev.featureValue v.feature (some v.normal)) :
    CellsAfter w cmd (.success,resp,w')

lemma featureValue_sameControl {s s' : EnaState} (h : SameControl s s') :
    s'.featureValue = s.featureValue := by
  funext f
  unfold SameControl at h
  rw [h]
  cases f <;> rfl

lemma AenqPosted.featureValue (h : AenqPosted w w') : w'.dev.featureValue = w.dev.featureValue := by
  cases h with
  | skipped => rfl
  | posted =>
    funext f
    rw [dev_adminIntr]
    cases f <;> rfl

lemma AenqConfigured.featureValue {groups : UInt32} (h : AenqConfigured w groups w') :
    w'.dev.featureValue = Function.update w.dev.featureValue .aenqConfig
      (some (.aenqConfig groups)) := by
  obtain ⟨w₁,timer,hpost,rfl⟩ := h
  have hcells : (w₁.setDev { w₁.dev with keepAliveTimer := timer }).dev.featureValue =
      w₁.dev.featureValue := by
    funext f
    cases f <;> rfl
  rw [hcells,hpost.featureValue]
  funext f
  cases f <;> rfl

lemma QueueCmd.featureValue {s : EnaState} {r : AdminStatus × Bytes × EnaState} (h : QueueCmd s r) :
    r.2.2.featureValue = s.featureValue := by
  funext f
  cases h <;> cases f <;> rfl

lemma CellsAfter.refused {status : AdminStatus} {resp : Bytes} (h : status ≠ .success) :
    CellsAfter w cmd (status,resp,w) := .same rfl fun hs => absurd hs h

lemma FeatureSet.cells {r : AdminStatus × Bytes × World} (h : FeatureSet w cmd r)
    (hop : Opcode.ofCode (u8At cmd 2) = some .setFeature) : CellsAfter w cmd r := by
  have hattr : (w.dev.setHostAttr cmd).featureValue = w.dev.featureValue := by
    funext f
    cases f <;> rfl
  cases h with
  | refused hne => exact .refused hne
  | hostAttrRefused => exact .same hattr nofun
  | hostAttr hid =>
    refine .same hattr fun _ _ => ?_
    simp only [FeatureValue.ofSet,hid]
  | aenqConfig hid hc =>
    have hcells := ((enaAenqConfig_spec w _).of_ok hc).featureValue
    refine .set (v := .aenqConfig (le32At cmd 24)) ⟨hop,hid⟩ ?_ hcells
    simp only [FeatureValue.ofSet,hid]
  | mtu hid =>
    refine .set (v := .mtu (le32At cmd 20)) ⟨hop,hid⟩ ?_ ?_
    · simp only [FeatureValue.ofSet,hid]
    · funext f
      cases f <;> rfl
  | llq hid hloc hentry hdesc hstride =>
    refine .set (v := .llq 1 (le16At cmd 34) 2 2) ⟨hop,hid⟩ ?_ ?_
    · simp only [FeatureValue.ofSet,hid,hloc,hdesc,hstride]
    · have hsize : (if llqEntrySizeOf (le16At cmd 34) = enaLlqLargeEntrySize then
        (4 : UInt16) else 1) =
          le16At cmd 34 := by
        rcases hentry with he | he
        · rw [he]
          rfl
        · rw [he]
          rfl
      funext f
      cases f with
      | llq =>
        change some (FeatureValue.llq 1
          (if llqEntrySizeOf (le16At cmd 34) = enaLlqLargeEntrySize then 4 else 1) 2 2) = _
        rw [hsize]
        rfl
      | _ => rfl
  | rssKey hid hfunc key hkey =>
    refine .set (v := .rssHashFunction (bit 1) (le32At cmd 28) (le32At key 0) fun i =>
      le32At key (8 + 4*i))
      ⟨hop,hid⟩ ?_ ?_
    · rw [hkey]
      simp only [FeatureValue.ofSet,hid,hfunc]
      rfl
    · funext f
      cases f <;> rfl
  | rssFields hid ctrl hctrl =>
    refine .set (v := .rssHashInput fun i => le16At ctrl (64 + 4*i)) ⟨hop,hid⟩ ?_ ?_
    · rw [hctrl]
      simp only [FeatureValue.ofSet,hid]
      rfl
    · funext f
      cases f <;> rfl
  | rssIndTbl hid tbl htbl =>
    refine .set (v := .rssIndirectionTable fun i => le16At tbl (4*i)) ⟨hop,hid⟩ ?_ ?_
    · rw [htbl]
      simp only [FeatureValue.ofSet,hid]
      rfl
    · funext f
      cases f <;> rfl

theorem enaAdminExec_cells : Holds (fun _ => True) (CellsAfter w cmd) (enaAdminExec w cmd) := by
  have hother : ∀ {op : Option Opcode} {r : AdminStatus × Bytes × World},
    Opcode.ofCode (u8At cmd 2) = op →
      op ≠ some .setFeature → r.2.2.dev.featureValue = w.dev.featureValue → CellsAfter w cmd r :=
    fun hop hne h => .same h fun _ hset => absurd (hop.symm.trans hset) hne
  unfold enaAdminExec
  split
  case h_1 hop =>
    refine holds_bind (holds_imp (enaCreateSq_spec w.dev cmd) (fun _ _ => trivial) fun _ => id) ?_
    exact fun _ _ h => holds_pure (hother hop (by decide) h.featureValue)
  case h_2 hop =>
    exact holds_pure (hother hop (by decide) (enaDestroySq_spec w.dev cmd).featureValue)
  case h_3 hop =>
    exact holds_pure (hother hop (by decide) (enaCreateCq_spec w.dev cmd).featureValue)
  case h_4 hop =>
    exact holds_pure (hother hop (by decide) (enaDestroyCq_spec w.dev cmd).featureValue)
  case h_5 hop => exact holds_mono enaGetFeature_dev fun _ h => hother hop (by decide) (by rw [h])
  case h_6 hop =>
    exact holds_imp (enaSetFeature_cases w cmd) (fun _ _ => trivial) fun _ h => h.cells hop
  case h_7 hop => exact holds_pure (hother hop (by decide) rfl)
  case h_8 hop => exact holds_pure (hother hop (by decide) rfl)

/-- A successful `SET_FEATURE` of a value writes the cell of the value and no other. -/
lemma Sets.cells (h : Sets w v w') :
    w'.dev.featureValue = Function.update w.dev.featureValue v.feature (some v.normal) := by
  obtain ⟨cmd,resp,hset,hv,hexec⟩ := h
  cases enaAdminExec_cells.of_ok hexec with
  | same _ hno => exact absurd (hv.symm.trans (hno rfl hset.1)) (by simp)
  | set _ hv' hcells =>
    obtain rfl := Option.some.inj (hv.symm.trans hv')
    exact hcells

/-- A command that is no successful `SET_FEATURE` of the feature keeps its cell. -/
lemma enaAdminExec_keeps {status : AdminStatus} {resp : Bytes}
    (h : enaAdminExec w cmd = .ok (status,resp,w')) (hno : status = .success → ¬ IsSet f cmd) :
    w'.dev.featureValue f = w.dev.featureValue f := by
  cases enaAdminExec_cells.of_ok h with
  | same hcells => rw [hcells]
  | @set _ _ v hset _ hcells =>
    have hne : f ≠ v.feature := by
      rintro rfl
      exact hno rfl hset
    rw [hcells,Function.update_of_ne hne]

end Set

/-- An input that resets the device. -/
def Input.Resets : Input → Prop
  | .qdevReset => True
  | .regWrite addr val => addr = regDevCtl ∧ val.toUInt32 &&& 1 ≠ 0
  | _ => False

/-- The parts of admin processing: a command is fetched, executed and completed, and at the end of a
batch the tail register is written and the interrupt raised. The command executed is named, with its
status. -/
inductive AdminPart (w : World) : Option (Bytes × AdminStatus) → World → Prop
  | fetch : AdminPart w none w.aqTaken
  | exec {w' : World} {cmd resp : Bytes} {status : AdminStatus}
    (h : enaAdminExec w cmd = .ok (status,resp,w')) : AdminPart w (some (cmd,status)) w'
  | complete {w' : World} {r : AdminRings} {cmd resp : Bytes} {status : AdminStatus}
    (h : enaAcqPush r (w.emit (.adminExec cmd status.code)) cmd status resp = .ok w') :
    AdminPart w none w'
  | tail : AdminPart w none (w.setDev (w.dev.setReg regAcqTail w.dev.acqTail.toUInt32))
  | intr : AdminPart w none (enaAdminIntr w)

/-- Reachable states, and those in the middle of an admin batch. -/
inductive Underway (net : Net) : World → Prop
  | reached {w : World} (h : Reachable net w) : Underway net w
  | rung {w : World} (h : Reachable net w) (val : UInt64) :
    Underway net (w.setDev (w.dev.setReg regAqDb val.toUInt32))
  | part {w w' : World} {cmd : Option (Bytes × AdminStatus)} (h : Underway net w)
    (hp : AdminPart w cmd w') : Underway net w'

/-- What may happen without a reset and without a successful `SET_FEATURE` of the feature: the parts
of admin processing one by one, and whole steps of the device. -/
inductive FeatureStep (net : Net) (f : Feature) (w : World) : World → Prop
  | part {w' : World} {done : Option (Bytes × AdminStatus)} (h : AdminPart w done w')
    (hno : ∀ cmd, done = some (cmd,.success) → ¬ IsSet f cmd) : FeatureStep net f w w'
  | step {w' : World} {inp : Input} (h : step net w inp = .ok w') (hreset : ¬ inp.Resets)
    (hno : ∀ cmd, (cmd,AdminStatus.success.code) ∈ newExecs w w' → ¬ IsSet f cmd) :
    FeatureStep net f w w'

section Run
variable {net : Net} {w w' : World} {f : Feature}

lemma executed_trace {cmd resp : Bytes} {status : AdminStatus}
    (h : enaAdminExec w cmd = .ok (status,resp,w')) :
    ∃ es, w'.trace = w.trace ++ es := by
  have hpath : Path w .qdevReset w w' := ((enaAdminExec_spec w cmd).of_ok h).path trivial
  obtain ⟨es,he,-⟩ := hpath.confined
  exact ⟨es,he⟩

lemma acqPushed_trace (w : World) (r : AdminRings) (cmd : Bytes) (status : AdminStatus)
    (resp : Bytes) :
    ∃ d, (w.acqPushed r cmd status resp).trace = w.trace ++ [d] := ⟨_,rfl⟩

/-- What holds before the doorbell and survives the commands that it executes holds after it. A
command that succeeds is one of the trace. -/
theorem AdminRan.preserves_executed {M : World → Prop} {ok : Bytes → Prop} (h : AdminRan w w')
    (hok : ∀ cmd, (cmd,AdminStatus.success.code) ∈ newExecs w w' → ok cmd) (hstart : M w)
    (hexec : ∀ r u status resp u₁, M u → (status = .success → ok (u.aqCmd r)) →
      enaAdminExec u.aqTaken (u.aqCmd r) = .ok (status,resp,u₁) →
      M ((u₁.emit (.adminExec (u.aqCmd r) status.code)).acqPushed r (u.aqCmd r) status resp))
    (htail : ∀ u, M u → M (u.setDev (u.dev.setReg regAcqTail u.dev.acqTail.toUInt32)))
    (hintr : ∀ u, M u → M (enaAdminIntr u)) : M w' := by
  have hran : ∃ es, w'.trace = w.trace ++ es ∧
      ((∀ cmd, (cmd,AdminStatus.success.code) ∈ es.filterMap Event.exec → ok cmd) → M w') := by
    refine h.preserves (M := fun u => ∃ es, u.trace = w.trace ++ es ∧
      ((∀ cmd, (cmd,AdminStatus.success.code) ∈ es.filterMap Event.exec → ok cmd) → M u))
      ⟨[],(List.append_nil _).symm,fun _ => hstart⟩ ?_ ?_ ?_
    · rintro r u status resp u₁ ⟨es,he,hkeep⟩ hex
      obtain ⟨fs,hf⟩ := executed_trace hex
      obtain ⟨d,hd⟩ := acqPushed_trace (u₁.emit (.adminExec (u.aqCmd r) status.code)) r
        (u.aqCmd r) status resp
      have htrace : ((u₁.emit (.adminExec (u.aqCmd r) status.code)).acqPushed r
        (u.aqCmd r) status resp).trace =
          w.trace ++ (es ++ fs ++ [.adminExec (u.aqCmd r) status.code] ++ [d]) := by
        have htaken : u.aqTaken.trace = w.trace ++ es := he
        rw [hd,World.emit,hf,htaken]
        simp only [List.append_assoc]
      refine ⟨_,htrace,fun hok => ?_⟩
      have hearlier : M u := by
        refine hkeep fun cmd hmem => hok cmd ?_
        simp only [List.filterMap_append,List.mem_append]
        exact .inl (.inl (.inl hmem))
      refine hexec r u status resp u₁ hearlier (fun hs => hok _ ?_) hex
      simp only [List.filterMap_append,List.mem_append]
      refine .inl (.inr ?_)
      rw [hs]
      exact List.mem_singleton.mpr rfl
    · rintro u ⟨es,he,hkeep⟩
      exact ⟨es,he,fun hok => htail u (hkeep hok)⟩
    · rintro u ⟨es,he,hkeep⟩
      obtain ⟨fs,hfs,-⟩ := newExecs_adminIntr u
      refine ⟨es ++ fs,by rw [hfs,he,List.append_assoc],
        fun hok => hintr u (hkeep fun cmd hmem => hok cmd ?_)⟩
      rw [List.filterMap_append]
      exact List.mem_append_left _ hmem
  obtain ⟨es,htrace,hkeep⟩ := hran
  refine hkeep fun cmd hmem => hok cmd ?_
  rw [newExecs_of_trace htrace]
  exact hmem

lemma featureValue_aqTaken (w : World) (f : Feature) :
    w.aqTaken.dev.featureValue f = w.dev.featureValue f := by cases f <;> rfl

lemma featureValue_acqPushed (w : World) (r : AdminRings) (cmd : Bytes) (status : AdminStatus)
    (resp : Bytes) (f : Feature) :
    (w.acqPushed r cmd status resp).dev.featureValue f = w.dev.featureValue f := by
  cases f <;> rfl

lemma featureValue_acqTail (w : World) (val : UInt32) (f : Feature) :
    (w.dev.setReg regAcqTail val).featureValue f = w.dev.featureValue f := by cases f <;> rfl

/-- Admin processing keeps a cell that none of its commands sets. -/
lemma AdminRan.keeps (h : AdminRan w w')
    (hno : ∀ cmd, (cmd,AdminStatus.success.code) ∈ newExecs w w' → ¬ IsSet f cmd) :
    w'.dev.featureValue f = w.dev.featureValue f := by
  refine h.preserves_executed (M := fun u => u.dev.featureValue f = w.dev.featureValue f) hno rfl ?_
    (fun u hu => (featureValue_acqTail u _ f).trans hu) fun u hu => ?_
  · intro r u status resp u₁ hu hok hex
    have hexec : u₁.dev.featureValue f = u.aqTaken.dev.featureValue f := enaAdminExec_keeps hex hok
    have hpush := featureValue_acqPushed (u₁.emit (.adminExec (u.aqCmd r) status.code)) r
      (u.aqCmd r) status
      resp f
    exact hpush.trans (hexec.trans ((featureValue_aqTaken u f).trans hu))
  · rw [dev_adminIntr]
    exact hu

lemma Stepped.keeps {inp : Input} (h : Stepped w inp w') (hreset : ¬ inp.Resets)
    (hno : ∀ cmd, (cmd,AdminStatus.success.code) ∈ newExecs w w' → ¬ IsSet f cmd) :
    w'.dev.featureValue f = w.dev.featureValue f := by
  cases h with
  | io h => rw [featureValue_sameControl h]
  | reset => exact absurd trivial hreset
  | devCtlReset hval => exact absurd ⟨rfl,hval⟩ hreset
  | devCtlDone =>
    change EnaState.featureValue (if _ then _ else _) f = _
    split_ifs <;> cases f <;> rfl
  | stored _ hdev =>
    rw [hdev]
    cases f <;> rfl
  | intrMask => cases f <;> rfl
  | aqCaps => cases f <;> rfl
  | acqCaps => cases f <;> rfl
  | aenqCaps => cases f <;> rfl
  | admin h =>
    refine (h.keeps hno).trans ?_
    cases f <;> rfl
  | keepAlive _ h =>
    have hpost := congrFun h.featureValue f
    refine Eq.trans ?_ (hpost.trans ?_)
    · cases f <;> rfl
    · cases f <;> rfl
  | link h => exact congrFun h.featureValue f

lemma acqPush_eq {r : AdminRings} {cmd resp : Bytes} {status : AdminStatus}
    (h : enaAcqPush r w cmd status resp = .ok w') : w' = w.acqPushed r cmd status resp := by
  have hne : r.acqDepth ≠ 0 := by
    rintro hz
    unfold enaAcqPush at h
    rw [hz] at h
    cases h
  rw [enaAcqPush_eq _ _ _ _ hne] at h
  exact (Except.ok.inj h).symm

/-- The queue tables stay well formed, so that the next whole step can be followed. -/
lemma AdminPart.tables {done : Option (Bytes × AdminStatus)} (h : AdminPart w done w')
    (hw : TableInv w.dev ∧ TxIdle none w.dev) : TableInv w'.dev ∧ TxIdle none w'.dev := by
  cases h with
  | fetch => exact ⟨hw.1.of_sameQueues ⟨rfl,rfl,rfl,rfl,rfl,rfl⟩,hw.2⟩
  | exec h =>
    have hpath : Path w .qdevReset w w' := ((enaAdminExec_spec w _).of_ok h).path trivial
    exact ⟨hpath.tableInv hw.1,hpath.txIdle hw.2⟩
  | complete h =>
    rw [acqPush_eq h]
    exact ⟨hw.1.of_sameQueues ⟨rfl,rfl,rfl,rfl,rfl,rfl⟩,hw.2⟩
  | tail => exact ⟨hw.1.of_sameQueues ⟨rfl,rfl,rfl,rfl,rfl,rfl⟩,hw.2⟩
  | intr =>
    rw [dev_adminIntr]
    exact hw

lemma AdminPart.keeps {done : Option (Bytes × AdminStatus)} (h : AdminPart w done w')
    (hno : ∀ cmd, done = some (cmd,.success) → ¬ IsSet f cmd) :
    w'.dev.featureValue f = w.dev.featureValue f := by
  cases h with
  | fetch => exact featureValue_aqTaken w f
  | exec h => exact enaAdminExec_keeps h fun hs => hno _ (by rw [hs])
  | complete h =>
    rw [acqPush_eq h,featureValue_acqPushed]
    rfl
  | tail => exact featureValue_acqTail w _ f
  | intr => rw [dev_adminIntr]

lemma Underway.tables (h : Underway net w) : TableInv w.dev ∧ TxIdle none w.dev := by
  induction h with
  | reached h => exact h.tables
  | rung h _ => exact ⟨h.tables.1.of_sameQueues ⟨rfl,rfl,rfl,rfl,rfl,rfl⟩,h.tables.2⟩
  | part _ hp ih => exact hp.tables ih

lemma FeatureStep.tables (h : FeatureStep net f w w') (hw : TableInv w.dev ∧ TxIdle none w.dev) :
    TableInv w'.dev ∧ TxIdle none w'.dev := by
  cases h with
  | part h _ => exact h.tables hw
  | step h => exact step_tables hw h

lemma FeatureStep.keeps (h : FeatureStep net f w w') (hw : TableInv w.dev) :
    w'.dev.featureValue f = w.dev.featureValue f := by
  cases h with
  | part h hno => exact h.keeps hno
  | step h hreset hno => exact (step_stepped hw h).keeps hreset hno

lemma featureRun_tables (h : ReflTransGen (FeatureStep net f) w w')
    (hw : TableInv w.dev ∧ TxIdle none w.dev) :
    TableInv w'.dev ∧ TxIdle none w'.dev := by
  induction h with
  | refl => exact hw
  | tail _ hstep ih => exact hstep.tables ih

lemma featureRun_keeps (h : ReflTransGen (FeatureStep net f) w w')
    (hw : TableInv w.dev ∧ TxIdle none w.dev) :
    w'.dev.featureValue f = w.dev.featureValue f := by
  induction h with
  | refl => rfl
  | tail hrun hstep ih => exact (hstep.keeps (featureRun_tables hrun hw).1).trans ih

/-- The six features that are cells. -/
def Feature.cells : List Feature :=
  [.mtu,.aenqConfig,.llq,.rssHashFunction,.rssHashInput,.rssIndirectionTableConfig]

lemma exists_featureValue (s : EnaState) (hf : f ∈ Feature.cells) :
    ∃ v, s.featureValue f = some v := by
  cases f <;> first | exact ⟨_,rfl⟩ | exact absurd hf (by decide)

/-- Equal cells are reported as equal values. -/
lemma reports_same (h : w'.dev.featureValue = w.dev.featureValue) (hf : f ∈ Feature.cells) :
    ∃ v, v.feature = f ∧ Reports w v ∧ Reports w' v := by
  obtain ⟨v,hv⟩ := exists_featureValue w.dev hf
  have hfeature : v.feature = f := by
    cases f <;> cases hv <;> rfl
  exact ⟨v,hfeature,reports_featureValue hv,reports_featureValue ((congrFun h f).trans hv)⟩

/-- Features are independent cells, also in the middle of a batch: a value that was set is reported
until the feature is set again or the device reset, `GET_FEATURE` changes nothing, settings of
different features commute and a repeated setting changes no report. -/
theorem features_are_cells (h : Underway net w) :
    (∀ v w₁ w₂, Sets w v w₁ → ReflTransGen (FeatureStep net v.feature) w₁ w₂ →
    Reports w₂ v.normal) ∧
    (∀ cmd status resp w', Opcode.ofCode (u8At cmd 2) = some .getFeature →
      enaAdminExec w cmd = .ok (status,resp,w') → w'.dev = w.dev) ∧
    (∀ v u w₁ w₂ w₁' w₂', v.feature ≠ u.feature → Sets w v w₁ → Sets w₁ u w₂ → Sets w u w₁' →
      Sets w₁' v w₂' →
      ∀ f ∈ Feature.cells, ∃ x, x.feature = f ∧ Reports w₂ x ∧ Reports w₂' x) ∧
    ∀ v w₁ w₂, Sets w v w₁ → Sets w₁ v w₂ →
      ∀ f ∈ Feature.cells, ∃ x, x.feature = f ∧ Reports w₁ x ∧ Reports w₂ x := by
  refine ⟨fun v w₁ w₂ hset hrun => ?_,fun cmd status resp w' hop hexec => ?_,
    fun v u w₁ w₂ w₁' w₂' hne h₁ h₂ h₁' h₂' f hf => ?_,fun v w₁ w₂ h₁ h₂ f hf => ?_⟩
  · have hcells := hset.cells
    obtain ⟨cmd,resp,-,-,hexec⟩ := hset
    have hpath : Path w .qdevReset w w₁ := ((enaAdminExec_spec w cmd).of_ok hexec).path trivial
    have hkeep := featureRun_keeps hrun ⟨hpath.tableInv h.tables.1,hpath.txIdle h.tables.2⟩
    rw [hcells,Function.update_self] at hkeep
    exact reports_featureValue hkeep
  · unfold enaAdminExec at hexec
    rw [hop] at hexec
    exact enaGetFeature_dev.of_ok hexec
  · refine reports_same ?_ hf
    rw [h₂.cells,h₁.cells,h₂'.cells,h₁'.cells,Function.update_comm hne]
  · refine reports_same ?_ hf
    rw [h₂.cells,h₁.cells,Function.update_idem]

/-- The MTU is reported after the groups of AENQ were set as well. -/
theorem features_are_cells_mtu : ∃ w₁ w₂, Sets freshWorld (.mtu 1500) w₁ ∧
    Sets w₁ (.aenqConfig 1) w₂ ∧
    Reports w₂ (.mtu 1500) := by
  have hreach : Underway Net.nonIp freshWorld := .reached ⟨_,[],rfl⟩
  have hmtu : Sets freshWorld (.mtu 1500) (freshWorld.setDev { freshWorld.dev with mtu := 1500 }) :=
    ⟨setMtuCmd,noResp,⟨by decide,by decide⟩,by decide,rfl⟩
  obtain ⟨⟨status,resp,w₂⟩,hexec,htest⟩ := exists_of_okAnd
    (p := fun r : AdminStatus × Bytes × World => decide (r.1 = .success))
    (x := enaAdminExec (freshWorld.setDev { freshWorld.dev with mtu := 1500 }) enableLinkChangeCmd)
    (by decide +kernel)
  obtain rfl : status = .success := of_decide_eq_true htest
  have haenq : Sets (freshWorld.setDev { freshWorld.dev with mtu := 1500 }) (.aenqConfig 1) w₂ :=
    ⟨enableLinkChangeCmd,resp,⟨by decide,by decide⟩,by decide,hexec⟩
  have hother : ¬ IsSet .mtu enableLinkChangeCmd := fun h => absurd h.2 (by decide)
  refine ⟨_,w₂,hmtu,haenq,(features_are_cells hreach).1 _ _ w₂ hmtu
    (.single (.part (.exec hexec) ?_))⟩
  intro cmd hcmd
  cases hcmd
  exact hother

end Run
end EnaDevice
