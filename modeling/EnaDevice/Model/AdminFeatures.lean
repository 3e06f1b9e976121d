import EnaDevice.Model.AdminQueues
import EnaDevice.Model.Aenq
import EnaDevice.Model.Reset

/-! Admin commands that read and set features, and the basic statistics. -/
namespace EnaDevice
open Bytes

/-- The features of `enum ena_admin_aq_feature_id` that the device knows. -/
inductive Feature
  | deviceAttributes
  | maxQueuesNum
  | llq
  | maxQueuesExt
  | rssHashFunction
  | statelessOffloadConfig
  | rssIndirectionTableConfig
  | mtu
  | rssHashInput
  | interruptModeration
  | aenqConfig
  | linkConfig
  | hostAttrConfig
  deriving DecidableEq, Repr

namespace Feature

def id : Feature → ℕ
  | .deviceAttributes => 1
  | .maxQueuesNum => 2
  | .llq => 4
  | .maxQueuesExt => 7
  | .rssHashFunction => 10
  | .statelessOffloadConfig => 11
  | .rssIndirectionTableConfig => 12
  | .mtu => 14
  | .rssHashInput => 18
  | .interruptModeration => 20
  | .aenqConfig => 26
  | .linkConfig => 27
  | .hostAttrConfig => 28

def all : List Feature :=
  [.deviceAttributes,.maxQueuesNum,.llq,.maxQueuesExt,.rssHashFunction,.statelessOffloadConfig,
    .rssIndirectionTableConfig,.mtu,.rssHashInput,.interruptModeration,.aenqConfig,.linkConfig,
    .hostAttrConfig]

def ofId (n : UInt8) : Option Feature := all.find? fun f => f.id == n.toNat

end Feature

/-- `ENA_SUPPORTED_FEATURES`: one bit for every feature. -/
def enaSupportedFeatures : UInt32 := (Feature.all.map fun f => bit f.id).foldl (· ||| ·) 0

/-- `ENA_SUPPORTED_AENQ_GROUPS` -/
def enaSupportedAenqGroups : UInt32 :=
  bit AenqGroup.linkChange.code ||| bit AenqGroup.keepAlive.code

/-- `struct ena_admin_get_feat_cmd`, the common part of `struct ena_admin_set_feat_cmd`. -/
structure FeatCmd where
  flags : UInt8
  ctrlLength : UInt32
  ctrlAddress : UInt64
  featFlags : UInt8
  featureId : UInt8
  featureVersion : UInt8

def FeatCmd.ofBytes (b : Bytes) : FeatCmd :=
  ⟨u8At b 3,le32At b 4,enaMemAddr b 8,u8At b 16,u8At b 17,u8At b 18⟩

/-- `ena_ctrl_buf`: address of the control buffer, 0 when there is none of the needed size. -/
def enaCtrlBuf (c : FeatCmd) (need : ℕ) : Except Fault UInt64 :=
  if c.ctrlLength.toNat < need then .ok 0
  else if c.flags &&& 4 = 0 then .error (.unsupported .inlineControlData)
  else .ok c.ctrlAddress

/-- `struct ena_admin_feature_rss_flow_hash_control` of the current key -/
def rssKeyBytes (s : EnaState) : Bytes :=
  ofLe32 s.rss.keyParts ++ zeros 4 ++ (List.ofFn fun i => ofLe32 (s.rss.key i)).flatten

/-- `ena_fill_hash_ctrl`: supported and selected fields of every protocol. -/
def enaFillHashCtrl (s : EnaState) : Bytes :=
  (List.ofFn fun i => ofLe16 (enaRssSupportedFields i) ++ zeros 2).flatten ++
    (List.ofFn fun i => ofLe16 (s.rss.fields i) ++ zeros 2).flatten ++ zeros 128

def rssIndTblBytes (s : EnaState) : Bytes :=
  (List.ofFn fun i => ofLe16 (s.rss.indTbl i) ++ zeros 2).flatten

abbrev rssKeySize : ℕ := 48
abbrev rssHashCtrlSize : ℕ := 256
abbrev rssIndTblSize : ℕ := 512

/-- A feature that is reported through a control buffer, written only when the driver gave one. -/
def getCtrlFeature (w : World) (cmd : Bytes) (need : ℕ) (data resp : Bytes) :
    Except Fault (AdminStatus × Bytes × World) := do
  let buf ← enaCtrlBuf (FeatCmd.ofBytes cmd) need
  return (.success,resp,if buf ≠ 0 then enaDmaWrite w (.ctrlBuf cmd) buf data else w)

/-- `struct ena_admin_device_attr_feature_desc` -/
def devAttrResp (s : EnaState) : Bytes :=
  ofLe32 1 ++ ofLe32 0 ++ ofLe32 enaSupportedFeatures ++ ofLe32 0 ++ ofLe32 enaDmaAddrWidth ++
    ofLe32 enaDmaAddrWidth ++ List.ofFn s.macaddr ++ zeros 2 ++ ofLe32 enaMaxMtu

/-- `struct ena_admin_queue_feature_desc` -/
def maxQueuesResp : Bytes :=
  ofLe32 enaMaxIoQueues ++ ofLe32 1024 ++ ofLe32 enaMaxIoQueues ++ ofLe32 1024 ++ ofLe32 0 ++
    ofLe32 0 ++ ofLe32 enaMaxTxHeaderSize ++ ofLe16 17 ++ ofLe16 17

/-- `struct ena_admin_queue_ext_feature_desc` -/
def maxQueuesExtResp : Bytes :=
  [1,0,0,0] ++ ofLe32 enaMaxIoQueues ++ ofLe32 enaMaxIoQueues ++ ofLe32 enaMaxIoQueues ++
    ofLe32 enaMaxIoQueues ++ ofLe32 1024 ++ ofLe32 1024 ++ ofLe32 1024 ++ ofLe32 1024 ++
    ofLe32 enaMaxTxHeaderSize ++ ofLe16 17 ++ ofLe16 17

/-- `struct ena_admin_feature_llq_desc` -/
def llqResp (s : EnaState) (version : UInt8) : Bytes :=
  ofLe32 enaMaxIoQueues ++ ofLe32 1024 ++
    ofLe16 1 ++ ofLe16 (if s.llqEnabled then 1 else 0) ++
    ofLe16 (1 ||| 4) ++ ofLe16 (if s.llqEntrySize = enaLlqLargeEntrySize then 4
      else if s.llqEnabled then 1 else 0) ++
    ofLe16 2 ++ ofLe16 (if s.llqEnabled then 2 else 0) ++
    ofLe16 2 ++ ofLe16 (if s.llqEnabled then 2 else 0) ++
    [min version 1,if s.llqLarge then 4 else 1] ++ ofLe16 0 ++ ofLe16 1 ++ ofLe16 0

/-- `ena_get_feature` -/
def enaGetFeature (w : World) (cmd : Bytes) : Except Fault (AdminStatus × Bytes × World) :=
  let c := FeatCmd.ofBytes cmd
  let s := w.dev
  if c.featFlags &&& 3 ≠ 0 then .error (.unsupported (.featureSelect c.featFlags))
  else match Feature.ofId c.featureId with
    | some .deviceAttributes => .ok (.success,devAttrResp s,w)
    | some .maxQueuesNum => .ok (.success,maxQueuesResp,w)
    | some .maxQueuesExt =>
      if c.featureVersion ≠ 1 then .ok (.illegalParameter,noResp,w)
      else .ok (.success,maxQueuesExtResp,w)
    | some .llq => .ok (.success,llqResp s c.featureVersion,w)
    | some .aenqConfig => .ok (.success,ofLe32 enaSupportedAenqGroups ++ ofLe32 s.aenqGroups,w)
    | some .linkConfig => .ok (.success,ofLe32 10000 ++ ofLe32 8 ++ ofLe32 2,w)
    | some .statelessOffloadConfig =>
      .ok (.success,ofLe32 (genmask 6 0) ++ ofLe32 (genmask 3 0) ++ ofLe32 (genmask 3 0),w)
    | some .interruptModeration => .ok (.success,ofLe16 1,w)
    | some .mtu => .ok (.success,ofLe32 s.mtu,w)
    | some .rssHashFunction =>
      getCtrlFeature w cmd rssKeySize (rssKeyBytes s)
        (ofLe32 (bit 1) ++ ofLe32 (bit 1) ++ ofLe32 s.rss.initVal)
    | some .rssHashInput => getCtrlFeature w cmd rssHashCtrlSize (enaFillHashCtrl s) noResp
    | some .rssIndirectionTableConfig =>
      getCtrlFeature w cmd rssIndTblSize (rssIndTblBytes s)
        (ofLe16 7 ++ ofLe16 7 ++ ofLe16 7 ++ zeros 2 ++ ofLe32 0xffffffff)
    | some .hostAttrConfig | none => .ok (.unsupportedOpcode,noResp,w)

/-- Entry size that an `ENA_ADMIN_LLQ` selection names. -/
def llqEntrySizeOf (entry : UInt16) : UInt16 :=
  if entry = 4 then enaLlqLargeEntrySize else enaLlqEntrySize

/-- The fields of an RSS hash-input control buffer that the device supports. -/
def rssSelectedFields (b : Bytes) (i : Fin 16) : UInt16 :=
  le16At b (64 + 4*i) &&& enaRssSupportedFields i

/-- `ena_set_feature` -/
def enaSetFeature (w : World) (cmd : Bytes) : Except Fault (AdminStatus × Bytes × World) := do
  let c := FeatCmd.ofBytes cmd
  let s := w.dev
  if c.featFlags &&& 3 ≠ 0 then throw (.unsupported (.featureSelect c.featFlags))
  match Feature.ofId c.featureId with
  | some .hostAttrConfig =>
    let s := { s with
      hostInfoAddr := enaMemAddr cmd 20
      debugAreaAddr := enaMemAddr cmd 28
      debugAreaSize := le32At cmd 36 }
    if s.hostInfoAddr = 0 then return (.illegalParameter,noResp,w.setDev s)
    let hi := (enaDmaRead w s.hostInfoAddr 196).2
    -- only the DPDK driver's contract is emulated
    check (le32At hi 0 = 3) .osType
    return (.success,noResp,w.setDev s)
  | some .aenqConfig =>
    let groups := le32At cmd 24
    if groups &&& ~~~enaSupportedAenqGroups ≠ 0 then return (.illegalParameter,noResp,w)
    let w ← enaAenqConfig w groups
    return (.success,noResp,w)
  | some .mtu =>
    let mtu := le32At cmd 20
    if mtu < enaMinMtu ∨ mtu > enaMaxMtu then return (.illegalParameter,noResp,w)
    return (.success,noResp,w.setDev { s with mtu := mtu })
  | some .llq =>
    let entry := le16At cmd 34
    if le16At cmd 30 ≠ 1 ∨ (entry ≠ 1 ∧ entry ≠ 4) ∨ le16At cmd 38 ≠ 2 ∨ le16At cmd 42 ≠ 2 then
      return (.illegalParameter,noResp,w)
    return (.success,noResp,
      w.setDev { s with llqEnabled := true, llqEntrySize := llqEntrySizeOf entry })
  | some .rssHashFunction =>
    -- the hash function is fixed to Toeplitz
    if le32At cmd 24 ≠ bit 1 then return (.illegalParameter,noResp,w)
    let buf ← enaCtrlBuf c rssKeySize
    if buf = 0 then return (.malformedRequest,noResp,w)
    let key := (enaDmaRead w buf rssKeySize).2
    if le32At key 0 ≠ 10 then return (.illegalParameter,noResp,w)
    return (.success,noResp,w.setDev { s with rss := { s.rss with
      keyParts := le32At key 0
      key := fun i => le32At key (8 + 4*i)
      initVal := le32At cmd 28 } })
  | some .rssHashInput =>
    -- unsupported bits are masked; address-only or port-only selections are rejected
    let buf ← enaCtrlBuf c rssHashCtrlSize
    if buf = 0 then return (.malformedRequest,noResp,w)
    let sel := rssSelectedFields (enaDmaRead w buf rssHashCtrlSize).2
    if ∃ i, sel i ≠ 0 ∧ sel i ≠ enaRssL3Fields ∧ sel i ≠ enaRssL3L4Fields then
      return (.illegalParameter,noResp,w)
    return (.success,noResp,w.setDev { s with rss := { s.rss with fields := sel } })
  | some .rssIndirectionTableConfig =>
    if le16At cmd 24 ≠ 7 then return (.illegalParameter,noResp,w)
    if le32At cmd 28 ≠ 0xffffffff then throw (.unsupported .inlineIndirectionTable)
    let buf ← enaCtrlBuf c rssIndTblSize
    if buf = 0 then return (.illegalParameter,noResp,w)
    let tbl := (enaDmaRead w buf rssIndTblSize).2
    -- entries name RX SQ indices; the ABI field is called cq_idx
    let idx : Fin 128 → UInt16 := fun i => le16At tbl (4*i)
    if ∃ i, ¬ ∃ h : (idx i).toNat < 16, (s.sq ⟨(idx i).toNat,h⟩).used ∧
        !(s.sq ⟨(idx i).toNat,h⟩).isTx then
      return (.illegalParameter,noResp,w)
    return (.success,noResp,w.setDev { s with rss := { s.rss with indTbl := idx } })
  | _ => return (.unsupportedOpcode,noResp,w)

/-- Low and high half of a 64-bit counter. -/
def ofCounter (x : UInt64) : Bytes := ofLe32 x.toUInt32 ++ ofLe32 (x >>> 32).toUInt32

/-- `ena_get_stats`: only the basic statistics of the own device. -/
def enaGetStats (s : EnaState) (cmd : Bytes) : AdminStatus × Bytes :=
  let deviceId := le16At cmd 22
  if u8At cmd 16 ≠ 0 then (.unsupportedOpcode,noResp)
  else if deviceId ≠ 0 ∧ deviceId ≠ 0xffff then (.illegalParameter,noResp)
  else (.success,ofCounter s.txBytes ++ ofCounter s.txPkts ++ ofCounter s.rxBytes ++
    ofCounter s.rxPkts ++ ofCounter s.rxDrops ++ ofCounter s.txDrops)

end EnaDevice
