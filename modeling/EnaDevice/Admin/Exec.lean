import EnaDevice.Admin.Queues

/-! What one admin command can do, said once: the cases of `ena_admin_exec` by their effect on the
device and on guest memory. -/
namespace EnaDevice
open Bytes Result

/-- The fields that `ENA_ADMIN_HOST_ATTR_CONFIG` stores before it looks at them. -/
def EnaState.setHostAttr (s : EnaState) (cmd : Bytes) : EnaState :=
  { s with
    hostInfoAddr := enaMemAddr cmd 20
    debugAreaAddr := enaMemAddr cmd 28
    debugAreaSize := le32At cmd 36 }

/-- A selection of hash fields that a protocol supports and the device can follow. -/
def RssFieldsOk (proto : Fin 16) (fields : UInt16) : Prop :=
  fields &&& enaRssSupportedFields proto = fields ∧
    (fields = 0 ∨ fields = enaRssL3Fields ∨ fields = enaRssL3L4Fields)

/-- The entry slot of the AENQ at the tail, and its move to the next one. -/
def EnaState.aenqSlot (s : EnaState) : UInt64 :=
  s.aenqBase + (s.aenqTail % s.capsDepth regAenqCaps).toUInt64*64

def EnaState.aenqAdvance (s : EnaState) : EnaState :=
  { s with
    aenqTail := s.aenqTail + 1
    aenqPhase := if (s.aenqTail + 1) % s.capsDepth regAenqCaps = 0 then !s.aenqPhase
      else s.aenqPhase }.setReg regAenqTail (s.aenqTail + 1).toUInt32

/-- The two outcomes of posting an event. One is posted only while the head doorbell grants
credit. -/
inductive AenqPosted (w : World) : World → Prop
  | skipped : AenqPosted w w
  | posted (entry : Bytes) (hlen : entry.length = 64) (hbase : w.dev.aenqBase ≠ 0)
    (hdepth : w.dev.capsDepth regAenqCaps ≠ 0)
    (hpast : ¬ (w.dev.getReg regAenqHeadDb).toUInt16 - w.dev.aenqTail > w.dev.capsDepth regAenqCaps)
    (hfull : (w.dev.getReg regAenqHeadDb).toUInt16 ≠ w.dev.aenqTail) :
    AenqPosted w (enaAdminIntr ((enaDmaWrite w .aenq w.dev.aenqSlot entry).setDev
      w.dev.aenqAdvance))

lemma aenqEntry_length (group : AenqGroup) (syndrome : UInt16) (phase : Bool) (us : ℕ)
    {data : Bytes} (h : data.length ≤ 48) :
    (aenqEntry group syndrome phase us data).length = 64 := by
  apply pad_length
  simp only [List.length_append, ofLe16_length, ofLe32_length, List.length_cons, List.length_nil]
  omega

theorem enaAenqPost_spec (w : World) (group : AenqGroup) (syndrome : UInt16) {data : Bytes}
    (h : data.length ≤ 48) :
    Holds Fault.Deliberate (AenqPosted w) (enaAenqPost w group syndrome data) := by
  unfold enaAenqPost
  simp only [check, h, decide_true, if_true, ok_bind]
  refine holds_ite (fun _ => holds_pure .skipped) fun hb => ?_
  refine holds_ite (fun _ => holds_pure .skipped) fun hpast => ?_
  refine holds_ite (fun _ => holds_pure .skipped) fun hfull => ?_
  rw [not_or,not_or] at hb
  rw [modDepth_of_ne_zero hb.2.1,ok_bind,modDepth_of_ne_zero hb.2.1,ok_bind]
  exact holds_pure (.posted _ (aenqEntry_length _ _ _ _ h) hb.1 hb.2.1 hpast hfull)

theorem enaPostLinkChange_spec (w : World) :
    Holds Fault.Deliberate (AenqPosted w) (enaPostLinkChange w) :=
  enaAenqPost_spec w _ _ (by simp)

/-- The event groups are stored, the link state is posted, the keep-alive timer is set. -/
def AenqConfigured (w : World) (groups : UInt32) (w' : World) : Prop :=
  ∃ w₁ timer, AenqPosted (w.setDev { w.dev with aenqGroups := groups }) w₁ ∧
    w' = w₁.setDev { w₁.dev with keepAliveTimer := timer }

theorem enaAenqConfig_spec (w : World) (groups : UInt32) :
    Holds Fault.Deliberate (AenqConfigured w groups) (enaAenqConfig w groups) := by
  unfold enaAenqConfig
  dsimp only
  refine holds_ite (fun _ => holds_bind (enaPostLinkChange_spec _) ?_) fun _ => ?_
  · intro w₁ _ h₁
    exact holds_ite (fun _ => holds_pure ⟨w₁,_,h₁,rfl⟩) fun _ => holds_pure ⟨w₁,_,h₁,rfl⟩
  · rw [pure_eq_ok,ok_bind]
    exact holds_ite (fun _ => holds_pure ⟨_,_,.skipped,rfl⟩) fun _ => holds_pure ⟨_,_,.skipped,rfl⟩

/-- What one admin command may do. -/
inductive Executed (w : World) (cmd : Bytes) : AdminStatus × Bytes × World → Prop
  | refused {status : AdminStatus} (h : status ≠ .success) : Executed w cmd (status,noResp,w)
  | queues {status : AdminStatus} {resp : Bytes} {s : EnaState}
    (h : QueueCmd w.dev (status,resp,s)) :
    Executed w cmd (status,resp,w.setDev s)
  | reported (resp : Bytes) (hresp : resp.length ≤ 56) : Executed w cmd (.success,resp,w)
  | ctrlReported (resp data : Bytes) (hresp : resp.length ≤ 56)
    (hop : Opcode.ofCode (u8At cmd 2) = some .getFeature) (haddr : enaMemAddr cmd 8 ≠ 0)
    (hlen : data.length ≤ (le32At cmd 4).toNat) :
    Executed w cmd (.success,resp,enaDmaWrite w (.ctrlBuf cmd) (enaMemAddr cmd 8) data)
  | hostAttrRefused (hop : Opcode.ofCode (u8At cmd 2) = some .setFeature)
    (hsel : u8At cmd 16 &&& 3 = 0) (hid : Feature.ofId (u8At cmd 17) = some .hostAttrConfig)
    (haddr : enaMemAddr cmd 20 = 0) :
    Executed w cmd (.illegalParameter,noResp,w.setDev (w.dev.setHostAttr cmd))
  | hostAttr (haddr : enaMemAddr cmd 20 ≠ 0) :
    Executed w cmd (.success,noResp,w.setDev (w.dev.setHostAttr cmd))
  | aenqConfig (groups : UInt32) {w' : World} (h : AenqConfigured w groups w') :
    Executed w cmd (.success,noResp,w')
  | mtu (mtu : UInt32) (hmin : enaMinMtu ≤ mtu) (hmax : mtu ≤ enaMaxMtu) :
    Executed w cmd (.success,noResp,w.setDev { w.dev with mtu := mtu })
  | llq (entry : UInt16) :
    Executed w cmd (.success,noResp,
      w.setDev { w.dev with llqEnabled := true, llqEntrySize := llqEntrySizeOf entry })
  | rss (r : EnaRss) (hf : ∀ p, r.fields p = w.dev.rss.fields p ∨ RssFieldsOk p (r.fields p))
    (hi : ∀ k, r.indTbl k = w.dev.rss.indTbl k ∨ (r.indTbl k).toNat < 16) :
    Executed w cmd (.success,noResp,w.setDev { w.dev with rss := r })

/-- What `ENA_ADMIN_SET_FEATURE` may do: refuse, or store what the command and its control buffer
say. -/
inductive FeatureSet (w : World) (cmd : Bytes) : AdminStatus × Bytes × World → Prop
  | refused {status : AdminStatus} (h : status ≠ .success) : FeatureSet w cmd (status,noResp,w)
  | hostAttrRefused (hsel : u8At cmd 16 &&& 3 = 0)
    (hid : Feature.ofId (u8At cmd 17) = some .hostAttrConfig) (haddr : enaMemAddr cmd 20 = 0) :
    FeatureSet w cmd (.illegalParameter,noResp,w.setDev (w.dev.setHostAttr cmd))
  | hostAttr (hid : Feature.ofId (u8At cmd 17) = some .hostAttrConfig)
    (haddr : enaMemAddr cmd 20 ≠ 0) :
    FeatureSet w cmd (.success,noResp,w.setDev (w.dev.setHostAttr cmd))
  | aenqConfig (hid : Feature.ofId (u8At cmd 17) = some .aenqConfig) {w' : World}
    (h : enaAenqConfig w (le32At cmd 24) = .ok w') : FeatureSet w cmd (.success,noResp,w')
  | mtu (hid : Feature.ofId (u8At cmd 17) = some .mtu) (hmin : enaMinMtu ≤ le32At cmd 20)
    (hmax : le32At cmd 20 ≤ enaMaxMtu) :
    FeatureSet w cmd (.success,noResp,w.setDev { w.dev with mtu := le32At cmd 20 })
  | llq (hid : Feature.ofId (u8At cmd 17) = some .llq) (hloc : le16At cmd 30 = 1)
    (hentry : le16At cmd 34 = 1 ∨ le16At cmd 34 = 4) (hdesc : le16At cmd 38 = 2)
    (hstride : le16At cmd 42 = 2) :
    FeatureSet w cmd (.success,noResp,
      w.setDev { w.dev with llqEnabled := true, llqEntrySize := llqEntrySizeOf (le16At cmd 34) })
  | rssKey (hid : Feature.ofId (u8At cmd 17) = some .rssHashFunction)
    (hfunc : le32At cmd 24 = bit 1) (key : Bytes)
    (hkey : key = (enaDmaRead w (enaMemAddr cmd 8) rssKeySize).2) :
    FeatureSet w cmd (.success,noResp,w.setDev { w.dev with rss := { w.dev.rss with
      keyParts := le32At key 0
      key := fun i => le32At key (8 + 4*i)
      initVal := le32At cmd 28 } })
  | rssFields (hid : Feature.ofId (u8At cmd 17) = some .rssHashInput) (ctrl : Bytes)
    (hctrl : ctrl = (enaDmaRead w (enaMemAddr cmd 8) rssHashCtrlSize).2)
    (hok : ∀ p, RssFieldsOk p (rssSelectedFields ctrl p)) :
    FeatureSet w cmd (.success,noResp,
      w.setDev { w.dev with rss := { w.dev.rss with fields := rssSelectedFields ctrl } })
  | rssIndTbl (hid : Feature.ofId (u8At cmd 17) = some .rssIndirectionTableConfig) (tbl : Bytes)
    (htbl : tbl = (enaDmaRead w (enaMemAddr cmd 8) rssIndTblSize).2)
    (hidx : ∀ k : Fin 128, (le16At tbl (4*k)).toNat < 16) :
    FeatureSet w cmd (.success,noResp,
      w.setDev { w.dev with rss := { w.dev.rss with indTbl := fun k => le16At tbl (4*k) } })

section
variable (w : World) (cmd : Bytes)

lemma rssKeyBytes_length (s : EnaState) : (rssKeyBytes s).length = rssKeySize := by
  rw [rssKeyBytes,List.length_append,flatten_ofFn_length _ fun i => ofLe32_length _]
  rfl

lemma enaFillHashCtrl_length (s : EnaState) : (enaFillHashCtrl s).length = rssHashCtrlSize := by
  rw [enaFillHashCtrl,List.length_append,List.length_append,
    flatten_ofFn_length (k := 4) _ fun i => rfl,flatten_ofFn_length (k := 4) _ fun i => rfl,
    zeros_length]

lemma rssIndTblBytes_length (s : EnaState) : (rssIndTblBytes s).length = rssIndTblSize := by
  rw [rssIndTblBytes,flatten_ofFn_length (k := 4) _ fun i => rfl]

/-- An address of a control buffer is the command's, and the buffer is as long as needed. -/
lemma enaCtrlBuf_spec (c : FeatCmd) (need : ℕ) :
    Holds Fault.Deliberate (fun buf => buf ≠ 0 → buf = c.ctrlAddress ∧ need ≤ c.ctrlLength.toNat)
      (enaCtrlBuf c need) := by
  unfold enaCtrlBuf
  refine holds_ite (fun _ => holds_pure fun h => absurd rfl h) fun hlen => ?_
  exact holds_ite (fun _ => holds_throw trivial) fun _ => holds_pure fun _ => ⟨rfl,by omega⟩

lemma getCtrlFeature_spec {need : ℕ} {data : Bytes} (resp : Bytes) (hresp : resp.length ≤ 56)
    (hdata : data.length = need)
    (hop : Opcode.ofCode (u8At cmd 2) = some .getFeature) :
    Holds Fault.Deliberate (Executed w cmd) (getCtrlFeature w cmd need data resp) := by
  refine holds_bind (enaCtrlBuf_spec _ _) ?_
  intro buf _ hbuf
  by_cases hz : buf = 0
  · simp only [hz, ne_eq, not_true_eq_false, if_false]
    exact holds_pure (.reported resp hresp)
  · obtain ⟨rfl,hlen⟩ := hbuf hz
    simp only [ne_eq, hz, not_false_eq_true, if_true]
    exact holds_pure (.ctrlReported resp data hresp hop hz (hdata ▸ hlen))

theorem enaGetFeature_spec (hop : Opcode.ofCode (u8At cmd 2) = some .getFeature) :
    Holds Fault.Deliberate (Executed w cmd) (enaGetFeature w cmd) := by
  unfold enaGetFeature
  refine holds_ite (fun _ => holds_throw trivial) fun _ => ?_
  split
  case h_3 =>
    exact holds_ite (fun _ => holds_pure (.refused (by decide))) fun _ =>
      holds_pure (.reported _ (by decide))
  case h_10 => exact getCtrlFeature_spec w cmd _ (by simp) (rssKeyBytes_length _) hop
  case h_11 => exact getCtrlFeature_spec w cmd _ (by simp) (enaFillHashCtrl_length _) hop
  case h_12 => exact getCtrlFeature_spec w cmd _ (by simp) (rssIndTblBytes_length _) hop
  case h_13 => exact holds_pure (.refused (by decide))
  case h_14 => exact holds_pure (.refused (by decide))
  all_goals
    exact holds_pure (.reported _ (by simp [devAttrResp, maxQueuesResp, llqResp]))

lemma rssSelectedFields_supported (b : Bytes) (p : Fin 16) :
    rssSelectedFields b p &&& enaRssSupportedFields p = rssSelectedFields b p := by
  rw [rssSelectedFields,UInt16.and_assoc,UInt16.and_self]

theorem enaSetFeature_cases : Holds Fault.Deliberate (FeatureSet w cmd) (enaSetFeature w cmd) := by
  unfold enaSetFeature
  dsimp only
  refine holds_ite (fun _ => holds_throw trivial) fun hsel => ?_
  rw [not_ne_iff] at hsel
  split
  case h_1 hid =>
    refine holds_ite (fun haddr => holds_pure (.hostAttrRefused hsel hid haddr)) fun haddr => ?_
    exact holds_bind (holds_check fun _ => trivial) fun _ _ _ => holds_pure (.hostAttr hid haddr)
  case h_2 hid =>
    refine holds_ite (fun _ => holds_pure (.refused (by decide))) fun _ => ?_
    exact holds_bind (enaAenqConfig_spec w _) fun w₁ h₁ _ => holds_pure (.aenqConfig hid h₁)
  case h_3 hid =>
    refine holds_ite (fun _ => holds_pure (.refused (by decide))) fun hmtu => ?_
    rw [not_or,UInt32.not_lt,gt_iff_lt,UInt32.not_lt] at hmtu
    exact holds_pure (.mtu hid hmtu.1 hmtu.2)
  case h_4 hid =>
    refine holds_ite (fun _ => holds_pure (.refused (by decide))) fun hok => ?_
    simp only [not_or,not_and,not_not,ne_eq] at hok
    obtain ⟨hloc,hentry,hdesc,hstride⟩ := hok
    exact holds_pure (.llq hid hloc (or_iff_not_imp_left.mpr hentry) hdesc hstride)
  case h_5 hid =>
    refine holds_ite (fun _ => holds_pure (.refused (by decide))) fun hfunc => ?_
    refine holds_bind (enaCtrlBuf_spec _ _) fun buf _ hbuf => ?_
    refine holds_ite (fun _ => holds_pure (.refused (by decide))) fun hz => ?_
    obtain ⟨rfl,-⟩ := hbuf hz
    refine holds_ite (fun _ => holds_pure (.refused (by decide))) fun _ => ?_
    exact holds_pure (.rssKey hid (not_ne_iff.mp hfunc) _ rfl)
  case h_6 hid =>
    refine holds_bind (enaCtrlBuf_spec _ _) fun buf _ hbuf => ?_
    refine holds_ite (fun _ => holds_pure (.refused (by decide))) fun hz => ?_
    obtain ⟨rfl,-⟩ := hbuf hz
    refine holds_ite (fun _ => holds_pure (.refused (by decide))) fun hfields => ?_
    refine holds_pure (.rssFields hid _ rfl fun p => ⟨rssSelectedFields_supported _ p,?_⟩)
    by_contra hno
    rw [not_or,not_or] at hno
    exact hfields ⟨p,hno⟩
  case h_7 hid =>
    refine holds_ite (fun _ => holds_pure (.refused (by decide))) fun _ => ?_
    refine holds_ite (fun _ => holds_throw trivial) fun _ => ?_
    refine holds_bind (enaCtrlBuf_spec _ _) fun buf _ hbuf => ?_
    refine holds_ite (fun _ => holds_pure (.refused (by decide))) fun hz => ?_
    obtain ⟨rfl,-⟩ := hbuf hz
    refine holds_ite (fun _ => holds_pure (.refused (by decide))) fun hidx => ?_
    refine holds_pure (.rssIndTbl hid _ rfl fun k => ?_)
    by_contra hk
    exact hidx ⟨k,fun h => hk h.fst⟩
  case h_8 => exact holds_pure (.refused (by decide))

theorem enaSetFeature_spec (hop : Opcode.ofCode (u8At cmd 2) = some .setFeature) :
    Holds Fault.Deliberate (Executed w cmd) (enaSetFeature w cmd) := by
  refine holds_mono (enaSetFeature_cases w cmd) fun r h => ?_
  cases h with
  | refused hne => exact .refused hne
  | hostAttrRefused hsel hid haddr => exact .hostAttrRefused hop hsel hid haddr
  | hostAttr _ haddr => exact .hostAttr haddr
  | aenqConfig _ hc => exact .aenqConfig _ ((enaAenqConfig_spec w _).of_ok hc)
  | mtu _ hmin hmax => exact .mtu _ hmin hmax
  | llq => exact .llq _
  | rssKey => exact .rss _ (fun _ => .inl rfl) fun _ => .inl rfl
  | rssFields _ _ _ hok => exact .rss _ (fun p => .inr (hok p)) fun _ => .inl rfl
  | rssIndTbl _ _ _ hidx => exact .rss _ (fun _ => .inl rfl) fun k => .inr (hidx k)

lemma enaGetStats_spec :
    Executed w cmd ((enaGetStats w.dev cmd).1,(enaGetStats w.dev cmd).2,w) := by
  unfold enaGetStats
  dsimp only
  split_ifs
  · exact .refused (by decide)
  · exact .refused (by decide)
  · exact .reported _ (by simp [ofCounter])

/-- Every command either aborts on purpose or does one of the things above. -/
theorem enaAdminExec_spec : Holds Fault.Deliberate (Executed w cmd) (enaAdminExec w cmd) := by
  unfold enaAdminExec
  split
  case h_1 => exact holds_bind (enaCreateSq_spec w.dev cmd) fun _ _ h => holds_pure (.queues h)
  case h_2 => exact holds_pure (.queues (enaDestroySq_spec w.dev cmd))
  case h_3 => exact holds_pure (.queues (enaCreateCq_spec w.dev cmd))
  case h_4 => exact holds_pure (.queues (enaDestroyCq_spec w.dev cmd))
  case h_5 hop => exact enaGetFeature_spec w cmd hop
  case h_6 hop => exact enaSetFeature_spec w cmd hop
  case h_7 => exact holds_pure (enaGetStats_spec w cmd)
  case h_8 => exact holds_pure (.refused (by decide))

end
end EnaDevice
