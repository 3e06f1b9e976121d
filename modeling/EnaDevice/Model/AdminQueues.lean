import EnaDevice.Model.World

/-! Admin commands that create and destroy queues. -/
namespace EnaDevice
open Bytes

/-- `enum ena_admin_aq_completion_status` -/
inductive AdminStatus
  | success
  | resourceAllocationFailure
  | badOpcode
  | unsupportedOpcode
  | malformedRequest
  | illegalParameter
  | unknownError
  | resourceBusy
  deriving DecidableEq, Repr

def AdminStatus.code : AdminStatus → UInt8
  | .success => 0
  | .resourceAllocationFailure => 1
  | .badOpcode => 2
  | .unsupportedOpcode => 3
  | .malformedRequest => 4
  | .illegalParameter => 5
  | .unknownError => 6
  | .resourceBusy => 7

/-- The bytes of a response after its common descriptor; a failed command leaves them zero. -/
abbrev noResp : Bytes := []

/-- `ena_valid_depth` -/
def enaValidDepth (depth : UInt16) : Bool :=
  isPowerOf2 depth.toNat && enaMinQueueDepth ≤ depth.toNat && depth.toNat ≤ enaMaxQueueDepth

/-- `struct ena_admin_aq_create_cq_cmd` -/
structure CreateCqCmd where
  cqCaps1 : UInt8
  cqCaps2 : UInt8
  cqDepth : UInt16
  msixVector : UInt32
  cqBa : UInt64

def CreateCqCmd.ofBytes (b : Bytes) : CreateCqCmd :=
  ⟨u8At b 4,u8At b 5,le16At b 6,le32At b 8,enaMemAddr b 12⟩

/-- `struct ena_admin_acq_create_cq_resp_desc` -/
def createCqResp (i : CqIdx) (depth : UInt16) : Bytes :=
  ofLe16 (UInt16.ofNat i) ++ ofLe16 depth ++ ofLe32 0 ++ ofLe32 0 ++
    ofLe32 (UInt32.ofNat (regCqUnmaskBase + i*4))

/-- `ena_create_cq` -/
def enaCreateCq (s : EnaState) (cmd : Bytes) : AdminStatus × Bytes × EnaState :=
  let c := CreateCqCmd.ofBytes cmd
  let words := c.cqCaps2 &&& 0x1f
  let intr := c.cqCaps1 &&& 0x20 != 0
  if !enaValidDepth c.cqDepth ∨ (words ≠ 2 ∧ words ≠ 4 ∧ words ≠ 8) then
    (.illegalParameter,noResp,s)
  else if c.cqBa = 0 then (.illegalParameter,noResp,s)
  -- IO vectors are 1..8; -1 means no interrupt
  else if intr ∧ c.msixVector ≠ enaMsixVectorNone ∧ (c.msixVector = 0 ∨ c.msixVector ≥ 9) then
    (.illegalParameter,noResp,s)
  else match (List.finRange 16).find? fun i => !(s.cq i).used with
    | none => (.resourceAllocationFailure,noResp,s)
    | some i =>
      (.success,createCqResp i c.cqDepth,s.setCq i
        { used := true
          base := c.cqBa
          depth := c.cqDepth
          entrySize := words*4
          intrEnabled := intr
          msixVector := c.msixVector
          tail := 0
          phase := true })

/-- `ena_destroy_cq` -/
def enaDestroyCq (s : EnaState) (cmd : Bytes) : AdminStatus × Bytes × EnaState :=
  let idx := le16At cmd 4
  if h : idx.toNat < 16 then
    let c : CqIdx := ⟨idx.toNat,h⟩
    if !(s.cq c).used then (.illegalParameter,noResp,s)
    else if (List.finRange 16).any fun i => (s.sq i).used && (s.sq i).cqIdx == idx then
      (.resourceBusy,noResp,s)
    else (.success,noResp,s.setCq c { s.cq c with used := false })
  else (.illegalParameter,noResp,s)

abbrev sqDirectionTx : UInt8 := 1
abbrev sqDirectionRx : UInt8 := 2
abbrev placementPolicyHost : UInt8 := 1
abbrev placementPolicyDev : UInt8 := 3

/-- `struct ena_admin_aq_create_sq_cmd` -/
structure CreateSqCmd where
  sqIdentity : UInt8
  sqCaps2 : UInt8
  sqCaps3 : UInt8
  cqIdx : UInt16
  sqDepth : UInt16
  sqBa : UInt64
  sqHeadWriteback : UInt64

def CreateSqCmd.ofBytes (b : Bytes) : CreateSqCmd :=
  ⟨u8At b 4,u8At b 6,u8At b 7,le16At b 8,le16At b 10,enaMemAddr b 12,enaMemAddr b 20⟩

/-- `struct ena_admin_acq_create_sq_resp_desc` -/
def createSqResp (i : SqIdx) (llq : Bool) : Bytes :=
  ofLe16 (UInt16.ofNat i) ++ zeros 2 ++ ofLe32 (UInt32.ofNat (regSqDbBase + i*4)) ++
    ofLe32 (if llq then UInt32.ofNat (i*enaLlqQueueBytes) else 0) ++ ofLe32 0

/-- `ena_create_sq` -/
def enaCreateSq (s : EnaState) (cmd : Bytes) : Except Fault (AdminStatus × Bytes × EnaState) :=
  let c := CreateSqCmd.ofBytes cmd
  let dir := (c.sqIdentity &&& 0xe0) >>> 5
  let placement := c.sqCaps2 &&& 0xf
  let completion := (c.sqCaps2 &&& 0x70) >>> 4
  let isTx := dir == sqDirectionTx
  let llq := placement == placementPolicyDev
  let illegal := .ok (.illegalParameter,noResp,s)
  if dir ≠ sqDirectionTx ∧ dir ≠ sqDirectionRx then illegal
  else if placement ≠ placementPolicyHost ∧ !llq then illegal
  else if llq ∧ (!isTx ∨ !s.llqEnabled) then illegal
  else if completion ≠ 0 then .ok (.unsupportedOpcode,noResp,s)
  else if c.sqCaps3 &&& 1 = 0 then illegal
  else if h : c.cqIdx.toNat < 16 then
    let cq := s.cq ⟨c.cqIdx.toNat,h⟩
    if !cq.used ∨ !enaValidDepth c.sqDepth then illegal
    -- one completion slot per submitted descriptor; RX completions are 4+ words
    else if c.sqDepth > cq.depth ∨ (!llq ∧ c.sqBa = 0) ∨ (!isTx ∧ cq.entrySize < 16) then illegal
    else if c.sqHeadWriteback ≠ 0 then .error (.unsupported .sqHeadWriteback)
    else match (List.finRange 16).find? fun i => !(s.sq i).used with
      | none => .ok (.resourceAllocationFailure,noResp,s)
      | some i =>
        if llq ∧ c.sqDepth.toNat*s.llqEntrySize.toNat > enaLlqQueueBytes then illegal
        else .ok (.success,createSqResp i llq,s.setSq i
          { EnaSq.zero with
            used := true
            isTx := isTx
            llq := llq
            cqIdx := c.cqIdx
            base := if llq then 0 else c.sqBa
            depth := c.sqDepth
            entrySize := if llq then s.llqEntrySize else 0 })
  else illegal

/-- `ena_destroy_sq` -/
def enaDestroySq (s : EnaState) (cmd : Bytes) : AdminStatus × Bytes × EnaState :=
  let idx := le16At cmd 4
  let dir := (u8At cmd 6 &&& 0xe0) >>> 5
  if h : idx.toNat < 16 then
    let i : SqIdx := ⟨idx.toNat,h⟩
    if !(s.sq i).used ∨ (s.sq i).isTx ≠ (dir == sqDirectionTx) then (.illegalParameter,noResp,s)
    else (.success,noResp,s.setSq i { s.sq i with used := false })
  else (.illegalParameter,noResp,s)

end EnaDevice
