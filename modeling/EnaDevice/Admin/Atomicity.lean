import EnaDevice.Admin.Exec

/-! Failed admin commands and the state they leave. Every handler decides before it assigns, except
the one for host attributes: it stores the three fields first and then refuses a zero address. -/
namespace EnaDevice
open Bytes Result

/-- A command that is answered with an error leaves device and guest memory as they were. -/
def FailsAtomically (w : World) (cmd : Bytes) : Prop :=
  ∀ status resp w', enaAdminExec w cmd = .ok (status,resp,w') → status ≠ .success → w' = w

/-- A host-attribute command without an OS-info address, in a state with other host attributes. -/
def HostAttrClobber (s : EnaState) (cmd : Bytes) : Prop :=
  Opcode.ofCode (u8At cmd 2) = some .setFeature ∧ u8At cmd 16 &&& 3 = 0 ∧
    Feature.ofId (u8At cmd 17) = some .hostAttrConfig ∧ enaMemAddr cmd 20 = 0 ∧
    (s.hostInfoAddr ≠ 0 ∨ s.debugAreaAddr ≠ enaMemAddr cmd 28 ∨ s.debugAreaSize ≠ le32At cmd 36)

instance (s : EnaState) (cmd : Bytes) : Decidable (HostAttrClobber s cmd) :=
  inferInstanceAs (Decidable (_ ∧ _))

lemma QueueCmd.eq_of_failed {s s' : EnaState} {status : AdminStatus} {resp : Bytes}
    (h : QueueCmd s (status,resp,s')) (hs : status ≠ .success) : s' = s := by
  cases h with
  | refused => rfl
  | createCq => exact absurd rfl hs
  | destroyCq => exact absurd rfl hs
  | createSq => exact absurd rfl hs
  | destroySq => exact absurd rfl hs

lemma setHostAttr_eq_self {s : EnaState} {cmd : Bytes} (h0 : s.hostInfoAddr = enaMemAddr cmd 20)
    (h1 : s.debugAreaAddr = enaMemAddr cmd 28) (h2 : s.debugAreaSize = le32At cmd 36) :
    s.setHostAttr cmd = s := by
  unfold EnaState.setHostAttr
  rw [← h0,← h1,← h2]

lemma ne_setHostAttr {s : EnaState} {cmd : Bytes} (hc : HostAttrClobber s cmd) :
    s.setHostAttr cmd ≠ s := by
  obtain ⟨-,-,-,haddr,hdiff⟩ := hc
  intro he
  have h0 : enaMemAddr cmd 20 = s.hostInfoAddr := congrArg EnaState.hostInfoAddr he
  have h1 : enaMemAddr cmd 28 = s.debugAreaAddr := congrArg EnaState.debugAreaAddr he
  have h2 : le32At cmd 36 = s.debugAreaSize := congrArg EnaState.debugAreaSize he
  rcases hdiff with hd | hd | hd
  · exact hd (h0 ▸ haddr)
  · exact hd h1.symm
  · exact hd h2.symm

/-- What a failed command leaves behind. -/
lemma Executed.eq_of_failed {w w' : World} {cmd resp : Bytes} {status : AdminStatus}
    (h : Executed w cmd (status,resp,w')) (hs : status ≠ .success)
    (hc : ¬ HostAttrClobber w.dev cmd) : w' = w := by
  cases h with
  | refused => rfl
  | queues hq => rw [hq.eq_of_failed hs,World.setDev_dev]
  | hostAttrRefused hop hsel hid haddr =>
    have hsame : ¬(w.dev.hostInfoAddr ≠ 0 ∨ w.dev.debugAreaAddr ≠ enaMemAddr cmd 28 ∨
        w.dev.debugAreaSize ≠ le32At cmd 36) := fun hd => hc ⟨hop,hsel,hid,haddr,hd⟩
    push Not at hsame
    rw [setHostAttr_eq_self (hsame.1.trans haddr.symm) hsame.2.1 hsame.2.2,World.setDev_dev]
  | reported => exact absurd rfl hs
  | ctrlReported => exact absurd rfl hs
  | hostAttr => exact absurd rfl hs
  | aenqConfig => exact absurd rfl hs
  | mtu => exact absurd rfl hs
  | llq => exact absurd rfl hs
  | rss => exact absurd rfl hs

/-- The refusal that comes after the assignments. -/
lemma enaAdminExec_hostAttr_zero {w : World} {cmd : Bytes}
    (hop : Opcode.ofCode (u8At cmd 2) = some .setFeature) (hsel : u8At cmd 16 &&& 3 = 0)
    (hid : Feature.ofId (u8At cmd 17) = some .hostAttrConfig) (haddr : enaMemAddr cmd 20 = 0) :
    enaAdminExec w cmd = .ok (.illegalParameter,noResp,w.setDev (w.dev.setHostAttr cmd)) := by
  unfold enaAdminExec enaSetFeature EnaState.setHostAttr
  simp only [hop, FeatCmd.ofBytes, hsel, hid, haddr, ne_eq, not_true_eq_false, if_false, if_true]
  rfl

/-- The commands that fail atomically are exactly those that are no clobbering host-attribute
command. -/
theorem failsAtomically_iff (w : World) (cmd : Bytes) :
    FailsAtomically w cmd ↔ ¬ HostAttrClobber w.dev cmd := by
  constructor
  · intro hatom hc
    obtain ⟨hop,hsel,hid,haddr,-⟩ := id hc
    have heq := hatom _ _ _ (enaAdminExec_hostAttr_zero hop hsel hid haddr) (by decide)
    exact ne_setHostAttr hc (congrArg World.dev heq)
  · intro hc status resp w' hok hs
    have hex : Executed w cmd (status,resp,w') := (enaAdminExec_spec w cmd).of_ok hok
    exact hex.eq_of_failed hs hc

/-- A host-attribute command with no OS-info address and a debug area of 4 KiB. -/
def debugOnlyCmd : Bytes :=
  [1,0,9,0] ++ zeros 13 ++ [28] ++ zeros 19 ++ [0x10] ++ zeros 26

/-- Right after a reset the command is refused, and the debug-area size has changed. -/
theorem debugOnlyCmd_not_atomic :
    debugOnlyCmd.length = 64 ∧ Reachable Net.nonIp
      (enaDevReset (World.powerOn (fun _ => 2) false)) ∧
      ¬ FailsAtomically (enaDevReset (World.powerOn (fun _ => 2) false)) debugOnlyCmd := by
  refine ⟨rfl,⟨_,[],rfl⟩,?_⟩
  intro hatom
  have hok : enaAdminExec (enaDevReset (World.powerOn (fun _ => 2) false)) debugOnlyCmd = _ :=
    enaAdminExec_hostAttr_zero (by decide) (by decide) (by decide) (by decide)
  have heq := hatom _ _ _ hok (by decide)
  have hsize : (0x1000 : UInt32) = 0 := congrArg (fun w => w.dev.debugAreaSize) heq
  exact absurd hsize (by decide)

end EnaDevice
