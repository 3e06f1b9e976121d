import EnaDevice.Invariant.Safety
import EnaDevice.Twin.Veil

/-! Runs that cannot be told apart: after a reset nothing of the past matters, and what a failed
read leaves behind does not matter where the code looks at the result of the read. -/
namespace EnaDevice
open Bytes Result

/-- The world with other things having happened before. -/
def World.after (t : List Event) (w : World) : World := { w with trace := t ++ w.trace }

/-- The world with other bytes where reads fail. -/
def World.withStale (w : World) (stale : UInt64 → UInt8) : World :=
  { w with mem := { w.mem with stale := stale } }

section
variable {net : Net} {w : World} {inp : Input}

lemma veil_event (t : List Event) (f : (UInt64 → UInt8) → UInt64 → UInt8) :
    (veil t f).event = id := by
  funext e
  cases e <;> rfl

lemma veil_wear (t : List Event) (f : (UInt64 → UInt8) → UInt64 → UInt8) (w : World) :
    (veil t f).wear w = (w.after t).withStale (f w.mem.stale) := by
  unfold Guise.wear
  rw [veil_event,List.map_id]
  rfl

lemma UncheckedReads.of_forall {Q : Memory → UInt64 → ℕ → Prop} (h : ∀ m a n, Q m a n) :
    UncheckedReads Q net w inp := by
  have hadmin : ∀ r tail n w, AdminReads Q r tail n w := by
    intro r tail n
    induction n with
    | zero => exact fun _ => trivial
    | succ n ih => exact fun w _ => ⟨h _ _ _,fun _ _ _ _ _ => h _ _ _,fun w' _ => ih w'⟩
  have htx : ∀ i n w, TxReads Q net i n w := by
    intro i n
    induction n with
    | zero => exact fun _ => trivial
    | succ n ih => exact fun w _ => ⟨txLooksAt_of_all (fun _ _ => h _ _ _) _ _,fun w' _ => ih w'⟩
  cases inp with
  | regWrite addr val =>
    exact ⟨fun i _ _ _ _ => htx i _ _,fun _ _ _ _ _ _ => hadmin _ _ _ _⟩
  | _ => trivial

/-- A step does not depend on the past. -/
lemma step_after (t : List Event) (hw : TableInv w.dev) :
    step net (w.after t) inp = (step net w inp).map (World.after t) := by
  have hwear : ∀ w, (veil t id).wear w = w.after t := fun w => veil_wear t id w
  have hmap : (veil t id).wear = World.after t := funext hwear
  cases inp with
  | guest mem llq => rfl
  | _ =>
    rw [← hwear,← hmap]
    exact veil_step hw (fun _ _ he => by cases he) (.of_forall fun _ _ _ => rfl)

lemma run_after (t : List Event) (inputs : List Input) (hw : TableInv w.dev ∧ TxIdle none w.dev) :
    run net (w.after t) inputs = (run net w inputs).map (World.after t) := by
  induction inputs generalizing w with
  | nil => rfl
  | cons inp inputs ih =>
    rw [run,run]
    exact bind_map (step_after t hw.1) fun w' hw' => ih (step_tables hw hw')

end

/-- Two runs that cannot be told apart: whatever comes of the one comes of the other, in the same
state and with the same actions on the way. -/
def Indistinct (net : Net) (w₁ w₂ : World) (inputs : List Input) : Prop :=
  ∃ r : Except Fault World, run net w₁ inputs = r.map (World.after w₁.trace) ∧
    run net w₂ inputs = r.map (World.after w₂.trace)

lemma enaRegWrite_devCtl (net : Net) (w : World) (val : UInt64) :
    enaRegWrite net w regDevCtl val = enaDevCtlWrite w val.toUInt32 := by
  unfold enaRegWrite
  rw [dif_neg (by decide),dif_neg (by decide),if_neg (by decide),if_neg (by decide),if_pos rfl]

lemma enaDevCtlWrite_reset {val : UInt32} (hval : val &&& 1 ≠ 0) (w : World) :
    enaDevCtlWrite w val = if val &&& ~~~devCtlKnown ≠
      0 then .error (.unsupported (.devCtlWrite val))
      else .ok ((enaDevReset w).setDev
        (((enaDevReset w).dev.setReg regDevCtl val).setReg regDevSts devStsResetInProgress)) := by
  unfold enaDevCtlWrite
  rw [if_pos hval]

/-- A reset leaves nothing of the device's past: two devices with the same address, property,
memory, clock and link cannot be told apart from a reset on, whatever they went through before
it. -/
theorem reset_forgets {net : Net} {w₁ w₂ : World} {val : UInt64} (hval : val.toUInt32 &&& 1 ≠ 0)
    (hmac : w₂.dev.macaddr = w₁.dev.macaddr) (hlarge : w₂.dev.llqLarge = w₁.dev.llqLarge)
    (hmem : w₂.mem = w₁.mem) (hllq : w₂.llq = w₁.llq) (hclock : w₂.clock = w₁.clock)
    (hlink : w₂.linkUp = w₁.linkUp) (inputs : List Input) :
    Indistinct net w₁ w₂ (.regWrite regDevCtl val::inputs) := by
  -- both worlds are one and the same after the reset, but for what happened before it
  let s := (w₁.dev.devReset.setReg regDevCtl val.toUInt32).setReg regDevSts devStsResetInProgress
  let w : World := { w₁ with dev := s, trace := [.reset] }
  have hdev : w₂.dev.devReset = w₁.dev.devReset := by
    unfold EnaState.devReset
    rw [hmac,hlarge]
  have htables : TableInv w.dev ∧ TxIdle none w.dev :=
    ⟨(tableInv_devReset w₁.dev).of_sameQueues ⟨rfl,rfl,rfl,rfl,rfl,rfl⟩,fun _ _ hu => by cases hu⟩
  refine ⟨if val.toUInt32 &&& ~~~devCtlKnown ≠
    0 then .error (.unsupported (.devCtlWrite val.toUInt32))
    else run net w inputs,?_,?_⟩
  · rw [run,step,enaRegWrite_devCtl,enaDevCtlWrite_reset hval]
    split_ifs
    · rfl
    · rw [← run_after _ _ htables]
      rfl
  · rw [run,step,enaRegWrite_devCtl,enaDevCtlWrite_reset hval]
    split_ifs
    · rfl
    · rw [← run_after _ _ htables]
      refine congrArg (fun w => run net w inputs) ?_
      unfold enaDevReset World.setDev World.emit World.after
      rw [hdev,hmem,hllq,hclock,hlink]

/-- The end of the reset, and then a TX queue is set up again and rung while time passes. -/
def setupAgain : List Input :=
  [.regWrite regDevCtl 0] ++ driverSetup [createCqCmd,createSqCmd sqIdentityTx] [] ++
    [.tick 1000,.regWrite regSqDbBase 3]

/-- A device with a TX queue on which a packet was refused is reset, and set up like a fresh one. -/
theorem reset_forgets_cq :
    ∃ w w', run Net.nonIp freshWorld (driverSetup [createCqCmd,createSqCmd sqIdentityTx] [] ++
        [.regWrite regSqDbBase 5]) = .ok w ∧ (w.dev.sq 0).head = 5 ∧
      Indistinct Net.nonIp { freshWorld with mem := w.mem, llq := w.llq } w
        (.regWrite regDevCtl 1::setupAgain) ∧
      run Net.nonIp w (.regWrite regDevCtl 1::setupAgain) = .ok w' ∧ (w'.dev.sq 0).head = 3 := by
  obtain ⟨w,hrun,htest⟩ := exists_of_okAnd (p := fun w => decide ((w.dev.sq 0).head = 5 ∧
        w.dev.macaddr = freshWorld.dev.macaddr ∧ w.dev.llqLarge = freshWorld.dev.llqLarge ∧
        w.clock = freshWorld.clock ∧ w.linkUp = freshWorld.linkUp) &&
      okAnd (fun w' => decide ((w'.dev.sq 0).head = 3))
        (run Net.nonIp w (.regWrite regDevCtl 1::setupAgain)))
    (x := run Net.nonIp freshWorld (driverSetup [createCqCmd,createSqCmd sqIdentityTx] [] ++
      [.regWrite regSqDbBase 5])) (by decide +kernel)
  rw [Bool.and_eq_true,decide_eq_true_iff] at htest
  obtain ⟨⟨hhead,hmac,hlarge,hclock,hlink⟩,htest⟩ := htest
  obtain ⟨w',hrun',hhead'⟩ := exists_of_okAnd htest
  have hval : (1 : UInt64).toUInt32 &&& 1 ≠ 0 := by decide
  exact ⟨w,w',hrun,hhead,@reset_forgets Net.nonIp { freshWorld with mem := w.mem, llq := w.llq } w 1
    hval hmac hlarge rfl rfl hclock hlink setupAgain,hrun',of_decide_eq_true hhead'⟩

/-- A driver that resets the device, programs an AENQ of 16 entries and asks for link changes. -/
def linkChangeSetup : List Input :=
  [.regWrite regDevCtl 1,.regWrite regAenqBaseLo 0x5000,.regWrite regAenqCaps 0x400010,
    .regWrite regAenqHeadDb 16] ++ driverSetup [enableLinkChangeCmd] []

/-- The link is not part of the device: its state survives the reset and shows in the first
event. -/
theorem reset_keeps_link :
    ∃ w₁ w₂, Reachable Net.nonIp w₁ ∧ Reachable Net.nonIp w₂ ∧ w₂.dev.macaddr = w₁.dev.macaddr ∧
      w₂.dev.llqLarge = w₁.dev.llqLarge ∧ w₂.mem = w₁.mem ∧ w₂.llq = w₁.llq ∧ w₂.clock = w₁.clock ∧
      ¬ Indistinct Net.nonIp w₁ w₂ linkChangeSetup := by
  refine ⟨freshWorld,{ freshWorld with linkUp := false },⟨_,[],rfl⟩,
    ⟨{ World.powerOn (fun _ => 2) false with linkUp := false },[],rfl⟩,rfl,rfl,rfl,rfl,rfl,?_⟩
  rintro ⟨r,hup,hdown⟩
  obtain ⟨w₁,hw₁,hbyte₁⟩ := exists_of_okAnd (p := fun w => w.mem.byte 0x5010 == 1)
    (x := run Net.nonIp freshWorld linkChangeSetup) (by decide +kernel)
  obtain ⟨w₂,hw₂,hbyte₂⟩ := exists_of_okAnd (p := fun w => w.mem.byte 0x5010 == 0)
    (x := run Net.nonIp { freshWorld with linkUp := false } linkChangeSetup) (by decide +kernel)
  rw [hw₁] at hup
  rw [hw₂] at hdown
  cases r with
  | error e => cases hup
  | ok w =>
    obtain rfl := Except.ok.inj hup
    obtain rfl := Except.ok.inj hdown
    exact absurd ((beq_iff_eq.mp hbyte₁).symm.trans (beq_iff_eq.mp hbyte₂)) (by decide)

/-- The same input, up to the bytes that later reads leave behind when they fail. -/
def Input.Twin (inp inp' : Input) : Prop :=
  match inp with
  | .guest mem llq => ∃ stale, inp' = .guest { mem with stale := stale } llq
  | _ => inp' = inp

section
variable {net : Net} {w : World} {inp inp' : Input} {Q R : Memory → UInt64 → ℕ → Prop}

lemma CmdReads.mono (h : ∀ m a n, Q m a n → R m a n) {m : Memory} {cmd : Bytes}
    (hq : CmdReads Q m cmd) :
    CmdReads R m cmd := fun hop hflags a n hr => h m a n (hq hop hflags a n hr)

lemma AdminReads.mono (h : ∀ m a n, Q m a n → R m a n) {r : AdminRings} {tail : UInt16} {n : ℕ}
    (hq : AdminReads Q r tail n w) : AdminReads R r tail n w := by
  induction n generalizing w with
  | zero => trivial
  | succ n ih =>
    intro hne
    obtain ⟨hentry,hcmd,hnext⟩ := hq hne
    exact ⟨h _ _ _ hentry,hcmd.mono h,fun w' hw' => ih (hnext w' hw')⟩

lemma TxReads.mono (h : ∀ m a n, Q m a n → R m a n) {i : SqIdx} {n : ℕ} (hq : TxReads Q net i n w) :
    TxReads R net i n w := by
  induction n generalizing w with
  | zero => trivial
  | succ n ih =>
    intro hne
    obtain ⟨hlooks,hnext⟩ := hq hne
    exact ⟨hlooks.mono fun _ hs hl => h _ _ _ (hs hl),fun w' hw' => ih (hnext w' hw')⟩

lemma UncheckedReads.mono (h : ∀ m a n, Q m a n → R m a n) (hq : UncheckedReads Q net w inp) :
    UncheckedReads R net w inp := by
  cases inp with
  | regWrite addr val =>
    exact ⟨fun i hi hu htx hc => (hq.1 i hi hu htx hc).mono h,
      fun ha h1 h2 h3 h4 h5 => (hq.2 ha h1 h2 h3 h4 h5).mono h⟩
  | _ => trivial

/-- The reads whose result the code ignores all succeed in this step. -/
def ReadsSucceed (net : Net) (w : World) (inp : Input) : Prop :=
  UncheckedReads (fun m a n => m.okAt a n = true) net w inp

lemma step_withStale (stale : UInt64 → UInt8) (hw : TableInv w.dev) (hin : inp.Twin inp')
    (h : ReadsSucceed net w inp) :
    ∃ stale', step net (w.withStale stale) inp' =
      (step net w inp).map (World.withStale · stale') := by
  have hmap : (veil [] fun _ => stale).wear = (World.withStale · stale) :=
    funext fun w => veil_wear [] (fun _ => stale) w
  have hstep : (∀ m l, inp ≠ .guest m l) → step net (w.withStale stale) inp =
      (step net w inp).map (World.withStale · stale) := by
    intro hguest
    rw [← hmap]
    change step net ((World.withStale · stale) w) inp = _
    rw [← hmap]
    exact veil_step hw hguest (h.mono fun m a n hok => unveiled_of_okAt hok)
  cases inp with
  | guest mem llq =>
    obtain ⟨stale',rfl⟩ := hin
    exact ⟨stale',rfl⟩
  | _ =>
    obtain rfl := hin
    exact ⟨stale,hstep fun _ _ he => by cases he⟩

/-- Where the ignored reads succeed, runs that differ in the leftovers of failed reads have the same
outcome, the same device state and the same actions. -/
theorem run_withStale {inputs inputs' : List Input} (h : Reachable net w)
    (hin : List.Forall₂ Input.Twin inputs inputs')
    (hreads : ∀ n inp w', inputs[n]? = some inp → run net w (inputs.take n) = .ok w' →
      ReadsSucceed net w' inp) (stale : UInt64 → UInt8) :
    ∃ stale', run net (w.withStale stale) inputs' = (run net w inputs).map
      (World.withStale · stale') := by
  have htables := h.tables
  clear h
  induction hin generalizing w stale with
  | nil => exact ⟨stale,rfl⟩
  | @cons inp inp' inputs inputs' hhead _ ih =>
    obtain ⟨stale₁,hstep⟩ := step_withStale stale htables.1 hhead (hreads 0 inp w rfl rfl)
    rw [run,run,hstep]
    cases hw₁ : step net w inp with
    | error e => exact ⟨stale₁,rfl⟩
    | ok w₁ =>
      refine ih (fun n inp w' hget hrun => hreads (n+1) inp w' hget ?_) stale₁
        (step_tables htables hw₁)
      rw [List.take_succ_cons,run,hw₁]
      exact hrun

/-- Memory that cannot be read, with the given bytes left behind by failed reads. -/
def unreadable (segs : List (UInt64 × Bytes)) : Memory :=
  { Memory.ofSegments [] with readable := fun _ => false, stale := (Memory.ofSegments segs).byte }

/-- A posted RX descriptor that cannot be read costs the frame, whatever its bytes are. -/
theorem run_withStale_rx :
    ∃ w, run Net.nonIp freshWorld (driverSetup [createCqCmd,createSqCmd sqIdentityRx] [] ++
        [.regWrite regSqDbBase 4]) = .ok w ∧ (w.dev.sq 0).tail = 4 ∧
      ∃ stale', run Net.nonIp (w.withStale fun _ => 7)
          [.guest (unreadable [(0x4000,[1])]) fun _ => 0,.receive (List.replicate 60 1)] =
        (run Net.nonIp w [.guest (unreadable []) fun _ => 0,.receive (List.replicate 60 1)]).map
          (World.withStale · stale') := by
  obtain ⟨w,hrun,htail⟩ := exists_of_okAnd (p := fun w => (w.dev.sq 0).tail == 4)
    (x := run Net.nonIp freshWorld (driverSetup [createCqCmd,createSqCmd sqIdentityRx] [] ++
      [.regWrite regSqDbBase 4])) (by decide +kernel)
  refine ⟨w,hrun,beq_iff_eq.mp htail,?_⟩
  have hguest : (Input.guest (unreadable []) fun _ => 0).Twin
    (.guest (unreadable [(0x4000,[1])]) fun _ => 0) := ⟨_,rfl⟩
  have hframe : (Input.receive (List.replicate 60 1)).Twin (.receive (List.replicate 60 1)) := rfl
  refine run_withStale (reachable_of_run hrun) (.cons hguest (.cons hframe .nil)) ?_ _
  intro n inp w' hget _
  match n with
  | 0 =>
    cases hget
    trivial
  | 1 =>
    cases hget
    trivial
  | n+2 => cases hget

/-- A driver that rings for one command which the device cannot read. -/
def unreadableCmd (leftover : Bytes) : List Input :=
  [.guest (unreadable [(0x1000,leftover)]) fun _ => 0,
    .regWrite regAqBaseLo 0x1000,.regWrite regAqCaps 0x400010,
    .regWrite regAcqBaseLo 0x2000,.regWrite regAcqCaps 0x400010,.regWrite regAqDb 1]

/-- A command that could not be read is executed all the same, from the bytes that were there. -/
theorem unreadableCmd_executed :
    List.Forall₂ Input.Twin (unreadableCmd []) (unreadableCmd setMtuCmd) ∧
      ¬ ∃ stale', run Net.nonIp freshWorld (unreadableCmd setMtuCmd) =
        (run Net.nonIp freshWorld (unreadableCmd [])).map (World.withStale · stale') := by
  refine ⟨.cons ⟨_,rfl⟩ (.cons rfl (.cons rfl (.cons rfl (.cons rfl (.cons rfl .nil))))),?_⟩
  rintro ⟨stale',heq⟩
  obtain ⟨w,hw,hmtu⟩ := exists_of_okAnd (p := fun w => w.dev.mtu == 9000)
    (x := run Net.nonIp freshWorld (unreadableCmd [])) (by decide +kernel)
  obtain ⟨w',hw',hmtu'⟩ := exists_of_okAnd (p := fun w => w.dev.mtu == 1500)
    (x := run Net.nonIp freshWorld (unreadableCmd setMtuCmd)) (by decide +kernel)
  rw [hw,hw'] at heq
  obtain rfl := Except.ok.inj heq
  exact absurd ((beq_iff_eq.mp hmtu).symm.trans (beq_iff_eq.mp hmtu')) (by decide)

end

end EnaDevice
