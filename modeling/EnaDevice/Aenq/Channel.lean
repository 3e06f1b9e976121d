import EnaDevice.Lib.PhaseRing
import EnaDevice.Control.Registers
import EnaDevice.Control.Features

/-! The event queue between device and driver. The device posts events while the head doorbell
grants credit, the driver reads them by phase bit and returns the credit of each. -/
namespace EnaDevice
open Bytes Result PhaseRing Relation

/-- Phase bit of an AENQ entry, in the byte `flags`. -/
def aenqPhaseBit (entry : Bytes) : Bool := u8At entry 4 &&& 1 != 0

/-- A poll as `ena_aenq_poll` does it, before it writes the head doorbell. -/
def aenqPoll (m : Memory) (base : UInt64) (depth : UInt16) (d : RingDriver) :
    Option (Bytes × RingDriver) :=
  let entry := m.bytesAt (base + (d.head % depth).toUInt64*64) 64
  if aenqPhaseBit entry = d.phase then
    some (entry,⟨d.head + 1,if (d.head + 1) % depth = 0 then !d.phase else d.phase⟩)
  else none

/-- An event that was posted, as the entry that was written. -/
def Event.aenqPost : Event → Option Bytes
  | .dmaWrite .aenq _ _ data => some data
  | _ => none

/-- The events that were posted from one world to a later one. -/
def newAenq (w w' : World) : List Bytes := (w'.trace.drop w.trace.length).filterMap Event.aenqPost

def World.aenqRing (w : World) (k : ℕ) : Bytes := w.mem.slot w.dev.aenqBase 64 k

abbrev EnaState.aenqDepth (s : EnaState) : UInt16 := s.capsDepth regAenqCaps
abbrev EnaState.aenqHeadDb (s : EnaState) : UInt16 := (s.getReg regAenqHeadDb).toUInt16

/-- Device and driver at the AENQ, with the events posted and read so far. -/
structure AenqChannel where
  w : World
  driver : RingDriver
  posted : List Bytes
  read : List Bytes

/-- The AENQ and its ring are left alone. -/
structure SameAenq (w w' : World) : Prop where
  base : w'.dev.aenqBase = w.dev.aenqBase
  depth : w'.dev.aenqDepth = w.dev.aenqDepth
  headDb : w'.dev.aenqHeadDb = w.dev.aenqHeadDb
  tailReg : w'.dev.getReg regAenqTail = w.dev.getReg regAenqTail
  tail : w'.dev.aenqTail = w.dev.aenqTail
  phase : w'.dev.aenqPhase = w.dev.aenqPhase
  ring : ∀ k < w.dev.aenqDepth.toNat, w'.aenqRing k = w.aenqRing k

namespace AenqChannel

/-- The driver programmed the queue over a ring without phase bits, and wrote the depth to the head
doorbell. -/
structure Start (s : AenqChannel) : Prop where
  base : s.w.dev.aenqBase ≠ 0
  depth : s.w.dev.aenqDepth.toNat.isPowerOfTwo
  tail : s.w.dev.aenqTail = 0
  phase : s.w.dev.aenqPhase = true
  tailReg : s.w.dev.getReg regAenqTail = 0
  headDb : s.w.dev.aenqHeadDb = s.w.dev.aenqDepth
  clear : ∀ k < s.w.dev.aenqDepth.toNat, aenqPhaseBit (s.w.aenqRing k) = false
  driver : s.driver = ⟨s.w.dev.aenqDepth,true⟩
  posted : s.posted = []
  read : s.read = []

inductive Step (net : Net) (s : AenqChannel) : AenqChannel → Prop
  | link {up : Bool} {w' : World} (h : step net s.w (.linkChange up) = .ok w') :
    Step net s { s with w := w', posted := s.posted ++ newAenq s.w w' }
  | keepAlive {w' : World} (h : step net s.w .keepAliveTimer = .ok w') :
    Step net s { s with w := w', posted := s.posted ++ newAenq s.w w' }
  | config {cmd resp : Bytes} {status : AdminStatus} {w' : World} (hset : IsSet .aenqConfig cmd)
    (h : enaAdminExec s.w cmd = .ok (status,resp,w')) :
    Step net s { s with w := w', posted := s.posted ++ newAenq s.w w' }
  /-- The driver reads an entry and writes its head to the doorbell. -/
  | poll {entry : Bytes} {d : RingDriver} {val : UInt64} {w' : World}
    (h : aenqPoll s.w.mem s.w.dev.aenqBase s.w.dev.aenqDepth s.driver = some (entry,d))
    (hval : val.toUInt32.toUInt16 = d.head)
    (hdb : step net s.w (.regWrite regAenqHeadDb val) = .ok w') :
    Step net s { s with w := w', driver := d, read := s.read ++ [entry] }
  /-- Anything else. -/
  | other {w' : World} (h : SameAenq s.w w') : Step net s { s with w := w' }

inductive Run (net : Net) : AenqChannel → Prop
  | start {s : AenqChannel} (h : Start s) : Run net s
  | step {s s' : AenqChannel} (h : Run net s) (hs : Step net s s') : Run net s'

/-- The ring holds the last lap of events, and both sides know where they are in it. The head
doorbell is a lap ahead of the events read. -/
structure Inv (s : AenqChannel) : Prop where
  base : s.w.dev.aenqBase ≠ 0
  depth : s.w.dev.aenqDepth.toNat.isPowerOfTwo
  contents : Contents s.w.dev.aenqDepth.toNat aenqPhaseBit s.w.aenqRing s.posted
  tail : At s.w.dev.aenqDepth.toNat s.w.dev.aenqTail s.w.dev.aenqPhase s.posted.length
  tailReg : s.w.dev.getReg regAenqTail = s.w.dev.aenqTail.toUInt32
  headDb : s.w.dev.aenqHeadDb = UInt16.ofNat (s.w.dev.aenqDepth.toNat + s.read.length)
  head : s.driver.head = UInt16.ofNat (s.w.dev.aenqDepth.toNat + s.read.length)
  driverPhase : s.driver.phase = lapPhase s.w.dev.aenqDepth.toNat s.read.length
  fifo : ∃ unread, s.posted = s.read ++ unread
  room : s.posted.length ≤ s.read.length + s.w.dev.aenqDepth.toNat

end AenqChannel

namespace SameAenq
variable {w w' w'' : World}

lemma refl (w : World) : SameAenq w w := ⟨rfl,rfl,rfl,rfl,rfl,rfl,fun _ _ => rfl⟩

lemma trans (h : SameAenq w w') (h' : SameAenq w' w'') : SameAenq w w'' :=
  ⟨h'.base.trans h.base,h'.depth.trans h.depth,h'.headDb.trans h.headDb,h'.tailReg.trans h.tailReg,
    h'.tail.trans h.tail,h'.phase.trans h.phase,
    fun k hk => (h'.ring k (by rw [h.depth]; exact hk)).trans (h.ring k hk)⟩

/-- The link, the event groups and the keep-alive timer are not part of the queue. -/
lemma setLink (w : World) (up : Bool) : SameAenq w { w with linkUp := up } :=
  ⟨rfl,rfl,rfl,rfl,rfl,rfl,fun _ _ => rfl⟩

lemma setGroups (w : World) (groups : UInt32) :
    SameAenq w (w.setDev { w.dev with aenqGroups := groups }) :=
  ⟨rfl,rfl,rfl,rfl,rfl,rfl,fun _ _ => rfl⟩

lemma setTimer (w : World) (timer : Option ℕ) :
    SameAenq w (w.setDev { w.dev with keepAliveTimer := timer }) :=
  ⟨rfl,rfl,rfl,rfl,rfl,rfl,fun _ _ => rfl⟩

end SameAenq

/-- The world after an event was posted. -/
def World.aenqPosted (w : World) (entry : Bytes) : World :=
  enaAdminIntr ((enaDmaWrite w .aenq w.dev.aenqSlot entry).setDev w.dev.aenqAdvance)

section Post
variable {w w' : World} {group : AenqGroup} {syndrome : UInt16} {data : Bytes}

lemma newAenq_of_trace (es : List Event) (h : w'.trace = w.trace ++ es) :
    newAenq w w' = es.filterMap Event.aenqPost := by rw [newAenq,h,List.drop_left]

lemma newAenq_self (w : World) : newAenq w w = [] := newAenq_of_trace [] (List.append_nil _).symm

lemma newAenq_aenqPosted (w : World) (entry : Bytes) :
    newAenq w (w.aenqPosted entry) = [entry] := by
  unfold World.aenqPosted enaAdminIntr
  split_ifs
  · exact newAenq_of_trace [.dmaWrite .aenq w.dev w.dev.aenqSlot entry] rfl
  · refine newAenq_of_trace (w := w) [.dmaWrite .aenq w.dev w.dev.aenqSlot entry,.msixNotify 0] ?_
    change (w.trace ++ [_]) ++ [_] = _
    rw [List.append_assoc]
    rfl

/-- An event is posted if its group is enabled and there is credit. -/
lemma enaAenqPost_eq (hbase : w.dev.aenqBase ≠ 0) (hdepth : w.dev.aenqDepth ≠ 0)
    (hlen : data.length ≤ 48) :
    enaAenqPost w group syndrome data =
      .ok (if w.dev.aenqGroups &&& bit group.code = 0 ∨
      w.dev.aenqHeadDb - w.dev.aenqTail > w.dev.aenqDepth ∨
          w.dev.aenqHeadDb = w.dev.aenqTail then w
        else w.aenqPosted (aenqEntry group syndrome w.dev.aenqPhase w.clockUs data)) := by
  unfold enaAenqPost
  dsimp only
  simp only [check,hlen,decide_true,if_true,ok_bind,hbase,false_or]
  by_cases hgroup : w.dev.aenqGroups &&& bit group.code = 0
  · rw [if_pos (.inr hgroup),if_pos (.inl hgroup)]
    rfl
  rw [if_neg (by rw [not_or]; exact ⟨hdepth,hgroup⟩)]
  by_cases hpast : w.dev.aenqHeadDb - w.dev.aenqTail > w.dev.aenqDepth
  · rw [if_pos hpast,if_pos (.inr (.inl hpast))]
    rfl
  rw [if_neg hpast]
  by_cases hfull : w.dev.aenqHeadDb = w.dev.aenqTail
  · rw [if_pos hfull,if_pos (.inr (.inr hfull))]
    rfl
  have hpost : ¬ (w.dev.aenqGroups &&& bit group.code = 0 ∨
      w.dev.aenqHeadDb - w.dev.aenqTail > w.dev.aenqDepth ∨ w.dev.aenqHeadDb = w.dev.aenqTail) := by
    rw [not_or,not_or]
    exact ⟨hgroup,hpast,hfull⟩
  rw [if_neg hfull,if_neg hpost,modDepth_of_ne_zero hdepth,ok_bind,modDepth_of_ne_zero hdepth,
    ok_bind]
  rfl

lemma aenqEntry_phase (phase : Bool) (us : ℕ) :
    aenqPhaseBit (aenqEntry group syndrome phase us data) = phase := by
  have hbyte : u8At (aenqEntry group syndrome phase us data) 4 = if phase then 1 else 0 := rfl
  rw [aenqPhaseBit,hbyte]
  cases phase <;> rfl

end Post

namespace AenqChannel
variable {net : Net} {s s' : AenqChannel} {w' : World}

lemma Start.inv (h : Start s) : Inv s := by
  have hpos := Counter.depth_pos h.depth
  refine ⟨h.base,h.depth,?_,?_,?_,?_,?_,?_,⟨[],by rw [h.posted,h.read]; rfl⟩,by simp [h.posted]⟩
  · rw [h.posted]
    exact .empty h.clear
  · rw [h.posted,h.tail,h.phase]
    exact At.zero _ hpos
  · rw [h.tailReg,h.tail]
    rfl
  · rw [h.headDb,h.read,List.length_nil,Nat.add_zero,UInt16.ofNat_toNat]
  · rw [h.driver,h.read,List.length_nil,Nat.add_zero,UInt16.ofNat_toNat]
  · rw [h.driver,h.read]
    exact (lapPhase_of_lt hpos).symm

lemma Inv.other (h : Inv s) (hs : SameAenq s.w w') : Inv { s with w := w' } := by
  refine ⟨?_,?_,?_,?_,?_,?_,?_,?_,h.fifo,?_⟩ <;> dsimp only
  · rw [hs.base]
    exact h.base
  · rw [hs.depth]
    exact h.depth
  · rw [hs.depth]
    exact h.contents.congr (Counter.depth_pos h.depth) hs.ring
  · rw [hs.depth,hs.tail,hs.phase]
    exact h.tail
  · rw [hs.tailReg,hs.tail]
    exact h.tailReg
  · rw [hs.headDb,hs.depth]
    exact h.headDb
  · rw [hs.depth]
    exact h.head
  · rw [hs.depth]
    exact h.driverPhase
  · rw [hs.depth]
    exact h.room

lemma Inv.read_le (h : Inv s) : s.read.length ≤ s.posted.length := by
  obtain ⟨unread,hu⟩ := h.fifo
  rw [hu,List.length_append]
  omega

/-- The credit that the head doorbell grants is the free part of the ring. -/
lemma Inv.credit (h : Inv s) : (s.w.dev.aenqHeadDb - s.w.dev.aenqTail).toNat =
    s.w.dev.aenqDepth.toNat + s.read.length - s.posted.length := by
  obtain ⟨k,hk,hd⟩ := Counter.exists_pow h.depth
  have hmax : s.w.dev.aenqDepth.toNat ≤ 2^15 := by
    rw [hd]
    exact Nat.pow_le_pow_right (by norm_num) (by omega)
  have hroom := h.room
  have hread := h.read_le
  rw [h.headDb,h.tail.idx]
  exact Counter.ofNat_sub_toNat (by omega) (by omega)

/-- The device never finds the head past the depth, and finds it at the tail when the ring is
full. -/
lemma Inv.full_iff (h : Inv s) : ¬ s.w.dev.aenqHeadDb - s.w.dev.aenqTail > s.w.dev.aenqDepth ∧
    (s.w.dev.aenqHeadDb = s.w.dev.aenqTail ↔
    s.posted.length = s.read.length + s.w.dev.aenqDepth.toNat) := by
  have hcredit := h.credit
  have hroom := h.room
  have hread := h.read_le
  constructor
  · rw [gt_iff_lt,UInt16.lt_iff_toNat_lt,hcredit]
    omega
  · rw [eq_comm,← Counter.sub_toNat_eq_zero_iff,hcredit]
    omega

/-- A posted event goes where the oldest entry was, and that one was read. -/
lemma Inv.posts (h : Inv s) (hroom : s.posted.length < s.read.length + s.w.dev.aenqDepth.toNat)
    {entry : Bytes} (hlen : entry.length = 64) (hphase : aenqPhaseBit entry = s.w.dev.aenqPhase) :
    Inv { s with w := s.w.aenqPosted entry, posted := s.posted ++ [entry] } := by
  have hpos := Counter.depth_pos h.depth
  have hmax := s.w.dev.aenqDepth.toNat_lt
  have hdev : (s.w.aenqPosted entry).dev = s.w.dev.aenqAdvance := dev_adminIntr _
  have hmem : (s.w.aenqPosted entry).mem = s.w.mem.write s.w.dev.aenqSlot entry := by
    unfold World.aenqPosted enaAdminIntr
    split_ifs <;> rfl
  have hbase : (s.w.aenqPosted entry).dev.aenqBase = s.w.dev.aenqBase := by rw [hdev]; rfl
  have hdepth : (s.w.aenqPosted entry).dev.aenqDepth = s.w.dev.aenqDepth := by rw [hdev]; rfl
  have hslot : s.w.dev.aenqSlot =
      s.w.dev.aenqBase + UInt64.ofNat (s.posted.length % s.w.dev.aenqDepth.toNat*64) := by
    rw [EnaState.aenqSlot,slot_index h.depth h.tail.idx]
  refine ⟨?_,?_,?_,?_,?_,?_,?_,?_,?_,?_⟩ <;> dsimp only
  · rw [hbase]
    exact h.base
  · rw [hdepth]
    exact h.depth
  · rw [hdepth]
    refine h.contents.push hpos (hphase.trans h.tail.phase) ?_ fun k hk hne => ?_
    · rw [World.aenqRing,hbase,hmem,hslot]
      exact Memory.slot_write_self _ _ hlen (by norm_num)
    · rw [World.aenqRing,hbase,hmem,hslot]
      exact Memory.slot_write_of_ne _ _ hlen (by omega) hk (Nat.mod_lt _ hpos) hne
  · have hnext := h.tail.succ h.depth
    rw [hdepth,List.length_append,List.length_singleton,hdev]
    simp only [← Counter.mod_eq_zero_iff] at hnext
    exact hnext
  · rw [hdev]
    exact EnaState.getReg_setReg _ _ _
  · rw [hdepth,hdev]
    exact h.headDb
  · rw [hdepth]
    exact h.head
  · rw [hdepth]
    exact h.driverPhase
  · obtain ⟨unread,hu⟩ := h.fifo
    exact ⟨unread ++ [entry],by rw [hu,List.append_assoc]⟩
  · rw [hdepth,List.length_append,List.length_singleton]
    omega

/-- An event of an enabled group is dropped exactly if the ring is full of unread events. -/
lemma Inv.post_eq (h : Inv s) {group : AenqGroup} {syndrome : UInt16} {data : Bytes}
    (hlen : data.length ≤ 48) :
    enaAenqPost s.w group syndrome data =
      .ok (if s.w.dev.aenqGroups &&& bit group.code = 0 ∨
          s.posted.length = s.read.length + s.w.dev.aenqDepth.toNat then s.w
        else s.w.aenqPosted (aenqEntry group syndrome s.w.dev.aenqPhase s.w.clockUs data)) := by
  have hdepth : s.w.dev.aenqDepth ≠ 0 := by
    intro hz
    have hpos := Counter.depth_pos h.depth
    rw [hz] at hpos
    exact absurd hpos (by decide)
  obtain ⟨hpast,hfull⟩ := h.full_iff
  rw [enaAenqPost_eq h.base hdepth hlen]
  simp only [hpast,hfull,false_or]

/-- Whatever is posted is added to the events. -/
lemma Inv.post (h : Inv s) {group : AenqGroup} {syndrome : UInt16} {data : Bytes}
    (hlen : data.length ≤ 48) (hpost : enaAenqPost s.w group syndrome data = .ok w') :
    Inv { s with w := w', posted := s.posted ++ newAenq s.w w' } := by
  rw [h.post_eq hlen] at hpost
  have hroom := h.room
  split_ifs at hpost with hdrop <;> cases hpost
  · rw [newAenq_self,List.append_nil]
    exact h
  · rw [not_or] at hdrop
    rw [newAenq_aenqPosted]
    exact h.posts (by omega) (aenqEntry_length _ _ _ _ hlen) (aenqEntry_phase _ _)

/-- Posting between two changes of other things. -/
lemma Inv.post_between (h : Inv s) {w₁ w₂ : World} {group : AenqGroup} {syndrome : UInt16}
    {data : Bytes} (hlen : data.length ≤ 48) (hbefore : SameAenq s.w w₁)
    (htrace₁ : w₁.trace = s.w.trace) (hpost : enaAenqPost w₁ group syndrome data = .ok w₂)
    (hafter : SameAenq w₂ w') (htrace₂ : w'.trace = w₂.trace) :
    Inv { s with w := w', posted := s.posted ++ newAenq s.w w' } := by
  have hnew : newAenq s.w w' = newAenq w₁ w₂ := by rw [newAenq,newAenq,htrace₁,htrace₂]
  rw [hnew]
  exact ((h.other hbefore).post hlen hpost).other hafter

/-- The driver finds an entry exactly if one is unread, and it is the first of these. -/
lemma Inv.poll_iff (h : Inv s) :
    (aenqPoll s.w.mem s.w.dev.aenqBase s.w.dev.aenqDepth s.driver = none ↔
      s.posted.length = s.read.length) ∧
      ∀ entry d, aenqPoll s.w.mem s.w.dev.aenqBase s.w.dev.aenqDepth s.driver = some (entry,d) →
        s.posted[s.read.length]? = some entry ∧
          d = ⟨s.driver.head + 1,lapPhase s.w.dev.aenqDepth.toNat (s.read.length + 1)⟩ := by
  have hpos := Counter.depth_pos h.depth
  have hread := h.read_le
  have hslot :
      s.w.mem.bytesAt (s.w.dev.aenqBase + (s.driver.head % s.w.dev.aenqDepth).toUInt64*64) 64 =
        s.w.aenqRing (s.read.length % s.w.dev.aenqDepth.toNat) := by
    rw [slot_index h.depth h.head,Nat.add_mod_left]
    rfl
  have hflip : (if (s.driver.head + 1) % s.w.dev.aenqDepth =
    0 then !s.driver.phase else s.driver.phase) =
      lapPhase s.w.dev.aenqDepth.toNat (s.read.length + 1) := by
    have hlap : (s.driver.head + 1) % s.w.dev.aenqDepth = 0 ↔
        (s.read.length + 1) % s.w.dev.aenqDepth.toNat = 0 := by
      have hnext : (s.w.dev.aenqDepth.toNat + s.read.length) % 65536 + 1 ≡ s.read.length + 1
          [MOD s.w.dev.aenqDepth.toNat] := by
        refine Nat.ModEq.add_right 1 ?_
        rw [Nat.ModEq,Counter.wrap_mod h.depth,Nat.add_mod_left]
      rw [Counter.mod_eq_zero_iff,h.head,Counter.succ_toNat,Counter.wrap_mod h.depth,
        UInt16.toNat_ofNat']
      exact hnext ▸ Iff.rfl
    rw [lapPhase_succ,h.driverPhase]
    simp only [hlap]
  unfold aenqPoll
  dsimp only
  rw [hslot,hflip]
  exact h.contents.poll_iff hpos hread h.room h.driverPhase

end AenqChannel

/-- A keep-alive event is due at some time exactly if its group is enabled. -/
def EnaState.KeepAliveArmed (s : EnaState) : Prop :=
  s.keepAliveTimer.isSome = true ↔ s.aenqGroups &&& bit AenqGroup.keepAlive.code ≠ 0

section Config
variable {w w' : World} {cmd : Bytes} {groups : UInt32}

/-- An `AENQ_CONFIG` command is refused, or it configures the groups. -/
lemma enaAdminExec_aenqConfig (hset : IsSet .aenqConfig cmd) :
    Holds (fun _ => True) (fun r => r.2.2 = w ∨ ∃ groups, enaAenqConfig w groups = .ok r.2.2)
      (enaAdminExec w cmd) := by
  have hid : Feature.ofId (FeatCmd.ofBytes cmd).featureId = some .aenqConfig := hset.2
  unfold enaAdminExec
  rw [hset.1]
  unfold enaSetFeature
  dsimp only
  refine holds_ite (fun _ => holds_throw trivial) fun _ => ?_
  rw [hid]
  dsimp only
  refine holds_ite (fun _ => holds_pure (.inl rfl)) fun _ => ?_
  exact holds_bind (holds_of_ok fun _ _ => trivial) fun w₁ h₁ _ => holds_pure (.inr ⟨_,h₁⟩)

/-- A configuration is accepted if the device knows all its groups. -/
lemma enaAdminExec_aenqConfig_eq (hset : IsSet .aenqConfig cmd)
    (hsel : (FeatCmd.ofBytes cmd).featFlags &&& 3 = 0) :
    enaAdminExec w cmd =
      if le32At cmd 24 &&& ~~~enaSupportedAenqGroups ≠ 0 then .ok (.illegalParameter,noResp,w)
      else enaAenqConfig w (le32At cmd 24) >>= fun w => .ok (.success,noResp,w) := by
  have hid : Feature.ofId (FeatCmd.ofBytes cmd).featureId = some .aenqConfig := hset.2
  unfold enaAdminExec
  rw [hset.1]
  unfold enaSetFeature
  dsimp only
  rw [if_neg (not_not.mpr hsel),hid]
  rfl

lemma AenqPosted.aenqGroups (h : AenqPosted w w') : w'.dev.aenqGroups = w.dev.aenqGroups ∧
    w'.dev.keepAliveTimer = w.dev.keepAliveTimer := by
  cases h with
  | skipped => exact ⟨rfl,rfl⟩
  | posted =>
    rw [dev_adminIntr]
    exact ⟨rfl,rfl⟩

lemma enaAenqConfig_armed (w : World) (groups : UInt32) :
    Holds (fun _ => True) (fun w' => w'.dev.KeepAliveArmed) (enaAenqConfig w groups) := by
  have hset : ∀ w₁ : World, w₁.dev.aenqGroups = groups → Holds (fun _ => True)
      (fun w' : World => w'.dev.KeepAliveArmed)
      (if groups &&& bit AenqGroup.keepAlive.code ≠ 0 then
        (return w₁.setDev { w₁.dev with
          keepAliveTimer := some (w₁.clockMs + enaKeepAliveIntervalMs) } : Except Fault World)
      else return w₁.setDev { w₁.dev with keepAliveTimer := none }) := by
    intro w₁ hgroups
    refine holds_ite (fun hon => holds_pure ?_) fun hoff => holds_pure ?_
    · exact ⟨fun _ => hgroups ▸ hon,fun _ => rfl⟩
    · exact ⟨fun h => (Bool.false_ne_true h).elim,fun h => absurd (hgroups ▸ h) hoff⟩
  unfold enaAenqConfig
  dsimp only
  refine holds_ite (fun _ => holds_bind
    (holds_imp (enaPostLinkChange_spec _) (fun _ _ => trivial) fun _ => id) ?_)
    fun _ => ?_
  · exact fun w₁ _ hpost => hset w₁ hpost.aenqGroups.1
  · rw [pure_eq_ok,ok_bind]
    exact hset _ rfl

lemma QueueCmd.armed {s : EnaState} {r : AdminStatus × Bytes × EnaState} (h : QueueCmd s r)
    (ha : s.KeepAliveArmed) : r.2.2.KeepAliveArmed := by
  cases h <;> exact ha

lemma FeatureSet.armed {r : AdminStatus × Bytes × World} (h : FeatureSet w cmd r)
    (ha : w.dev.KeepAliveArmed) :
    r.2.2.dev.KeepAliveArmed := by
  cases h with
  | aenqConfig _ hc => exact (enaAenqConfig_armed w _).of_ok hc
  | _ => exact ha

lemma enaAdminExec_armed (ha : w.dev.KeepAliveArmed) :
    Holds (fun _ => True) (fun r => r.2.2.dev.KeepAliveArmed) (enaAdminExec w cmd) := by
  unfold enaAdminExec
  split
  case h_1 =>
    exact holds_bind (holds_imp (enaCreateSq_spec w.dev cmd) (fun _ _ => trivial) fun _ => id)
      fun _ _ h =>
      holds_pure (h.armed ha)
  case h_2 => exact holds_pure ((enaDestroySq_spec w.dev cmd).armed ha)
  case h_3 => exact holds_pure ((enaCreateCq_spec w.dev cmd).armed ha)
  case h_4 => exact holds_pure ((enaDestroyCq_spec w.dev cmd).armed ha)
  case h_5 =>
    refine holds_mono enaGetFeature_dev fun r h => ?_
    rw [h]
    exact ha
  case h_6 =>
    exact holds_imp (enaSetFeature_cases w cmd) (fun _ _ => trivial) fun _ h => h.armed ha
  case h_7 => exact holds_pure ha
  case h_8 => exact holds_pure ha

lemma AdminRan.armed (h : AdminRan w w') (ha : w.dev.KeepAliveArmed) : w'.dev.KeepAliveArmed := by
  refine h.preserves (M := fun u => u.dev.KeepAliveArmed) ha (fun r u status resp u₁ hu hexec => ?_)
    (fun _ hu => hu) fun u hu => ?_
  · have hfetched : u.aqTaken.dev.KeepAliveArmed := hu
    have h₁ : u₁.dev.KeepAliveArmed := (enaAdminExec_armed hfetched).of_ok hexec
    exact h₁
  · rw [dev_adminIntr]
    exact hu

lemma SameControl.armed {s s' : EnaState} (h : SameControl s s') (ha : s.KeepAliveArmed) :
    s'.KeepAliveArmed := by
  unfold SameControl at h
  rw [h]
  exact ha

lemma devReset_armed (s : EnaState) : s.devReset.KeepAliveArmed := by
  change (none : Option ℕ).isSome = true ↔ (0 : UInt32) &&& bit AenqGroup.keepAlive.code ≠ 0
  decide

lemma Stepped.armed {inp : Input} (h : Stepped w inp w') (ha : w.dev.KeepAliveArmed) :
    w'.dev.KeepAliveArmed := by
  have hreset : w.dev.devReset.KeepAliveArmed := devReset_armed _
  cases h with
  | io hs => exact hs.armed ha
  | reset => exact hreset
  | devCtlReset => exact hreset
  | devCtlDone =>
    change EnaState.KeepAliveArmed (if _ then _ else _)
    split_ifs <;> exact ha
  | stored _ hdev =>
    rw [hdev]
    exact ha
  | intrMask => exact ha
  | aqCaps => exact ha
  | acqCaps => exact ha
  | aenqCaps => exact ha
  | admin hran => exact hran.armed ha
  | keepAlive harmed hpost =>
    -- an expired timer was armed, so its group is enabled
    have hon := ha.mp (Option.isSome_iff_ne_none.mpr harmed)
    exact ⟨fun _ => hpost.aenqGroups.1 ▸ hon,fun _ => rfl⟩
  | link hpost =>
    obtain ⟨hgroups,htimer⟩ := hpost.aenqGroups
    unfold EnaState.KeepAliveArmed
    rw [hgroups,htimer]
    exact ha

end Config

namespace AenqChannel
variable {net : Net} {s s' : AenqChannel} {w' : World}

lemma Inv.config {groups : UInt32} (h : Inv s) (hc : enaAenqConfig s.w groups = .ok w') :
    Inv { s with w := w', posted := s.posted ++ newAenq s.w w' } := by
  have hsame := SameAenq.setGroups s.w groups
  have htimer : ∀ w₁ : World, (if groups &&& bit AenqGroup.keepAlive.code ≠ 0 then
      (return w₁.setDev { w₁.dev with
        keepAliveTimer := some (w₁.clockMs + enaKeepAliveIntervalMs) } : Except Fault World)
      else return w₁.setDev { w₁.dev with keepAliveTimer := none }) = .ok w' →
      SameAenq w₁ w' ∧ w'.trace = w₁.trace := by
    intro w₁ hw
    split_ifs at hw <;> cases hw <;> exact ⟨.setTimer _ _,rfl⟩
  unfold enaAenqConfig at hc
  dsimp only at hc
  by_cases hlink : groups &&& bit AenqGroup.linkChange.code ≠ 0
  · rw [if_pos hlink] at hc
    obtain ⟨w₁,hpost,hrest⟩ := bind_eq_ok.mp hc
    obtain ⟨hafter,htrace⟩ := htimer w₁ hrest
    exact h.post_between (by simp) hsame rfl hpost hafter htrace
  · rw [if_neg hlink,pure_eq_ok,ok_bind] at hc
    obtain ⟨hafter,htrace⟩ := htimer _ hc
    rw [newAenq_of_trace [] (by rw [htrace,List.append_nil]; rfl),List.filterMap_nil,
      List.append_nil]
    exact h.other (hsame.trans hafter)

lemma Inv.link {up : Bool} (h : Inv s) (hs : enaPostLinkChange { s.w with linkUp := up } = .ok w') :
    Inv { s with w := w', posted := s.posted ++ newAenq s.w w' } := by
  have hsame := SameAenq.setLink s.w up
  generalize hw : ({ s.w with linkUp := up } : World) = w₁ at hs hsame
  have htrace : w₁.trace = s.w.trace := by rw [← hw]
  unfold enaPostLinkChange at hs
  exact h.post_between (ofLe32_length _ |>.trans_le (by norm_num)) hsame htrace hs (.refl w') rfl

lemma Inv.keepAlive (h : Inv s) (hs : EnaDevice.step net s.w .keepAliveTimer = .ok w') :
    Inv { s with w := w', posted := s.posted ++ newAenq s.w w' } := by
  unfold EnaDevice.step at hs
  dsimp only at hs
  split_ifs at hs with hdue
  · unfold enaKeepAlive at hs
    obtain ⟨w₁,hpost,hrest⟩ := bind_eq_ok.mp hs
    cases hrest
    exact h.post_between (by simp) (.setTimer s.w none) rfl hpost (.setTimer w₁ _) rfl
  · cases hs
    rw [newAenq_self,List.append_nil]
    exact h

lemma Inv.poll {entry : Bytes} {d : RingDriver} {val : UInt64} (h : Inv s)
    (hpoll : aenqPoll s.w.mem s.w.dev.aenqBase s.w.dev.aenqDepth s.driver = some (entry,d))
    (hval : val.toUInt32.toUInt16 = d.head)
    (hdb : EnaDevice.step net s.w (.regWrite regAenqHeadDb val) = .ok w') :
    Inv { s with w := w', driver := d, read := s.read ++ [entry] } := by
  obtain ⟨hnext,rfl⟩ := h.poll_iff.2 entry d hpoll
  have hlt : s.read.length < s.posted.length := by
    by_contra hge
    rw [List.getElem?_eq_none (Nat.le_of_not_lt hge)] at hnext
    cases hnext
  have hw : w' = s.w.setDev (s.w.dev.setReg regAenqHeadDb val.toUInt32) := (Except.ok.inj hdb).symm
  have hstep : s.driver.head + 1 =
      UInt16.ofNat (s.w.dev.aenqDepth.toNat + (s.read.length + 1)) := by
    rw [h.head,← Nat.add_assoc,UInt16.ofNat_add _ 1]
    rfl
  have hdb : w'.dev.aenqHeadDb = s.driver.head + 1 := by
    rw [hw]
    exact (congrArg UInt32.toUInt16 (EnaState.getReg_setReg _ _ _)).trans hval
  subst hw
  refine ⟨h.base,h.depth,h.contents,h.tail,h.tailReg,?_,?_,?_,fifo_read h.fifo hnext,
    ?_⟩ <;> dsimp only <;>
    rw [List.length_append,List.length_singleton]
  · exact hdb.trans hstep
  · exact hstep
  · rfl
  · have hroom := h.room
    change _ ≤ _ + s.w.dev.aenqDepth.toNat
    omega

lemma Step.inv (hs : Step net s s') (h : Inv s) : Inv s' := by
  cases hs with
  | link hstep => exact h.link hstep
  | keepAlive hstep => exact h.keepAlive hstep
  | config hset hexec =>
    rcases (enaAdminExec_aenqConfig hset).of_ok hexec with rfl | ⟨groups,hc⟩
    · rw [newAenq_self,List.append_nil]
      exact h
    · exact h.config hc
  | poll hpoll hval hdb => exact h.poll hpoll hval hdb
  | other hsame => exact h.other hsame

lemma Run.inv (h : Run net s) : Inv s := by
  induction h with
  | start h => exact h.inv
  | step _ hs ih => exact hs.inv ih

/-- What the events tell: the state of the link, and the received packets that were dropped. -/
def linkChangeData (up : Bool) : Bytes := ofLe32 (if up then 1 else 0)

def keepAliveData (s : EnaState) : Bytes :=
  pad 24 (ofLe32 s.rxDrops.toUInt32 ++ ofLe32 (s.rxDrops >>> 32).toUInt32)

/-- One event was posted, unless its group is off or a whole ring of events is unread; then none. -/
def Announces (s : AenqChannel) (unread : List Bytes) (groups : UInt32) (group : AenqGroup)
    (data : Bytes) (w' : World) : Prop :=
  newAenq s.w w' =
    if groups &&& bit group.code = 0 ∨ unread.length = s.w.dev.aenqDepth.toNat then []
    else [aenqEntry group 0 s.w.dev.aenqPhase s.w.clockUs data]

section Announce
variable {unread : List Bytes}

/-- Whatever else a step changes before it posts an event and after that. -/
lemma Inv.announces (h : Inv s) (hu : s.posted = s.read ++ unread) {w₁ : World} (group : AenqGroup)
    (data : Bytes) (hlen : data.length ≤ 48) (hbefore : SameAenq s.w w₁)
    (htrace : w₁.trace = s.w.trace) (hclock : w₁.clock = s.w.clock) :
    ∃ w₂, enaAenqPost w₁ group 0 data = .ok w₂ ∧
      ∀ w' : World, w'.trace = w₂.trace → Announces s unread w₁.dev.aenqGroups group data w' := by
  have hpost : enaAenqPost w₁ group 0 data = _ := (h.other hbefore).post_eq hlen
  have hfull : s.posted.length = s.read.length + w₁.dev.aenqDepth.toNat ↔
      unread.length = s.w.dev.aenqDepth.toNat := by
    rw [hu,List.length_append,hbefore.depth]
    exact Nat.add_left_cancel_iff
  have hnew : ∀ w' w₂ : World, w'.trace = w₂.trace → newAenq s.w w' = newAenq w₁ w₂ := by
    intro w' w₂ h₂
    rw [newAenq,newAenq,htrace,h₂]
  by_cases hdrop : w₁.dev.aenqGroups &&& bit group.code = 0 ∨
      unread.length = s.w.dev.aenqDepth.toNat
  · rw [if_pos (hdrop.imp_right hfull.mpr)] at hpost
    refine ⟨w₁,hpost,fun w' hw' => ?_⟩
    rw [Announces,if_pos hdrop,hnew w' w₁ hw',newAenq_self]
  · rw [if_neg fun hd => hdrop (hd.imp_right hfull.mp)] at hpost
    refine ⟨_,hpost,fun w' hw' => ?_⟩
    have hus : w₁.clockUs = s.w.clockUs := by rw [World.clockUs,hclock,World.clockUs]
    rw [Announces,if_neg hdrop,hnew w' _ hw',newAenq_aenqPosted]
    dsimp only
    rw [hbefore.phase,hus]

lemma Inv.linkChange_announces (h : Inv s) (hu : s.posted = s.read ++ unread) (up : Bool) :
    ∃ w', EnaDevice.step net s.w (.linkChange up) = .ok w' ∧
      Announces s unread s.w.dev.aenqGroups .linkChange (linkChangeData up) w' := by
  obtain ⟨w',hpost,hnew⟩ := h.announces hu .linkChange (linkChangeData up)
    (ofLe32_length _ |>.trans_le (by norm_num)) (.setLink s.w up) rfl rfl
  exact ⟨w',hpost,hnew w' rfl⟩

lemma Inv.keepAlive_announces (h : Inv s) (hu : s.posted = s.read ++ unread) :
    ∃ w', EnaDevice.step net s.w .keepAliveTimer = .ok w' ∧
      if timerDue s.w.dev.keepAliveTimer s.w.clockMs then
        Announces s unread s.w.dev.aenqGroups .keepAlive (keepAliveData s.w.dev) w'
      else w' = s.w := by
  have hstep : EnaDevice.step net s.w .keepAliveTimer =
      if timerDue s.w.dev.keepAliveTimer s.w.clockMs then
        enaKeepAlive (s.w.setDev { s.w.dev with keepAliveTimer := none })
      else .ok s.w := rfl
  rw [hstep]
  split_ifs
  · obtain ⟨w₂,hpost,hnew⟩ := h.announces hu .keepAlive (keepAliveData s.w.dev)
      (by simp [keepAliveData]) (.setTimer s.w none) rfl rfl
    have hrun : enaKeepAlive (s.w.setDev { s.w.dev with keepAliveTimer := none }) = .ok (w₂.setDev
        { w₂.dev with keepAliveTimer := some (w₂.clockMs + enaKeepAliveIntervalMs) }) :=
      congrArg (· >>= _) hpost
    exact ⟨_,hrun,hnew _ rfl⟩
  · exact ⟨_,rfl,rfl⟩

/-- The groups are configured, and the state of the link is posted if its group is among them. -/
lemma Inv.aenqConfig_announces (h : Inv s) (hu : s.posted = s.read ++ unread) (groups : UInt32) :
    ∃ w', enaAenqConfig s.w groups = .ok w' ∧
      Announces s unread groups .linkChange (linkChangeData s.w.linkUp) w' := by
  have htimer : ∀ w₁ : World, ∃ w', (if groups &&& bit AenqGroup.keepAlive.code ≠ 0 then
      (return w₁.setDev { w₁.dev with
        keepAliveTimer := some (w₁.clockMs + enaKeepAliveIntervalMs) } : Except Fault World)
      else return w₁.setDev { w₁.dev with keepAliveTimer := none }) = .ok w' ∧
      w'.trace = w₁.trace := by
    intro w₁
    split_ifs <;> exact ⟨_,rfl,rfl⟩
  unfold enaAenqConfig
  dsimp only
  by_cases hlink : groups &&& bit AenqGroup.linkChange.code = 0
  · obtain ⟨w',hw',htrace⟩ := htimer (s.w.setDev { s.w.dev with aenqGroups := groups })
    rw [if_neg (not_not.mpr hlink),pure_eq_ok,ok_bind]
    refine ⟨w',hw',?_⟩
    rw [Announces,if_pos (.inl hlink)]
    exact newAenq_of_trace [] (htrace.trans (List.append_nil _).symm)
  · obtain ⟨w₁,hpost,hnew⟩ := h.announces hu .linkChange (linkChangeData s.w.linkUp)
      (ofLe32_length _ |>.trans_le (by norm_num)) (.setGroups s.w groups) rfl rfl
    obtain ⟨w',hw',htrace⟩ := htimer w₁
    have hrun : enaPostLinkChange (s.w.setDev { s.w.dev with aenqGroups := groups }) = .ok w₁ :=
      hpost
    rw [if_pos hlink,hrun,ok_bind]
    exact ⟨w',hw',hnew w' htrace⟩

lemma Inv.unread_length (h : Inv s) (hu : s.posted = s.read ++ unread) :
    unread.length ≤ s.w.dev.aenqDepth.toNat := by
  have hroom := h.room
  rw [hu,List.length_append] at hroom
  omega

/-- The unread events stand in the ring, from where the driver reads on. -/
lemma Inv.unread_at (h : Inv s) (hu : s.posted = s.read ++ unread) {k : ℕ} {e : Bytes}
    (hk : unread[k]? = some e) :
    s.w.aenqRing ((s.read.length + k) % s.w.dev.aenqDepth.toNat) = e := by
  have hlt : k < unread.length := (List.getElem?_eq_some_iff.mp hk).1
  have hroom := h.unread_length hu
  have hlen : s.posted.length = s.read.length + unread.length := by rw [hu,List.length_append]
  refine h.contents.written _ e ?_ (by omega)
  rw [hu,List.getElem?_append_right (Nat.le_add_right _ _),Nat.add_sub_cancel_left]
  exact hk

/-- A poll finds the first of the unread events. -/
lemma Inv.poll_head (h : Inv s) (hu : s.posted = s.read ++ unread) :
    (aenqPoll s.w.mem s.w.dev.aenqBase s.w.dev.aenqDepth s.driver).map Prod.fst = unread.head? := by
  have hlen : s.posted.length = s.read.length + unread.length := by rw [hu,List.length_append]
  have hnext : s.posted[s.read.length]? = unread.head? := by
    rw [hu,List.getElem?_append_right le_rfl,Nat.sub_self,List.head?_eq_getElem?]
  obtain ⟨hnone,hsome⟩ := h.poll_iff
  cases hpoll : aenqPoll s.w.mem s.w.dev.aenqBase s.w.dev.aenqDepth s.driver with
  | none =>
    have hread := hnone.mp hpoll
    have hempty : unread = [] := List.eq_nil_of_length_eq_zero (by omega)
    rw [hempty]
    rfl
  | some r => exact (hnext.symm.trans (hsome r.1 r.2 hpoll).1).symm

/-- An event of an enabled group is posted unless the ring is full of unread ones. -/
lemma Inv.post_unless_full (h : Inv s) (hu : s.posted = s.read ++ unread) {group : AenqGroup}
    {syndrome : UInt16} {data : Bytes} (hdata : data.length ≤ 48)
    (hon : s.w.dev.aenqGroups &&& bit group.code ≠ 0) :
    ∃ w', enaAenqPost s.w group syndrome data = .ok w' ∧
      newAenq s.w w' = if unread.length = s.w.dev.aenqDepth.toNat then []
        else [aenqEntry group syndrome s.w.dev.aenqPhase s.w.clockUs data] := by
  have hlen : s.posted.length = s.read.length + unread.length := by rw [hu,List.length_append]
  refine ⟨_,h.post_eq hdata,?_⟩
  by_cases hfull : unread.length = s.w.dev.aenqDepth.toNat
  · rw [if_pos (.inr (by omega)),if_pos hfull,newAenq_self]
  · rw [if_neg (by rw [not_or]; exact ⟨hon,by omega⟩),if_neg hfull,newAenq_aenqPosted]

end Announce

/-- The keep-alive timer follows its group in every reachable state. -/
lemma reachable_armed {net : Net} {w : World} (h : Reachable net w) : w.dev.KeepAliveArmed := by
  obtain ⟨w₀,inputs,hrun⟩ := h
  have hinv := run_invariant (P := fun w => TableInv w.dev ∧ TxIdle none w.dev ∧
    w.dev.KeepAliveArmed)
    (fun w inp w' hw hstep => ?_) ?_ hrun
  · exact hinv.2.2
  · obtain ⟨ht,hi⟩ := step_tables ⟨hw.1,hw.2.1⟩ hstep
    exact ⟨ht,hi,(step_stepped hw.1 hstep).armed hw.2.2⟩
  · obtain ⟨ht,hi⟩ := reset_tables w₀
    exact ⟨ht,hi,devReset_armed _⟩

/-- A driver programs the queue after a reset and writes the head doorbell. -/
def setup (m : Memory) (llq : ℕ → UInt8) (lo hi caps db : UInt64) : List Input :=
  [.guest m llq,.regWrite regAenqBaseLo lo,.regWrite regAenqBaseHi hi,.regWrite regAenqCaps caps,
    .regWrite regAenqHeadDb db]

/-- The ring that the registers describe. -/
def setupBase (lo hi : UInt64) : UInt64 := (hi.toUInt32.toUInt64 <<< 32) ||| lo.toUInt32.toUInt64

def setupDepth (caps : UInt64) : UInt16 := (caps.toUInt32 &&& 0xffff).toUInt16

/-- The device with the queue programmed. -/
def programmed (w : World) (m : Memory) (llq : ℕ → UInt8) (lo hi caps db : UInt64) : World :=
  let w := { w with mem := m, llq := llq }
  let w := w.setDev (w.dev.setReg regAenqBaseLo lo.toUInt32)
  let w := w.setDev (w.dev.setReg regAenqBaseHi hi.toUInt32)
  let w := w.setDev ({ w.dev.setReg regAenqCaps caps.toUInt32 with
    aenqTail := 0, aenqPhase := true }.setReg regAenqTail 0)
  w.setDev (w.dev.setReg regAenqHeadDb db.toUInt32)

lemma setup_run (net : Net) (w : World) (m : Memory) (llq : ℕ → UInt8) (lo hi db : UInt64)
    {caps : UInt64} (hcaps : enaCheckQueueCaps caps.toUInt32 = .ok ()) :
    run net w (setup m llq lo hi caps db) = .ok (programmed w m llq lo hi caps db) := by
  have hwrite : ∀ w : World, EnaDevice.step net w (.regWrite regAenqCaps caps) =
      .ok (w.setDev ({ w.dev.setReg regAenqCaps caps.toUInt32 with
        aenqTail := 0, aenqPhase := true }.setReg regAenqTail 0)) := by
    intro w
    change (enaCheckQueueCaps caps.toUInt32 >>= _) = _
    rw [hcaps]
    rfl
  change (EnaDevice.step net _ (.regWrite regAenqCaps caps) >>= _) = _
  rw [hwrite]
  rfl

theorem setup_starts (w₀ : World) {m : Memory} {llq : ℕ → UInt8} {lo hi caps db : UInt64}
    (hbase : setupBase lo hi ≠ 0) (hcaps : enaCheckQueueCaps caps.toUInt32 = .ok ())
    (hdb : db.toUInt32.toUInt16 = setupDepth caps)
    (hzero : ∀ k < (setupDepth caps).toNat, m.slot (setupBase lo hi) 64 k = zeros 64) :
    Start ⟨programmed (enaDevReset w₀) m llq lo hi caps db,⟨setupDepth caps,true⟩,[],[]⟩ := by
  have hpow : (setupDepth caps).toNat.isPowerOfTwo := by
    have hlt : (caps.toUInt32 &&& 0xffff).toNat < 2^16 := by
      rw [UInt32.toNat_and]
      exact Nat.and_lt_two_pow (n := 16) _ (by decide)
    rw [setupDepth,UInt32.toNat_toUInt16,Nat.mod_eq_of_lt hlt]
    exact (capsOk_of_check hcaps).2
  refine ⟨hbase,hpow,rfl,rfl,rfl,hdb,fun k hk => ?_,rfl,rfl,rfl⟩
  change aenqPhaseBit (m.slot (setupBase lo hi) 64 k) = false
  rw [hzero k hk]
  rfl

/-- AENQ flow control: a driver that starts as above reads what was posted, once each and in order.
Every change of the link, expiry of the keep-alive timer and configuration of the groups posts its
event if the group is enabled, and events of enabled groups are dropped exactly if the ring is full
of unread ones. The keep-alive timer follows its group. -/
theorem aenq_flow_control (net : Net) :
    (∀ w₀ m llq lo hi caps db, setupBase lo hi ≠ 0 → enaCheckQueueCaps caps.toUInt32 = .ok () →
      db.toUInt32.toUInt16 = setupDepth caps →
      (∀ k < (setupDepth caps).toNat, m.slot (setupBase lo hi) 64 k = zeros 64) →
      ∃ w, run net (enaDevReset w₀) (setup m llq lo hi caps db) = .ok w ∧
        Run net ⟨w,⟨setupDepth caps,true⟩,[],[]⟩) ∧
    (∀ s, Run net s →
      (∃ unread, s.posted = s.read ++ unread ∧ unread.length ≤ s.w.dev.aenqDepth.toNat ∧
        (∀ k e, unread[k]? = some e → s.w.aenqRing ((s.read.length + k) % s.w.dev.aenqDepth.toNat) =
          e) ∧
        (aenqPoll s.w.mem s.w.dev.aenqBase s.w.dev.aenqDepth s.driver).map Prod.fst = unread.head? ∧
        (∀ group syndrome data, data.length ≤ 48 → s.w.dev.aenqGroups &&& bit group.code ≠ 0 →
          ∃ w', enaAenqPost s.w group syndrome data = .ok w' ∧
            newAenq s.w w' = if unread.length = s.w.dev.aenqDepth.toNat then []
              else [aenqEntry group syndrome s.w.dev.aenqPhase s.w.clockUs data]) ∧
        (∀ up, ∃ w', EnaDevice.step net s.w (.linkChange up) = .ok w' ∧
          Announces s unread s.w.dev.aenqGroups .linkChange (linkChangeData up) w') ∧
        (∃ w', EnaDevice.step net s.w .keepAliveTimer = .ok w' ∧
          if timerDue s.w.dev.keepAliveTimer s.w.clockMs then
            Announces s unread s.w.dev.aenqGroups .keepAlive (keepAliveData s.w.dev) w'
          else w' = s.w) ∧
        ∀ cmd, IsSet .aenqConfig cmd → (FeatCmd.ofBytes cmd).featFlags &&& 3 = 0 →
          if le32At cmd 24 &&& ~~~enaSupportedAenqGroups ≠ 0 then
            enaAdminExec s.w cmd = .ok (.illegalParameter,noResp,s.w)
          else ∃ w', enaAdminExec s.w cmd = .ok (.success,noResp,w') ∧
            Announces s unread (le32At cmd 24) .linkChange (linkChangeData s.w.linkUp) w') ∧
      (s.w.dev.getReg regAenqTail).toNat = s.posted.length % 2^16) ∧
    ∀ w, Reachable net w →
      (w.dev.keepAliveTimer.isSome = true ↔
      w.dev.aenqGroups &&& bit AenqGroup.keepAlive.code ≠ 0) := by
  refine ⟨?_,?_,?_⟩
  · intro w₀ m llq lo hi caps db hbase hcaps hdb hzero
    exact ⟨_,setup_run net _ m llq lo hi db hcaps,.start (setup_starts w₀ hbase hcaps hdb hzero)⟩
  · intro s hrun
    have h := hrun.inv
    obtain ⟨unread,hu⟩ := h.fifo
    refine ⟨⟨unread,hu,h.unread_length hu,fun k e => h.unread_at hu,h.poll_head hu,
      fun _ _ _ => h.post_unless_full hu,h.linkChange_announces hu,h.keepAlive_announces hu,
      fun cmd hset hsel => ?_⟩,?_⟩
    · obtain ⟨w',hconfig,hnew⟩ := h.aenqConfig_announces hu (le32At cmd 24)
      have hexec := enaAdminExec_aenqConfig_eq (w := s.w) hset hsel
      split_ifs with hunknown
      · rw [hexec,if_pos hunknown]
      · rw [if_neg hunknown,hconfig] at hexec
        exact ⟨w',hexec,hnew⟩
    · rw [h.tailReg,h.tail.idx,UInt16.toNat_toUInt32,UInt16.toNat_ofNat']
  · exact fun w hw => reachable_armed hw

/-- A command that enables all events. -/
def enableEventsCmd : Bytes :=
  pad 64 ([0,0,9,0] ++ zeros 12 ++ [0,26,0,0] ++ zeros 4 ++ ofLe32 0x11)

/-- The machine with a queue of 16, and the driver that programmed it. -/
def freshQueue : Except Fault World :=
  run Net.nonIp (enaDevReset (World.powerOn (fun _ => 2) false)) (setup
    ⟨fun _ => 0,fun _ => true,fun _ => 0⟩ (fun _ => 0) 0x7000 0 (64*65536 + 16) 16)

def afterInterval (w : World) : World := { w with clock := w.clock + 1000000000 }

/-- A ring of 16 in which the state of the link and a keep-alive event were posted. When the first
was read, a change of the link posts the third. -/
theorem aenq_flow_control_link :
    ∃ s w', Run Net.nonIp s ∧ s.posted.length = 2 ∧ s.read.length = 1 ∧
      EnaDevice.step Net.nonIp s.w (.linkChange false) = .ok w' ∧
      newAenq s.w w' = [aenqEntry .linkChange 0 true s.w.clockUs (linkChangeData false)] := by
  obtain ⟨hsetup,hall,-⟩ := aenq_flow_control Net.nonIp
  obtain ⟨w,hrun,hstart⟩ := hsetup (World.powerOn (fun _ => 2) false) ⟨fun _ => 0,fun _ => true,
    fun _ => 0⟩
    (fun _ => 0) 0x7000 0 (64*65536 + 16) 16 (by decide) (by decide) (by decide) (by decide +kernel)
  obtain ⟨w₀,hw₀,htest⟩ := exists_of_okAnd
    (p := fun w : World => okAnd (fun r : AdminStatus × Bytes × World =>
      decide ((newAenq w r.2.2).length = 1) && okAnd (fun w₂ : World =>
        decide ((newAenq (afterInterval r.2.2) w₂).length = 1 ∧ w₂.dev.aenqDepth = 16 ∧
          w₂.dev.aenqPhase = true ∧ w₂.dev.aenqGroups &&& bit AenqGroup.linkChange.code ≠ 0) &&
        (aenqPoll w₂.mem w₂.dev.aenqBase w₂.dev.aenqDepth ⟨16,true⟩).any (fun e => e.2.head == 17))
          (EnaDevice.step Net.nonIp (afterInterval r.2.2) .keepAliveTimer))
      (enaAdminExec w enableEventsCmd))
    (x := freshQueue) (by decide +kernel)
  obtain rfl : w = w₀ := Except.ok.inj (hrun.symm.trans hw₀)
  obtain ⟨⟨status,resp,w₁⟩,hexec,htest⟩ := exists_of_okAnd htest
  rw [Bool.and_eq_true,decide_eq_true_eq] at htest
  obtain ⟨hfirst,htest⟩ := htest
  obtain ⟨w₂,hexpired,htest⟩ := exists_of_okAnd htest
  rw [Bool.and_eq_true,decide_eq_true_eq] at htest
  obtain ⟨⟨hsecond,hdepth,hphase,hon⟩,hpoll⟩ := htest
  obtain ⟨⟨entry,d⟩,hentry,hhead⟩ := (Option.any_eq_true _ _).mp hpoll
  have hlater : SameAenq w₁ (afterInterval w₁) := ⟨rfl,rfl,rfl,rfl,rfl,rfl,fun _ _ => rfl⟩
  have hdoorbell : (17 : UInt64).toUInt32.toUInt16 = d.head := (eq_of_beq hhead).symm
  have hpolled := (((hstart.step (.config ⟨by decide,by decide⟩ hexec)).step (.other hlater)).step
    (.keepAlive hexpired)).step (.poll hentry hdoorbell rfl)
  obtain ⟨⟨unread,hu,-,-,-,-,hlink,-⟩,-⟩ := hall _ hpolled
  obtain ⟨w',hw',hnew⟩ := hlink false
  have hposted : (newAenq w w₁ ++ newAenq (afterInterval w₁) w₂).length = 2 := by
    rw [List.length_append,hfirst,hsecond]
  have hunread : unread.length = 1 := by
    have hlen := (congrArg List.length hu).symm.trans hposted
    rw [List.length_append] at hlen
    exact Nat.add_left_cancel hlen
  refine ⟨_,w',hpolled,hposted,rfl,hw',?_⟩
  have hdrop : ¬ (w₂.dev.aenqGroups &&& bit AenqGroup.linkChange.code = 0 ∨
      unread.length = w₂.dev.aenqDepth.toNat) := by
    rw [not_or,hunread,hdepth]
    exact ⟨hon,by decide⟩
  have hentry' := hnew.trans (if_neg hdrop)
  rw [hentry']
  exact congrArg (fun phase => [aenqEntry .linkChange 0 phase _ _]) hphase

end AenqChannel
end EnaDevice
