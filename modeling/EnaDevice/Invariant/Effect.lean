import EnaDevice.Admin.Exec
import EnaDevice.Irq.Scope
import Mathlib.Logic.Relation

/-! Elementary effects. A step of the device is a sequence of them, each with what the code checked
before it, so that an invariant needs one case per effect and none per code path. -/
namespace EnaDevice
open Relation

/-- The SQ whose doorbell a register write rings. -/
def Input.doorbell : Input → Option SqIdx
  | .regWrite addr _ =>
    if h : regSqDbBase ≤ addr ∧ addr < regSqDbBase + 16*4 then
      some ⟨(addr - regSqDbBase)/4,sqDb_lt h⟩
    else none
  | _ => none

lemma doorbell_regWrite (i : SqIdx) (val : UInt64) :
    (Input.regWrite (regSqDbBase + 4*i.val) val).doorbell = some i := by
  have hi := i.isLt
  simp only [Input.doorbell]
  rw [dif_pos ⟨by omega,by omega⟩]
  congr 1
  apply Fin.ext
  change (regSqDbBase + 4*i.val - regSqDbBase)/4 = i.val
  omega

/-- The register of an SQ is its doorbell. -/
lemma enaRegWrite_doorbell (net : Net) (w : World) (i : SqIdx) (val : UInt64) :
    enaRegWrite net w (regSqDbBase + 4*i.val) val = enaSqDoorbell net w i val.toUInt32 := by
  have hi := i.isLt
  rw [enaRegWrite,dif_pos ⟨by omega,by omega⟩]
  congr 1
  apply Fin.ext
  change (regSqDbBase + 4*i.val - regSqDbBase)/4 = i.val
  omega

/-- The CQ whose unmask register is written, and the value. -/
def Input.unmask : Input → Option (CqIdx × UInt32)
  | .regWrite addr val =>
    if h : regCqUnmaskBase ≤ addr ∧ addr < regCqUnmaskBase + 16*4 then
      some (⟨(addr - regCqUnmaskBase)/4,cqUnmask_lt h⟩,val.toUInt32)
    else none
  | _ => none

/-- An input that resets the device or runs admin commands. -/
def Input.Configures : Input → Prop
  | .regWrite addr _ => addr = regDevCtl ∨ addr = regAqDb
  | .qdevReset => True
  | _ => False

/-- An input that is neither a doorbell of an IO queue nor a frame. -/
def Input.Control (inp : Input) : Prop := inp.doorbell = none ∧ ∀ frame, inp ≠ .receive frame

lemma Input.Configures.control {inp : Input} (h : inp.Configures) : inp.Control := by
  cases inp with
  | regWrite addr val => exact ⟨by rcases h with rfl | rfl <;> rfl,fun _ he => by cases he⟩
  | qdevReset => exact ⟨rfl,fun _ he => by cases he⟩
  | receive => exact h.elim
  | moderTimer => exact h.elim
  | keepAliveTimer => exact h.elim
  | linkChange => exact h.elim
  | guest => exact h.elim
  | tick => exact h.elim

/-- What an input may write: a doorbell completions only, a frame buffers and completions. -/
def Input.writes (inp : Input) : WriteSite → Prop
  | .cq _ => inp.doorbell ≠ none ∨ ∃ frame, inp = .receive frame
  | .rxBuf _ => ∃ frame, inp = .receive frame
  | _ => inp.Control

/-- The region that a DMA write must stay in, by its purpose. An RX buffer is one that was posted
when the step began, all other regions are those of the device at the moment of the write. -/
def Granted (w₀ : World) (s : EnaState) (addr : UInt64) (len : ℕ) : WriteSite → Prop
  | .acq => s.acqBase ≠ 0 ∧
    Within addr len (s.acqBase + (s.acqTail % s.capsDepth regAcqCaps).toUInt64*64) 64
  | .aenq => s.aenqBase ≠ 0 ∧ Within addr len s.aenqSlot 64
  | .mmioResp => s.mmioResp ≠ 0 ∧ Within addr len s.mmioResp 8
  | .cq c => (s.cq c).used = true ∧
    Within addr len (s.cq c).base ((s.cq c).depth.toNat*(s.cq c).entrySize.toNat)
  | .ctrlBuf cmd => Opcode.ofCode (Bytes.u8At cmd 2) = some .getFeature ∧
    Within addr len (enaMemAddr cmd 8) (Bytes.le32At cmd 4).toNat
  | .rxBuf i => (w₀.dev.sq i).used = true ∧ (w₀.dev.sq i).isTx = false ∧
    ∃ n d, n < ((w₀.dev.sq i).tail - (w₀.dev.sq i).head).toNat ∧
      enaRxRead w₀.mem (w₀.dev.sq i) n = some d ∧ d.reqId < (w₀.dev.sq i).depth ∧
      Within addr len d.addr d.size

/-- Events that say nothing about interrupts and write no memory. -/
def Event.Quiet : Event → Prop
  | .dmaWrite _ _ _ _ => False
  | .msixNotify _ => False
  | .cqIntr _ _ => False
  | .reset => False
  | _ => True

/-- The trace grows by events of a kind. -/
def Adds (P : Event → Prop) (w w' : World) : Prop :=
  ∃ es, w'.trace = w.trace ++ es ∧ ∀ e ∈ es, P e

namespace Adds
variable {P Q : Event → Prop} {w w' w'' : World}

lemma of_eq (h : w'.trace = w.trace) : Adds P w w' :=
  ⟨[],h.trans (List.append_nil _).symm,fun _ hm => absurd hm List.not_mem_nil⟩

lemma refl (w : World) : Adds P w w := .of_eq rfl

lemma emit {e : Event} (h : P e) : Adds P w (w.emit e) :=
  ⟨[e],rfl,fun _ hm => List.mem_singleton.mp hm ▸ h⟩

lemma trans (h : Adds P w w') (h' : Adds P w' w'') : Adds P w w'' := by
  obtain ⟨es,he,hp⟩ := h
  obtain ⟨es',he',hp'⟩ := h'
  refine ⟨es ++ es',by rw [he',he,List.append_assoc],?_⟩
  intro e hmem
  rcases List.mem_append.mp hmem with hm | hm
  · exact hp e hm
  · exact hp' e hm

lemma mono (h : Adds P w w') (hpq : ∀ e, P e → Q e) : Adds Q w w' := by
  obtain ⟨es,he,hp⟩ := h
  exact ⟨es,he,fun e hm => hpq e (hp e hm)⟩

end Adds

/-- The parts of the state that the queue-table invariant speaks about are the same. -/
structure SameQueues (s s' : EnaState) : Prop where
  sq : s'.sq = s.sq
  cq : s'.cq = s.cq
  mtu : s'.mtu = s.mtu
  llqEnabled : s'.llqEnabled = s.llqEnabled
  llqEntrySize : s'.llqEntrySize = s.llqEntrySize
  rss : s'.rss = s.rss

/-- A change of counters, registers and the like, with quiet events only. -/
structure Quietly (w w' : World) : Prop where
  queues : SameQueues w.dev w'.dev
  irq : w'.dev.irq = w.dev.irq
  mem : w'.mem = w.mem
  llq : w'.llq = w.llq
  trace : Adds Event.Quiet w w'

/-- The last event is a completion on the CQ, which was bound to the vector that it has now. -/
def World.JustPushed (w : World) (c : CqIdx) : Prop :=
  ∃ before dev addr data, w.trace = before ++ [.dmaWrite (.cq c) dev addr data] ∧
    (dev.cq c).vec = (w.dev.cq c).vec

inductive Effect (w₀ : World) (inp : Input) (w : World) : World → Prop
  | quiet {w' : World} (h : Quietly w w') : Effect w₀ inp w w'
  | dma (site : WriteSite) (addr : UInt64) (data : Bytes) (hsite : inp.writes site)
    (h : Granted w₀ w.dev addr data.length site) : Effect w₀ inp w (enaDmaWrite w site addr data)
  | cqAdvance (c : CqIdx) (h : (w.dev.cq c).used = true) :
    Effect w₀ inp w (w.setDev (w.dev.setCq c (w.dev.cq c).advance))
  | cqIntr (c : CqIdx) (isTx : Bool) (hused : (w.dev.cq c).used = true) (h : w.JustPushed c) :
    Effect w₀ inp w (enaCqIntr w c isTx)
  | adminIntr (hinp : inp.Control) : Effect w₀ inp w (enaAdminIntr w)
  | fire (v : Vec) (h : (w.dev.irq v).moderTimer ≠ none) : Effect w₀ inp w (enaIrqFire w v)
  | unmask (c : CqIdx) (val : UInt32) (h : inp.unmask = some (c,val)) (hw : w = w₀) :
    Effect w₀ inp w (enaCqUnmaskWrite w c val)
  | reset (hinp : inp.Configures) : Effect w₀ inp w (enaDevReset w)
  | sqTail (i : SqIdx) (val : UInt16) (hdb : inp.doorbell = some i)
    (h : val - (w.dev.sq i).head ≤ (w.dev.sq i).depth) :
    Effect w₀ inp w (w.setSq i { w.dev.sq i with tail := val })
  | sqHead (i : SqIdx) (n : ℕ) (htx : (w.dev.sq i).isTx = true → inp.doorbell = some i)
    (hrx : (w.dev.sq i).isTx = false → ∃ frame, inp = .receive frame)
    (h : n ≤ ((w.dev.sq i).tail - (w.dev.sq i).head).toNat) :
    Effect w₀ inp w (w.setSq i { w.dev.sq i with head := (w.dev.sq i).head + UInt16.ofNat n })
  | sqMeta (i : SqIdx) (m : EnaTxMeta) :
    Effect w₀ inp w (w.setSq i { w.dev.sq i with txMeta := m })
  | queues {r : AdminStatus × Bytes × EnaState} (hinp : inp.Configures) (h : QueueCmd w.dev r) :
    Effect w₀ inp w (w.setDev r.2.2)
  | mtu (mtu : UInt32) (hmin : enaMinMtu ≤ mtu) (hmax : mtu ≤ enaMaxMtu) :
    Effect w₀ inp w (w.setDev { w.dev with mtu := mtu })
  | llq (entry : UInt16) :
    Effect w₀ inp w
      (w.setDev { w.dev with llqEnabled := true, llqEntrySize := llqEntrySizeOf entry })
  | rss (r : EnaRss) (hf : ∀ p, r.fields p = w.dev.rss.fields p ∨ RssFieldsOk p (r.fields p))
    (hi : ∀ k, r.indTbl k = w.dev.rss.indTbl k ∨ (r.indTbl k).toNat < 16) :
    Effect w₀ inp w (w.setDev { w.dev with rss := r })
  | environment (mem : Memory) (llq : ℕ → UInt8) (clock : ℕ) (linkUp : Bool)
    (h : inp = .guest mem llq ∨ mem = w.mem) :
    Effect w₀ inp w { w with mem := mem, llq := llq, clock := clock, linkUp := linkUp }

/-- Any number of effects within one step. -/
abbrev Path (w₀ : World) (inp : Input) : World → World → Prop := ReflTransGen (Effect w₀ inp)

lemma SameQueues.refl (s : EnaState) : SameQueues s s := ⟨rfl,rfl,rfl,rfl,rfl,rfl⟩

namespace Quietly
variable {w w' w'' : World}

lemma setDev {s : EnaState} (h : SameQueues w.dev s) (hirq : s.irq = w.dev.irq) :
    Quietly w (w.setDev s) := ⟨h,hirq,rfl,rfl,.of_eq rfl⟩

lemma emit {e : Event} (h : e.Quiet) : Quietly w (w.emit e) := ⟨.refl _,rfl,rfl,rfl,.emit h⟩

end Quietly

lemma dev_adminIntr (w : World) : (enaAdminIntr w).dev = w.dev := by
  unfold enaAdminIntr
  split_ifs <;> rfl
end EnaDevice
