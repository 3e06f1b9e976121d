import EnaDevice.Invariant.Tables

/-! Pushing one completion: where the entry goes and what it changes. -/
namespace EnaDevice
open Result Relation

lemma cqAt_eq {idx : UInt16} {c : CqIdx} (h : idx.toNat = c.val) : cqAt idx = .ok c := by
  have hlt : idx.toNat < 16 := h ▸ c.isLt
  rw [cqAt,dif_pos hlt]
  exact congrArg _ (Fin.ext h)

/-- The phase bit of an entry, at the same place in TX, RX and admin completions. -/
def phaseBit (entry : Bytes) : Bool := Bytes.u8At entry 3 &&& 1 != 0

/-- A driver's own index into a ring and the phase it expects next. -/
structure RingDriver where
  head : UInt16
  phase : Bool

/-- The world after one push. -/
def World.cqPushed (w : World) (c : CqIdx) (cdesc : Bytes) : World :=
  (enaDmaWrite w (.cq c) (w.dev.cq c).slotAddr (cdesc.take (w.dev.cq c).entrySize.toNat)).setDev
    (w.dev.setCq c (w.dev.cq c).advance)

lemma enaCqPush_eq {w : World} {c : CqIdx} (cdesc : Bytes) (hu : (w.dev.cq c).used = true) :
    enaCqPush w c cdesc = .ok (w.cqPushed c cdesc) := by
  unfold enaCqPush
  simp only [hu, check_true, ok_bind]
  rfl

lemma cqPushed_of_ok {w w' : World} {c : CqIdx} {cdesc : Bytes} (h : enaCqPush w c cdesc = .ok w') :
    w' = w.cqPushed c cdesc := by
  obtain ⟨-,-,hret⟩ := bind_eq_ok.mp h
  exact (Except.ok.inj hret).symm

lemma cqPushed_cq (w : World) (c : CqIdx) (cdesc : Bytes) :
    (w.cqPushed c cdesc).dev.cq c = (w.dev.cq c).advance := by
  simp [World.cqPushed, World.setDev, EnaState.setCq]

lemma cqPushed_used {w : World} {c : CqIdx} (h : (w.dev.cq c).used = true) (cdesc : Bytes) :
    ((w.cqPushed c cdesc).dev.cq c).used = true := by
  rw [cqPushed_cq]
  exact h

lemma cqPushed_justPushed (w : World) (c : CqIdx) (cdesc : Bytes) :
    (w.cqPushed c cdesc).JustPushed c := by
  refine ⟨w.trace,w.dev,_,_,rfl,?_⟩
  rw [cqPushed_cq]
  rfl

namespace EnaCq.Ok
variable {q : EnaCq}

lemma entrySize_le (h : q.Ok) : q.entrySize.toNat ≤ 32 := by
  rcases h.entrySize with he | he | he <;> rw [he] <;> decide

/-- Entries of a ring do not wrap around the address space among themselves. -/
lemma slot_toNat (h : q.Ok) (t : UInt16) :
    ((t &&& (q.depth-1)).toUInt64*q.entrySize.toUInt64).toNat =
      t.toNat % q.depth.toNat*q.entrySize.toNat := by
  have hlt := Nat.mod_lt t.toNat (Counter.depth_pos h.depth.pow)
  have hmax := h.depth.max
  have he := h.entrySize_le
  rw [UInt64.toNat_mul,UInt16.toNat_toUInt64,UInt8.toNat_toUInt64,Counter.mask h.depth.pow]
  apply Nat.mod_eq_of_lt
  calc t.toNat % q.depth.toNat*q.entrySize.toNat ≤ 1024*32 :=
        Nat.mul_le_mul (hlt.le.trans hmax) he
    _ < 2^64 := by norm_num

lemma slot_within (h : q.Ok) :
    Within q.slotAddr q.entrySize.toNat q.base (q.depth.toNat*q.entrySize.toNat) := by
  apply within_add
  rw [h.slot_toNat]
  have hlt := Nat.mod_lt q.tail.toNat (Counter.depth_pos h.depth.pow)
  calc q.tail.toNat % q.depth.toNat*q.entrySize.toNat + q.entrySize.toNat
      = (q.tail.toNat % q.depth.toNat + 1)*q.entrySize.toNat := by ring
    _ ≤ q.depth.toNat*q.entrySize.toNat := Nat.mul_le_mul_right _ hlt

end EnaCq.Ok

lemma cqPushed_path {w₀ w : World} {inp : Input} {c : CqIdx} (cdesc : Bytes)
    (hw : TableInv w.dev) (hu : (w.dev.cq c).used = true) (hsite : inp.writes (.cq c)) :
    Path w₀ inp w (w.cqPushed c cdesc) := by
  have hlen : (cdesc.take (w.dev.cq c).entrySize.toNat).length ≤ (w.dev.cq c).entrySize.toNat := by
    rw [List.length_take]
    exact min_le_left _ _
  have hgrant := (within_of_le _ hlen).trans (hw.cq c hu).slot_within
  exact .tail (.single (.dma (.cq c) _ _ hsite ⟨hu,hgrant⟩)) (.cqAdvance c hu)

end EnaDevice
