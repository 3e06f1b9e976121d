import EnaDevice.Driver.TxUtil
import EnaDevice.Tx.Packet

/-! TX descriptors as the driver fills them, read back as the device reads them. -/
namespace EnaDevice.Driver
open Bytes

lemma le32At_skip (x : UInt32) (b : Bytes) (n : ℕ) : le32At (ofLe32 x ++ b) (n+4) = le32At b n := by
  rw [Nat.add_comm]
  exact le32At_append_right (ofLe32 x) b n

/-- A record of four words. -/
lemma ofBytes_words (a b c d : UInt32) :
    EnaTxDesc.ofBytes (ofLe32 a ++ ofLe32 b ++ ofLe32 c ++ ofLe32 d) = ⟨a,b,c,d⟩ := by
  have hlast : le32At (ofLe32 d) 0 = d := by
    have hread := le32At_ofLe32 d []
    rwa [List.append_nil] at hread
  rw [EnaTxDesc.ofBytes,List.append_assoc,List.append_assoc,le32At_ofLe32,le32At_skip _ _ 0,
    le32At_skip _ _ 4,le32At_skip _ _ 8,le32At_ofLe32,le32At_skip _ _ 0,le32At_skip _ _ 4,
      le32At_ofLe32,le32At_skip _ _ 0,hlast]

section Desc
variable {addr : UInt64} {len reqId : UInt16} {ctrlFlags metaCtrl : UInt32} {hdrLen : UInt8}

/-- The four words of a descriptor, in arithmetic: the flags are above the length and the upper part
of the request id, and the offload bits below its lower part. -/
structure Words (d : EnaTxDesc) (addr : UInt64) (len reqId : UInt16) (ctrlFlags metaCtrl : UInt32)
    (hdrLen : UInt8) :
    Prop where
  lenCtrl : d.lenCtrl.toNat = ctrlFlags.toNat + (reqId.toNat/2^10*2^16 + len.toNat)
  metaCtrl : d.metaCtrl.toNat = reqId.toNat % 2^10*2^22 + metaCtrl.toNat
  addrLo : d.buffAddrLo.toNat = addr.toNat % 2^32
  addrHi : d.buffAddrHiHdrSz.toNat = hdrLen.toNat*2^24 + addr.toNat/2^32 % 2^16

lemma enaTxDescFill_words (hflags : 2^22 ∣ ctrlFlags.toNat) (hmeta : metaCtrl.toNat < 2^22) :
    Words (.ofBytes (enaTxDescFill addr len reqId ctrlFlags metaCtrl hdrLen)) addr len reqId
      ctrlFlags metaCtrl
      hdrLen := by
  have hlen := len.toNat_lt
  have hid := reqId.toNat_lt
  have haddr := addr.toNat_lt
  have hshift : (reqId >>> 10).toUInt32.toNat = reqId.toNat/2^10 := by
    rw [UInt16.toNat_toUInt32,UInt16.toNat_shiftRight,Nat.shiftRight_eq_div_pow]
    rfl
  have hlow : (reqId &&& 0x3ff).toUInt32.toNat = reqId.toNat % 2^10 := by
    rw [UInt16.toNat_toUInt32,UInt16.toNat_and]
    exact Nat.and_two_pow_sub_one_eq_mod reqId.toNat 10
  have hidHi : (((reqId >>> 10).toUInt32 <<< 16) &&& genmask 21 16).toNat =
      reqId.toNat/2^10*2^16 := by
    have hplace := Bits.place_toNat (reqId >>> 10).toUInt32 (k := 6) (l := 16) (by norm_num)
      (by norm_num)
    rw [hshift,Nat.mod_eq_of_lt (by omega)] at hplace
    exact hplace
  have hidLo : (((reqId &&& 0x3ff).toUInt32 <<< 22) &&& genmask 31 22).toNat =
      reqId.toNat % 2^10*2^22 := by
    have hplace := Bits.place_toNat (reqId &&& 0x3ff).toUInt32 (k := 10) (l := 22) (by norm_num)
      (by norm_num)
    rw [hlow,Nat.mod_mod] at hplace
    exact hplace
  have hhi : ((addr >>> 32).toUInt32 &&& genmask 15 0).toNat = addr.toNat/2^32 % 2^16 := by
    have hword : (addr >>> 32).toUInt32.toNat = addr.toNat/2^32 := by
      rw [UInt64.toNat_toUInt32,UInt64.toNat_shiftRight,Nat.shiftRight_eq_div_pow]
      exact Nat.mod_eq_of_lt (by change addr.toNat/2^32 < 2^32; omega)
    have hmask := Bits.low_toNat (addr >>> 32).toUInt32 (k := 16) (by norm_num)
    rw [hword] at hmask
    exact hmask
  have hhdr : (hdrLen.toUInt32 <<< 24).toNat = hdrLen.toNat*2^24 := by
    have hlt := hdrLen.toNat_lt
    rw [UInt32.toNat_shiftLeft,UInt8.toNat_toUInt32,Nat.shiftLeft_eq]
    exact Nat.mod_eq_of_lt (by change hdrLen.toNat*2^24 < 2^32; omega)
  rw [enaTxDescFill,ofBytes_words]
  refine ⟨?_,?_,?_,?_⟩
  · have hbelow : (len.toUInt32 ||| (((reqId >>> 10).toUInt32 <<< 16) &&& genmask 21 16)).toNat =
        reqId.toNat/2^10*2^16 + len.toNat := by
      rw [Bits.or_toNat (k := 16) (by rw [UInt16.toNat_toUInt32]; exact hlen)
        (by rw [hidHi]; exact Nat.dvd_mul_left _ _),hidHi,UInt16.toNat_toUInt32]
    dsimp only
    rw [UInt32.or_assoc,UInt32.or_comm ctrlFlags,← UInt32.or_assoc,
      Bits.or_toNat (k := 22) (by omega) hflags,hbelow]
  · dsimp only
    rw [Bits.or_toNat (k := 22) hmeta (by rw [hidLo]; exact Nat.dvd_mul_left _ _),hidLo]
  · dsimp only
    exact UInt64.toNat_toUInt32 addr
  · dsimp only
    rw [Bits.or_toNat (k := 24) (by rw [hhi]; omega) (by rw [hhdr]; exact Nat.dvd_mul_left _ _),hhi,
      hhdr]

namespace Words
variable {d : EnaTxDesc} (h : Words d addr len reqId ctrlFlags metaCtrl hdrLen)
  (hflags : 2^22 ∣ ctrlFlags.toNat) (hmeta : metaCtrl.toNat < 2^22)
include h

include hflags in
/-- The flags are where they were put. -/
lemma flag {n : ℕ} (hn : 22 ≤ n) : d.lenCtrl.toNat.testBit n = ctrlFlags.toNat.testBit n := by
  obtain ⟨f,hf⟩ := hflags
  have hlen := len.toNat_lt
  have hid := reqId.toNat_lt
  have hbelow : reqId.toNat/2^10*2^16 + len.toNat < 2^22 := by omega
  have halone := Nat.testBit_two_pow_mul_add f (Nat.two_pow_pos 22) n
  rw [Nat.add_zero] at halone
  rw [h.lenCtrl,hf,Nat.testBit_two_pow_mul_add f hbelow,halone,if_neg (by omega),if_neg (by omega)]

include hmeta in
/-- The offload bits too. -/
lemma offload {n : ℕ} (hn : n < 22) : d.metaCtrl.toNat.testBit n = metaCtrl.toNat.testBit n := by
  rw [h.metaCtrl,Nat.mul_comm,Nat.testBit_two_pow_mul_add _ hmeta,if_pos hn]

include hflags in
lemma length_eq : d.lenCtrl.toNat % 2^16 = len.toNat := by
  obtain ⟨f,hf⟩ := hflags
  have hlen := len.toNat_lt
  rw [h.lenCtrl,hf]
  omega

include hflags in
lemma reqIdHi : d.lenCtrl.toNat/2^16 % 2^6 = reqId.toNat/2^10 := by
  obtain ⟨f,hf⟩ := hflags
  have hlen := len.toNat_lt
  have hid := reqId.toNat_lt
  rw [h.lenCtrl,hf]
  omega

include hmeta in
lemma reqIdLo : d.metaCtrl.toNat/2^22 = reqId.toNat % 2^10 := by
  rw [h.metaCtrl]
  omega

lemma hdrLen_eq : d.buffAddrHiHdrSz.toNat/2^24 = hdrLen.toNat := by
  rw [h.addrHi]
  omega

lemma addr_eq (haddr : addr.toNat < 2^48) : d.addr = addr := by
  have hmask := Bits.low_toNat d.buffAddrHiHdrSz (k := 16) (by norm_num)
  have hhi : (d.buffAddrHiHdrSz &&& genmask 15 0).toNat = addr.toNat/2^32 := by
    refine hmask.trans ?_
    rw [h.addrHi]
    omega
  apply UInt64.toNat_inj.mp
  rw [EnaTxDesc.addr,UInt64.toNat_or,UInt64.toNat_shiftLeft,UInt32.toNat_toUInt64,
    UInt32.toNat_toUInt64,hhi,h.addrLo]
  exact Bits.join_cut addr.toNat_lt

/-- The descriptor of a buffer. -/
lemma encodesBuf (hflags : 2^22 ∣ ctrlFlags.toNat) (haddr : addr.toNat < 2^48) {data : Bytes}
    {last : Prop} (hdata : len.toNat = data.length) (hdesc : ctrlFlags.toNat.testBit 23 = false)
    (hlast : ctrlFlags.toNat.testBit 27 = true ↔ last) : EncodesBuf d ⟨addr,data⟩ last where
  metaDesc := (h.flag hflags (by norm_num)).trans hdesc
  last := by
    rw [h.flag hflags (by norm_num)]
    exact hlast
  length := (h.length_eq hflags).trans hdata
  addrLo := h.addrLo
  addrHi := by
    rw [h.addrHi]
    dsimp only
    omega

/-- The first descriptor of a packet without offloads. -/
lemma encodesPacket {p : TxPacket} (hflags : 2^22 ∣ ctrlFlags.toNat) (hmeta : metaCtrl = 0)
    (hid : reqId = p.reqId) (hhdr : hdrLen.toNat = p.header.length)
    (hfirst : ctrlFlags.toNat.testBit 26 = true) (hcomp : ctrlFlags.toNat.testBit 28 = p.compReq) :
    EncodesPacket d p := by
  subst hmeta
  have hzero : (0 : UInt32).toNat < 2^22 := Nat.two_pow_pos 22
  have hclear : ∀ {n}, n < 22 → d.metaCtrl.toNat.testBit n = false := by
    intro n hn
    rw [h.offload hzero hn]
    exact Nat.zero_testBit n
  exact ⟨fun _ => (h.flag hflags (by norm_num)).trans hfirst,
    (h.flag hflags (by norm_num)).trans hcomp,hid ▸ h.reqIdLo hzero,hid ▸ h.reqIdHi hflags,
      h.hdrLen_eq.trans hhdr,hclear (by norm_num),hclear (by norm_num),
    hclear (by norm_num)⟩

end Words

end Desc

section Meta
variable {mss : UInt16} {l3HdrLen l3HdrOff l4HdrWords : UInt8}

/-- The second word of a meta descriptor, in arithmetic. -/
lemma enaTxMetaFill_word2 (hwords : l4HdrWords.toNat < 2^6) :
    (l3HdrLen.toUInt32 ||| (l3HdrOff.toUInt32 <<< 8) ||| (l4HdrWords.toUInt32 <<< 16) |||
      (((mss &&& 0x3ff).toUInt32 <<< 22) &&& genmask 31 22)).toNat =
        mss.toNat % 2^10*2^22 + (l4HdrWords.toNat*2^16 +
          (l3HdrOff.toNat*2^8 + l3HdrLen.toNat)) := by
  have hlen := l3HdrLen.toNat_lt
  have hoff := l3HdrOff.toNat_lt
  have hlow : (mss &&& 0x3ff).toUInt32.toNat = mss.toNat % 2^10 := by
    rw [UInt16.toNat_toUInt32,UInt16.toNat_and]
    exact Nat.and_two_pow_sub_one_eq_mod mss.toNat 10
  have hmss : (((mss &&& 0x3ff).toUInt32 <<< 22) &&& genmask 31 22).toNat =
      mss.toNat % 2^10*2^22 := by
    have hplace := Bits.place_toNat (mss &&& 0x3ff).toUInt32 (k := 10) (l := 22) (by norm_num)
      (by norm_num)
    rw [hlow,Nat.mod_mod] at hplace
    exact hplace
  have hshift8 : (l3HdrOff.toUInt32 <<< 8).toNat = l3HdrOff.toNat*2^8 := by
    rw [UInt32.toNat_shiftLeft,UInt8.toNat_toUInt32,Nat.shiftLeft_eq]
    exact Nat.mod_eq_of_lt (by change l3HdrOff.toNat*2^8 < 2^32; omega)
  have hshift16 : (l4HdrWords.toUInt32 <<< 16).toNat = l4HdrWords.toNat*2^16 := by
    rw [UInt32.toNat_shiftLeft,UInt8.toNat_toUInt32,Nat.shiftLeft_eq]
    exact Nat.mod_eq_of_lt (by change l4HdrWords.toNat*2^16 < 2^32; omega)
  have hfirst : (l3HdrLen.toUInt32 ||| (l3HdrOff.toUInt32 <<< 8)).toNat = l3HdrOff.toNat*2^8 +
      l3HdrLen.toNat := by
    rw [Bits.or_toNat (k := 8) (by rw [UInt8.toNat_toUInt32]; exact hlen)
      (by rw [hshift8]; exact Nat.dvd_mul_left _ _),hshift8,UInt8.toNat_toUInt32]
  have hsecond : (l3HdrLen.toUInt32 ||| (l3HdrOff.toUInt32 <<< 8) |||
    (l4HdrWords.toUInt32 <<< 16)).toNat =
      l4HdrWords.toNat*2^16 + (l3HdrOff.toNat*2^8 + l3HdrLen.toNat) := by
    rw [Bits.or_toNat (k := 16) (by rw [hfirst]; omega)
      (by rw [hshift16]; exact Nat.dvd_mul_left _ _),hshift16,hfirst]
  rw [Bits.or_toNat (k := 22) (by rw [hsecond]; omega) (by rw [hmss]; exact Nat.dvd_mul_left _ _),
    hmss,hsecond]

/-- The upper part of the MSS, between the flags of its word. -/
lemma enaTxMetaFill_mssHi :
    (((bit 23 ||| bit 14 ||| bit 20 ||| bit 21 ||| bit 26 |||
      (((mss >>> 10).toUInt32 <<< 16) &&& genmask 19 16)) &&&
      genmask 19 16) >>> 16).toNat = mss.toNat/2^10 % 2^4 := by
  have hshift : (mss >>> 10).toUInt32.toNat = mss.toNat/2^10 := by
    rw [UInt16.toNat_toUInt32,UInt16.toNat_shiftRight,Nat.shiftRight_eq_div_pow]
    rfl
  have hflags : (bit 23 ||| bit 14 ||| bit 20 ||| bit 21 ||| bit 26) &&& genmask 19 16 = 0 := by
    decide
  have hplace := Bits.place_toNat (mss >>> 10).toUInt32 (k := 4) (l := 16) (by norm_num)
    (by norm_num)
  rw [hshift] at hplace
  rw [Bits.or_and,hflags,UInt32.zero_or,UInt32.and_assoc,UInt32.and_self,UInt32.toNat_shiftRight]
  change ((((mss >>> 10).toUInt32 <<< UInt32.ofNat 16) &&& UInt32.ofNat ((2^4-1)*2^16)).toNat) >>>
    16 = _
  rw [hplace,Nat.shiftRight_eq_div_pow,Nat.mul_div_cancel _ (Nat.two_pow_pos 16)]

/-- Ten bits and the bits above them, joined as the device joins request ids and MSS values. -/
lemma join_ten {lo hi : UInt32} {x : UInt16} (hlo : lo.toNat = x.toNat % 2^10)
    (hhi : hi.toNat = x.toNat/2^10) :
    (lo ||| hi <<< 10).toUInt16 = x := by
  have hlt := x.toNat_lt
  apply UInt16.toNat_inj.mp
  rw [UInt32.toNat_toUInt16,UInt32.toNat_or,UInt32.toNat_shiftLeft,hlo,hhi]
  change (x.toNat % 2^10 ||| (x.toNat/2^10) <<< 10 % 2^32) % 2^16 = _
  rw [Bits.join_cut (hlt.trans (by norm_num)),Nat.mod_eq_of_lt hlt]

/-- A meta descriptor, as the device reads it. -/
lemma enaTxMetaFill_read (hmss : mss.toNat < 2^14) (hwords : l4HdrWords.toNat < 2^6) :
    (EnaTxDesc.ofBytes (enaTxMetaFill mss l3HdrLen l3HdrOff l4HdrWords)).readMeta =
      ⟨mss,l3HdrLen,l3HdrOff,l4HdrWords⟩ := by
  have hlen := l3HdrLen.toNat_lt
  have hoff := l3HdrOff.toNat_lt
  have hword := @enaTxMetaFill_word2 mss l3HdrLen l3HdrOff l4HdrWords hwords
  have hhi := @enaTxMetaFill_mssHi mss
  rw [enaTxMetaFill,ofBytes_words,EnaTxDesc.readMeta]
  dsimp only
  generalize (l3HdrLen.toUInt32 ||| (l3HdrOff.toUInt32 <<< 8) ||| (l4HdrWords.toUInt32 <<< 16) |||
    (((mss &&& 0x3ff).toUInt32 <<< 22) &&& genmask 31 22)) = word at hword
  have hmssLo : ((word &&& genmask 31 22) >>> 22).toNat = mss.toNat % 2^10 := by
    have hfield := Bits.field_toNat word (k := 10) (l := 22) (by norm_num) (by norm_num)
    exact hfield.trans (by rw [hword]; omega)
  have hfirst : (word &&& genmask 7 0).toNat = l3HdrLen.toNat := by
    have hfield := Bits.low_toNat word (k := 8) (by norm_num)
    exact hfield.trans (by rw [hword]; omega)
  have hsecond : ((word &&& genmask 15 8) >>> 8).toNat = l3HdrOff.toNat := by
    have hfield := Bits.field_toNat word (k := 8) (l := 8) (by norm_num) (by norm_num)
    exact hfield.trans (by rw [hword]; omega)
  have hthird : ((word &&& genmask 21 16) >>> 16).toNat = l4HdrWords.toNat := by
    have hfield := Bits.field_toNat word (k := 6) (l := 16) (by norm_num) (by norm_num)
    exact hfield.trans (by rw [hword]; omega)
  have hbyte : ∀ {x : UInt32} {y : UInt8}, x.toNat = y.toNat → x.toUInt8 = y := by
    intro x y hxy
    apply UInt8.toNat_inj.mp
    rw [UInt32.toNat_toUInt8,hxy]
    exact Nat.mod_eq_of_lt y.toNat_lt
  rw [join_ten hmssLo (by rw [hhi]; omega),hbyte hfirst,hbyte hsecond,hbyte hthird]

end Meta

lemma or_bit_left {a : UInt32} (b : UInt32) {n : ℕ} (h : (a &&& bit n != 0) = true) :
    ((a ||| b) &&& bit n != 0) = true := by
  rw [bne_iff_ne] at h ⊢
  intro hzero
  apply h
  apply UInt32.toNat_inj.mp
  have hnat := congrArg UInt32.toNat hzero
  rw [Bits.or_and,UInt32.toNat_or] at hnat
  exact (Nat.or_eq_zero_iff.mp hnat).1

/-- Descriptors and meta descriptors are read by the device as the driver filled them, for all
values that their fields can hold. -/
theorem tx_descriptors_roundtrip {addr : UInt64} (len reqId : UInt16) {ctrlFlags metaCtrl : UInt32}
    (hdrLen : UInt8) (haddr : addr.toNat < 2^48) (hflags : 2^22 ∣ ctrlFlags.toNat)
    (hmeta : metaCtrl.toNat < 2^22) {mss : UInt16} (l3HdrLen l3HdrOff : UInt8) {l4HdrWords : UInt8}
    (hmss : mss.toNat < 2^14) (hwords : l4HdrWords.toNat < 2^6) :
    (∃ d, EnaTxDesc.ofBytes (enaTxDescFill addr len reqId ctrlFlags metaCtrl hdrLen) = d ∧
      d.len = len.toNat ∧ d.addr = addr ∧ d.reqId = reqId ∧ d.hdrLen = hdrLen.toNat ∧
      (∀ n, 22 ≤ n → n < 32 → (d.lenCtrl &&& bit n != 0) = (ctrlFlags &&& bit n != 0)) ∧
      ∀ n < 22, (d.metaCtrl &&& bit n != 0) = (metaCtrl &&& bit n != 0)) ∧
    ∃ m, EnaTxDesc.ofBytes (enaTxMetaFill mss l3HdrLen l3HdrOff l4HdrWords) = m ∧ m.isMeta = true ∧
      m.extValid = true ∧ m.isFirst = true ∧ m.readMeta = ⟨mss,l3HdrLen,l3HdrOff,l4HdrWords⟩ := by
  constructor
  · have h := @enaTxDescFill_words addr len reqId ctrlFlags metaCtrl hdrLen hflags hmeta
    generalize EnaTxDesc.ofBytes (enaTxDescFill addr len reqId ctrlFlags metaCtrl hdrLen) = d at h
    refine ⟨d,rfl,?_,h.addr_eq haddr,?_,?_,fun n hn hlt => ?_,fun n hn => ?_⟩
    · exact (Bits.low_toNat d.lenCtrl (k := 16) (by norm_num)).trans (h.length_eq hflags)
    · have hlo := Bits.field_toNat d.metaCtrl (k := 10) (l := 22) (by norm_num) (by norm_num)
      have hhi := Bits.field_toNat d.lenCtrl (k := 6) (l := 16) (by norm_num) (by norm_num)
      rw [h.reqIdLo hmeta,Nat.mod_mod] at hlo
      exact join_ten hlo (hhi.trans (h.reqIdHi hflags))
    · have hlt := hdrLen.toNat_lt
      have hfield := Bits.field_toNat d.buffAddrHiHdrSz (k := 8) (l := 24) (by norm_num)
        (by norm_num)
      rw [h.hdrLen_eq,Nat.mod_eq_of_lt hlt] at hfield
      exact hfield
    · rw [bit,Bits.bit_ne_zero _ hlt,Bits.bit_ne_zero _ hlt,h.flag hflags hn]
    · rw [bit,Bits.bit_ne_zero _ (by omega),Bits.bit_ne_zero _ (by omega),h.offload hmeta hn]
  · refine ⟨_,rfl,?_,?_,?_,enaTxMetaFill_read hmss hwords⟩ <;> rw [enaTxMetaFill,ofBytes_words]
    · exact or_bit_left _ (by decide)
    · exact or_bit_left _ (by decide)
    · exact or_bit_left _ (by decide)

/-- A request id and an MSS with bits in both of their parts. -/
theorem tx_descriptors_roundtrip_split :
    (∃ d, EnaTxDesc.ofBytes (enaTxDescFill 0x123456789abc 1500 0xbeef (bit 26 ||| bit 28)
      (bit 7) 54) = d ∧
      d.len = 1500 ∧ d.addr = 0x123456789abc ∧ d.reqId = 0xbeef ∧ d.hdrLen = 54 ∧
      (∀ n, 22 ≤ n → n < 32 → (d.lenCtrl &&& bit n != 0) = ((bit 26 ||| bit 28) &&& bit n != 0)) ∧
      ∀ n < 22, (d.metaCtrl &&& bit n != 0) = (bit 7 &&& bit n != 0)) ∧
    ∃ m, EnaTxDesc.ofBytes (enaTxMetaFill 9000 20 14 5) = m ∧ m.isMeta = true ∧ m.extValid = true ∧
      m.isFirst = true ∧ m.readMeta = ⟨9000,20,14,5⟩ :=
  tx_descriptors_roundtrip 1500 0xbeef 54 (by decide) (by decide) (by decide) 20 14 (by decide)
    (by decide)

end EnaDevice.Driver
