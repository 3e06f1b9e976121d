import EnaDevice.Lib.Checksum
import EnaDevice.Tx.Genuine

/-! The offload of the IPv4 header checksum: the frame goes out with the right checksum, and is
otherwise the frame that was assembled. -/
namespace EnaDevice
open Bytes Result

/-- `net_raw_checksum` is the ones'-complement checksum of the words. -/
def RawChecksum (net : Net) : Prop :=
  ∀ data, (net.netRawChecksum data).toNat = Checksum.checksum data

/-- The bytes of the IPv4 header, by the place and length that the assembled frame gives it. -/
def ip4HeaderOf (net : Net) (frame buf : Bytes) : Bytes :=
  (buf.drop (net.ethGetL2HdrLength frame)).take (ipHdrLen (ipVhl net frame))

section Header
variable {net : Net} {frame buf : Bytes}

/-- Writing the same field twice. -/
lemma withBe16_withBe16 {off : ℕ} (h : off + 2 ≤ buf.length) (x y : UInt16) :
    withBe16 (withBe16 buf off x) off y = withBe16 buf off y := by
  have htake : (withBe16 buf off x).take off = buf.take off := by
    rw [withBe16,List.append_assoc,List.take_append_of_le_length (by rw [List.length_take]; omega),
      List.take_take,Nat.min_self]
  have hdrop : (withBe16 buf off x).drop (off+2) = buf.drop (off+2) := by
    have hlen : (buf.take off ++ [(x >>> 8).toUInt8,x.toUInt8]).length = off+2 := by
      rw [List.length_append,List.length_take,Nat.min_eq_left (by omega)]
      rfl
    rw [withBe16,← hlen,List.drop_left,hlen]
  rw [withBe16,htake,hdrop]
  rfl

/-- The header of a frame with another checksum field. -/
lemma header_withBe16 {l2 ihl : ℕ} (hmin : 20 ≤ ihl) (hfit : l2 + ihl ≤ buf.length) (x : UInt16) :
    ((withBe16 buf (l2+10) x).drop l2).take ihl = (buf.drop l2).take 10 ++
      [(x >>> 8).toUInt8,x.toUInt8] ++ (buf.drop (l2+12)).take (ihl-12) := by
  have hpre : ((buf.take (l2+10)).drop l2).length = 10 := by
    rw [List.length_drop,List.length_take]
    omega
  have hpre' : (buf.take (l2+10)).drop l2 = (buf.drop l2).take 10 := by
    rw [List.drop_take,Nat.add_sub_cancel_left]
  have htwo : ((buf.take (l2+10)).drop l2 ++ [(x >>> 8).toUInt8,x.toUInt8]).length = 12 := by
    rw [List.length_append,hpre]
    rfl
  rw [withBe16,List.append_assoc,List.drop_append_of_le_length (by rw [List.length_take]; omega),
    ← List.append_assoc,List.take_append,htwo,List.take_of_length_le (by rw [htwo]; omega),hpre']

/-- The header that the device writes has a sum of all ones. -/
lemma ip4Summed_sum (hsum : RawChecksum net) (h : IsIp4 net frame) :
    Checksum.onesSum (ip4HeaderOf net frame (ip4Summed net frame)) = 65535 := by
  have hmin := h.2.2.2.2.1
  have hfit := h.2.2.2.2.2
  have hclear : ip4HeaderOf net frame (ip4Cleared net frame) = _ := header_withBe16 hmin hfit 0
  have hlen : ((frame.drop (net.ethGetL2HdrLength frame)).take 10).length % 2 = 0 := by
    rw [List.length_take,List.length_drop,Nat.min_eq_left (by omega)]
  generalize hx : net.netRawChecksum (ip4HeaderOf net frame (ip4Cleared net frame)) = x
  have hval := hsum (ip4HeaderOf net frame (ip4Cleared net frame))
  rw [hx,hclear] at hval
  have hsummed : ip4Summed net frame = withBe16 frame (net.ethGetL2HdrLength frame + 10) x := by
    rw [← hx]
    exact withBe16_withBe16 h.fits 0 _
  rw [hsummed,ip4HeaderOf,header_withBe16 hmin hfit x]
  refine Checksum.onesSum_checksummed hlen ?_
  have hhi : (x >>> 8).toUInt8.toNat = x.toNat/256 := by
    have hlt := x.toNat_lt
    rw [UInt16.toNat_toUInt8,UInt16.toNat_shiftRight]
    change x.toNat >>> 8 % 2^8 = _
    rw [Nat.shiftRight_eq_div_pow]
    omega
  have hlo : x.toUInt8.toNat = x.toNat % 256 := UInt16.toNat_toUInt8 x
  rw [hhi,hlo,Nat.div_add_mod']
  exact hval

end Header

section Offload
variable {net : Net} {w w' : World} {i : SqIdx} {p : EnaTxPkt} {frame : Bytes}

/-- A packet that asks for the IPv4 header checksum and nothing else. -/
structure L3CsumOnly (p : EnaTxPkt) : Prop where
  l3 : p.metaCtrl &&& txL3CsumEn ≠ 0
  tso : p.metaCtrl &&& txTsoEn = 0
  l4 : p.metaCtrl &&& txL4CsumEn = 0

lemma L3CsumOnly.offloads (h : L3CsumOnly p) : p.offloads = txL3CsumEn := by
  have hbit : p.metaCtrl &&& txL3CsumEn = txL3CsumEn :=
    (Bits.and_bit p.metaCtrl (show 13 < 32 by norm_num)).resolve_left h.l3
  rw [EnaTxPkt.offloads,UInt32.and_comm,Bits.or_and,Bits.or_and,UInt32.and_comm txTsoEn,h.tso,
    UInt32.and_comm txL3CsumEn,hbit,UInt32.and_comm txL4CsumEn,h.l4]
  rfl

lemma txApplicable_l3Csum (ip4 : Bool) (l4 : UInt8) :
    txApplicable txL3CsumEn ip4 l4 = if ip4 then txL3CsumEn else 0 := by
  have hno : ∀ offloads : UInt32, offloads &&& txL4CsumEn = 0 →
      (if offloads &&& txL4CsumEn ≠ 0 ∧ l4 ≠ ipProtoTcp ∧
        l4 ≠ ipProtoUdp then offloads &&& ~~~txL4CsumEn
        else offloads) = offloads := fun _ h => if_neg fun hc => hc.1 h
  unfold txApplicable
  cases ip4
  · exact hno 0 rfl
  · exact hno txL3CsumEn (by decide)

/-- The checksum is done here, so nothing is left for the backend. -/
lemma L3CsumOnly.prepared (h : L3CsumOnly p) :
    txPrepared net (txApplied net p.offloads frame) frame =
    (if IsIp4 net frame then ip4Summed net frame else frame,0) := by
  rw [h.offloads,txApplied,txApplicable_l3Csum]
  by_cases h4 : IsIp4 net frame
  · rw [decide_eq_true h4,if_pos rfl,if_pos h4]
    exact if_pos ⟨by decide,by decide⟩
  · rw [decide_eq_false h4,if_neg Bool.false_ne_true,if_neg h4]
    exact if_neg fun hc => hc.1 (by decide)

/-- A packet with the L3 checksum offload only is sent verbatim, up to the checksum. -/
lemma TxResult.l3Csum (hl3 : L3CsumOnly p) (ha : TxAdmitted (w.dev.sq i) p)
    (hb : w.txAssembled i p = some frame) (hown : ¬ Foreign w.dev frame)
    (hmtu : frame.length ≤ (w.dev.mtu + 14 + 4).toNat) (h : TxResult net w i p w') :
    w' = (w.emit (.sendPacket (if IsIp4 net frame then ip4Summed net frame else frame))).txCount
      (if IsIp4 net frame then ip4Summed net frame else frame).length := by
  have hzero : p.offloads &&& txTsoEn = 0 := (offloads_tso p).trans hl3.tso
  have hpass : TxPasses net w.dev (w.dev.sq i).txMeta.mss p.offloads frame :=
    ⟨hown,fun _ => hmtu,fun hne => absurd hzero hne⟩
  rw [h.passed ha hb hpass,hl3.prepared]
  rfl

/-- The offload of the IPv4 header checksum, for every packet in every reachable state: an IPv4
frame goes out with a header that sums to all ones and is otherwise the assembled frame; any other
frame goes out unchanged. -/
theorem l3Csum_offload (hsum : RawChecksum net) (h : TxPacketStep net i p w w') (hl3 : L3CsumOnly p)
    (ha : TxAdmitted (w.dev.sq i) p) (hb : w.txAssembled i p = some frame)
    (hown : ¬ Foreign w.dev frame) (hmtu : frame.length ≤ w.dev.mtu.toNat + 18) :
    ∃ buf es, w'.trace = w.trace ++ .sendPacket buf::es ∧ (∀ e ∈ es, e.handedOver = none) ∧
      (IsIp4 net frame → buf.length = frame.length ∧
        (∀ k, k ≠ net.ethGetL2HdrLength frame + 10 → k ≠ net.ethGetL2HdrLength frame + 11 →
          buf[k]? = frame[k]?) ∧
        20 ≤ (ip4HeaderOf net frame buf).length ∧ (ip4HeaderOf net frame buf).length ≤ 60 ∧
        Checksum.onesSum (ip4HeaderOf net frame buf) = 0xffff) ∧
      (¬ IsIp4 net frame → buf = frame) := by
  obtain ⟨hframe,hadm⟩ := withMeta_frame w i p
  obtain ⟨hmac,hmtu'⟩ := withMeta_constants w i p
  obtain ⟨w₁,hresult,es,htrace,hes⟩ := h.processed.silent
  have hown' : ¬ Foreign (w.withMeta i p).dev frame := by
    rw [Foreign,hmac]
    exact hown
  have hlimit : frame.length ≤ ((w.withMeta i p).dev.mtu + 14 + 4).toNat := by
    rw [hmtu',h.tables.1.maxFrame]
    exact hmtu
  have hsent := hresult.l3Csum hl3 (hadm.mpr ha) (hframe.trans hb) hown' hlimit
  refine ⟨if IsIp4 net frame then ip4Summed net frame else frame,es,?_,hes,fun h4 => ?_,
    fun h4 => if_neg h4⟩
  · rw [htrace,hsent]
    change ((w.withMeta i p).trace ++ [_]) ++ es = _
    rw [withMeta_trace,List.append_assoc]
    rfl
  · rw [if_pos h4]
    have hlen := ip4Summed_length h4
    have hfit := h4.2.2.2.2.2
    have hmin := h4.2.2.2.2.1
    have hheader : (ip4HeaderOf net frame (ip4Summed net frame)).length =
        ipHdrLen (ipVhl net frame) := by
      rw [ip4HeaderOf,List.length_take,List.length_drop,hlen]
      omega
    have hmax : ipHdrLen (ipVhl net frame) ≤ 60 := by
      have hlow : (ipVhl net frame &&& 0xf).toNat ≤ 15 := by
        rw [UInt8.toNat_and]
        exact Nat.and_le_right
      unfold ipHdrLen
      omega
    refine ⟨hlen,fun k hne hne' => getElem?_ip4Summed h4 (by omega),?_,?_,ip4Summed_sum hsum h4⟩
    · rw [hheader]
      exact hmin
    · rw [hheader]
      exact hmax

/-- The library on frames with at most one VLAN tag, or with an outer tag before it, and with
checksums as documented. -/
def Net.linear : Net :=
  { Net.nonIp with
    ethGetL2HdrLength := fun b =>
      if u8At b 12 = 0x81 ∧ u8At b 13 = 0 then 18
      else if u8At b 12 = 0x88 ∧ u8At b 13 = 0xa8 then
        if u8At b 16 = 0x81 ∧ u8At b 17 = 0 then 22 else 18
      else 14
    netRawChecksum := fun data => UInt16.ofNat (Checksum.checksum data) }

lemma linear_rawChecksum : RawChecksum Net.linear := by
  intro data
  change (UInt16.ofNat (Checksum.checksum data)).toNat = _
  rw [UInt16.toNat_ofNat']
  refine Nat.mod_eq_of_lt ?_
  unfold Checksum.checksum
  omega

/-- A tagged frame that is an IPv4 header without a checksum. -/
def ip4Frame : Bytes :=
  List.replicate 6 0xff ++ List.replicate 6 2 ++ [0x81,0,0,5,8,0] ++
    [0x45,0,0,20,0,1,0,0,64,253,0,0,10,0,0,1,10,0,0,2]

/-- The descriptor of that frame, with the L3 checksum bit. -/
def ip4Desc : EnaTxDesc := ⟨0x1c010026,0x01402000,0x5000,0⟩

/-- The header of a VLAN frame gets its checksum. -/
theorem l3Csum_offload_vlan :
    ∃ w w' buf es, TxPacketStep Net.linear 0 (oneDescPkt ip4Desc) w w' ∧ IsIp4 Net.linear ip4Frame ∧
      w'.trace = w.trace ++ .sendPacket buf::es ∧ buf.length = 38 ∧
      Checksum.onesSum (ip4HeaderOf Net.linear ip4Frame buf) = 0xffff := by
  obtain ⟨w,hrun,hw⟩ := exists_of_okAnd
    (p := fun w => oneDescRung Net.linear ip4Desc ip4Frame (fun _ => true) w &&
      decide (ip4Frame.length ≤ w.dev.mtu.toNat + 18))
    (x := run Net.linear freshWorld (oneDescSetup ip4Desc ip4Frame)) (by decide +kernel)
  rw [Bool.and_eq_true,decide_eq_true_eq] at hw
  obtain ⟨w',h,-⟩ := oneDescRung_step hrun hw.1
  have h4 : IsIp4 Net.linear ip4Frame := by decide +kernel
  obtain ⟨buf,es,htrace,-,hip4,-⟩ := l3Csum_offload linear_rawChecksum h.packet
    ⟨by decide,by decide,by decide⟩ (h.admitted (by decide)) h.assembled h.own hw.2
  obtain ⟨hlen,-,-,-,hsum⟩ := hip4 h4
  exact ⟨_,w',buf,es,h.packet,h4,htrace,hlen,hsum⟩

end Offload
end EnaDevice
