import EnaDevice.Model.World

/-! Reset, the register file and readless register reads. -/
namespace EnaDevice

/-- Protocols of the RSS hash configuration, by their table index. -/
abbrev rssTcp4 : Fin 16 := 0
abbrev rssUdp4 : Fin 16 := 1
abbrev rssTcp6 : Fin 16 := 2
abbrev rssUdp6 : Fin 16 := 3
abbrev rssIp4 : Fin 16 := 4
abbrev rssIp6 : Fin 16 := 5
abbrev rssIp4Frag : Fin 16 := 6

/-- Destination and source address. -/
abbrev enaRssL3Fields : UInt16 := 0xc
/-- Addresses, destination port and source port. -/
abbrev enaRssL3L4Fields : UInt16 := 0x3c

/-- `ena_rss_supported_fields`. -/
def enaRssSupportedFields (proto : Fin 16) : UInt16 :=
  if proto = rssTcp4 ∨ proto = rssUdp4 ∨ proto = rssTcp6 ∨ proto = rssUdp6 then enaRssL3L4Fields
  else if proto = rssIp4 ∨ proto = rssIp6 ∨ proto = rssIp4Frag then enaRssL3Fields
  else 0

/-- The ENA default key: Microsoft's RSS key with its 4-byte words reversed. -/
def rssDefaultKey : Fin 10 → UInt32 :=
  ![0x6d5a56da, 0x255b0ec2, 0x4167253d, 0x43a38fb0, 0xd0ca2bcb,
    0xae7b30b4, 0x77cb2da3, 0x8030f20c, 0x6a42b73b, 0xbeac01fa]

/-- `ena_rss_reset`. -/
def enaRssReset : EnaRss where
  key := rssDefaultKey
  keyParts := 10
  initVal := 0
  fields := enaRssSupportedFields
  indTbl := fun _ => 0

/-- Registers after a reset: versions, capabilities and a ready device. -/
def regReset : Fin 28 → UInt32 := fun k =>
  if k = Fin.ofNat 28 (regVersion/4) then (2 : UInt32) <<< 8
  else if k = Fin.ofNat 28 (regControllerVersion/4) then ((1 : UInt32) <<< 24) ||| 1
  else if k = Fin.ofNat 28 (regCaps/4) then ((10 : UInt32) <<< 1) ||| (enaDmaAddrWidth <<< 8)
  else if k = Fin.ofNat 28 (regDevSts/4) then 1
  else 0

/-- `ena_dev_reset` on the state; the MAC and the device properties survive. -/
def EnaState.devReset (s : EnaState) : EnaState where
  macaddr := s.macaddr
  llqLarge := s.llqLarge
  reg := regReset
  aqHead := 0
  acqTail := 0
  acqPhase := true
  aenqTail := 0
  aenqPhase := true
  aenqGroups := 0
  keepAliveTimer := none
  mtu := enaMaxMtu
  hostInfoAddr := 0
  debugAreaAddr := 0
  debugAreaSize := 0
  llqEnabled := false
  llqEntrySize := 0
  rss := enaRssReset
  sq := fun _ => EnaSq.zero
  cq := fun _ => EnaCq.zero
  irq := fun _ => EnaIrq.zero
  txPkts := 0
  txBytes := 0
  rxPkts := 0
  rxBytes := 0
  rxDrops := 0
  txDrops := 0

/-- `ena_dev_reset`. -/
def enaDevReset (w : World) : World := (w.setDev w.dev.devReset).emit .reset

/-- `ena_reg_file_read`. -/
def enaRegFileRead (s : EnaState) (off : ℕ) : UInt32 :=
  if off < regFileSize then s.getReg off else 0xffffffff

/-- `ena_mmio_readless`. -/
def enaMmioReadless (w : World) (req : UInt32) : World :=
  let respAddr := w.dev.mmioResp
  let reqId := (req &&& 0xffff).toUInt16
  let off := ((req &&& 0xffff0000) >>> 16).toUInt16
  let resp := Bytes.ofLe16 reqId ++ Bytes.ofLe16 off ++
    Bytes.ofLe32 (enaRegFileRead w.dev off.toNat)
  if respAddr = 0 ∨ off &&& 3 ≠ 0 then w else enaDmaWrite w .mmioResp respAddr resp

/-- Bits of `DEV_CTL` that a driver may write: the reset bit and the two reason fields. -/
abbrev devCtlKnown : UInt32 := 0x1 ||| 0xf0000000 ||| 0xf000000
abbrev devStsReady : UInt32 := 0x1
abbrev devStsResetInProgress : UInt32 := 0x8

/-- `ena_dev_ctl_write`. -/
def enaDevCtlWrite (w : World) (val : UInt32) : Except Fault World :=
  if val &&& ~~~devCtlKnown ≠ 0 then .error (.unsupported (.devCtlWrite val))
  else if val &&& 1 ≠ 0 then
    let w := enaDevReset w
    .ok (w.setDev ((w.dev.setReg regDevCtl val).setReg regDevSts devStsResetInProgress))
  else if val ≠ 0 then .error (.unsupported (.devCtlReasonWithoutReset val))
  else
    -- the write of 0 completes the reset handshake
    let s := w.dev.setReg regDevCtl 0
    .ok (w.setDev (if s.getReg regDevSts &&& devStsResetInProgress ≠ 0
      then s.setReg regDevSts devStsReady else s))

/-- `ena_check_queue_caps`: 64-byte entries and a power-of-two depth. -/
def enaCheckQueueCaps (val : UInt32) : Except Fault Unit :=
  check ((val &&& 0xffff0000) >>> 16 = 64 && isPowerOf2 (val &&& 0xffff).toNat)
    (.unsupported (.queueCaps val))

end EnaDevice
