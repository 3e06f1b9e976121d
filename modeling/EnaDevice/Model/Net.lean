import EnaDevice.Model.World

/-! The parts of QEMU's network library that the datapath calls. They are not part of the device,
so the model takes them as a parameter: each field is a function of the frame it is given. -/
namespace EnaDevice

/-- `EthL4HdrProto` -/
inductive EthL4HdrProto
  | invalid
  | tcp
  | udp
  | other
  deriving DecidableEq, Repr

/-- `NetRxPktRssType` -/
inductive NetRxPktRssType
  | ipV4
  | ipV4Tcp
  | ipV4Udp
  | ipV6
  | ipV6Tcp
  | ipV6Udp
  deriving DecidableEq, Repr

/-- Results of `net_rx_pkt_get_protocols`. -/
structure RxProtocols where
  hasip4 : Bool
  hasip6 : Bool
  l4 : EthL4HdrProto
  deriving DecidableEq, Repr

structure Net where
  ethGetL2HdrLength : Bytes → ℕ
  /-- `eth_get_l3_proto` of a linear frame with the given L2 header length -/
  ethGetL3Proto : Bytes → ℕ → UInt16
  netRawChecksum : Bytes → UInt16
  netTxPktParse : Bytes → Bool
  /-- arguments: frame, TSO enable, checksum enable, segment size -/
  netTxPktBuildVheader : Bytes → Bool → Bool → UInt16 → Bool
  /-- whether the backend took the packet -/
  netTxPktSend : Bytes → UInt32 → UInt16 → Bool
  netTxPktGetTotalLen : Bytes → ℕ
  netRxPktGetProtocols : Bytes → RxProtocols
  /-- the `fragment` flag of `net_rx_pkt_get_ip4_info` -/
  netRxPktIp4Fragment : Bytes → Bool
  /-- `none` when the checksum was not validated -/
  netRxPktValidateL3Csum : Bytes → Option Bool
  netRxPktValidateL4Csum : Bytes → Option Bool
  netRxPktCalcRssHash : Bytes → NetRxPktRssType → Bytes → UInt32

/-- What the library reports about frames that carry no IP: a plain Ethernet header and nothing to
parse, validate or hash. -/
def Net.nonIp : Net where
  ethGetL2HdrLength _ := ethHlen
  ethGetL3Proto b l2 := UInt16.ofNat ((Bytes.u8At b (l2-2)).toNat*256 + (Bytes.u8At b (l2-1)).toNat)
  netRawChecksum _ := 0xffff
  netTxPktParse _ := false
  netTxPktBuildVheader _ _ _ _ := false
  netTxPktSend _ _ _ := false
  netTxPktGetTotalLen b := b.length
  netRxPktGetProtocols _ := ⟨false,false,.invalid⟩
  netRxPktIp4Fragment _ := false
  netRxPktValidateL3Csum _ := none
  netRxPktValidateL4Csum _ := none
  netRxPktCalcRssHash _ _ _ := 0

end EnaDevice
