import EnaDevice.Lib.Memory

/-! Device state of the ENA emulation: queue tables, per-vector interrupt state, RSS settings,
register file and counters. C arrays are functions on `Fin`, a `QEMUTimer` is the absolute
time it is armed for, and fixed-width fields keep their width. -/
namespace EnaDevice

abbrev SqIdx := Fin 16
abbrev CqIdx := Fin 16
/-- MSI-X vectors: 0 is shared by admin completions and AENQ events, 1..8 serve IO queues. -/
abbrev Vec := Fin 9

instance neZeroVec : NeZero 9 := ⟨by decide⟩

instance neZeroIdx : NeZero 16 := ⟨by decide⟩

instance neZeroReg : NeZero 28 := ⟨by decide⟩

abbrev enaMaxIoQueues : UInt32 := 8
abbrev enaMsixVectorNone : UInt32 := 0xffffffff
abbrev enaMaxQueueDepth : ℕ := 1024
abbrev enaMinQueueDepth : ℕ := 16
abbrev enaMaxTxHeaderSize : UInt32 := 96
abbrev enaMaxPktDescs : ℕ := 17
abbrev enaMaxMtu : UInt32 := 9000
abbrev enaMinMtu : UInt32 := 128
abbrev enaDmaAddrWidth : UInt32 := 48
abbrev enaKeepAliveIntervalMs : ℕ := 1000
abbrev enaLlqEntrySize : UInt16 := 128
abbrev enaLlqLargeEntrySize : UInt16 := 256
abbrev enaLlqDescsBeforeHeader : ℕ := 2
abbrev enaLlqQueueBytes : ℕ := 1024*128
abbrev enaMemBarSize : ℕ := 16*enaLlqQueueBytes
abbrev ethHlen : ℕ := 14
abbrev ethAlen : ℕ := 6

/-- `BIT(n)` of a 32-bit word. -/
def bit (n : ℕ) : UInt32 := UInt32.ofNat (2^n)

/-- `GENMASK(h, l)` of a 32-bit word. -/
def genmask (h l : ℕ) : UInt32 := UInt32.ofNat ((2^(h-l+1)-1)*2^l)

/-- `is_power_of_2`. -/
def isPowerOf2 (n : ℕ) : Bool := n != 0 && n &&& (n-1) == 0

structure EnaCq where
  used : Bool
  base : UInt64
  depth : UInt16
  entrySize : UInt8
  intrEnabled : Bool
  msixVector : UInt32
  tail : UInt16
  phase : Bool
  deriving DecidableEq, Repr

/-- Interrupt state of one MSI-X vector, shared by the CQs bound to it.
The timer holds its deadline in microseconds while it is armed. -/
structure EnaIrq where
  unmasked : Bool
  rxPending : Bool
  txPending : Bool
  rxDelayUs : UInt32
  txDelayUs : UInt32
  moderTimer : Option ℕ
  deriving DecidableEq, Repr

structure EnaTxMeta where
  mss : UInt16
  l3HdrLen : UInt8
  l3HdrOff : UInt8
  l4HdrLenWords : UInt8
  deriving DecidableEq, Repr

structure EnaSq where
  used : Bool
  isTx : Bool
  llq : Bool
  cqIdx : UInt16
  base : UInt64
  depth : UInt16
  entrySize : UInt16
  head : UInt16
  tail : UInt16
  /-- the cached `meta` -/
  txMeta : EnaTxMeta
  deriving DecidableEq, Repr

structure EnaRss where
  key : Fin 10 → UInt32
  keyParts : UInt32
  initVal : UInt32
  fields : Fin 16 → UInt16
  indTbl : Fin 128 → UInt16
  deriving DecidableEq

structure EnaState where
  /-- `conf.macaddr.a` -/
  macaddr : Fin 6 → UInt8
  /-- the `llq-large-header` property -/
  llqLarge : Bool
  reg : Fin 28 → UInt32
  aqHead : UInt16
  acqTail : UInt16
  acqPhase : Bool
  aenqTail : UInt16
  aenqPhase : Bool
  aenqGroups : UInt32
  /-- deadline in milliseconds while armed -/
  keepAliveTimer : Option ℕ
  mtu : UInt32
  hostInfoAddr : UInt64
  debugAreaAddr : UInt64
  debugAreaSize : UInt32
  llqEnabled : Bool
  llqEntrySize : UInt16
  rss : EnaRss
  sq : SqIdx → EnaSq
  cq : CqIdx → EnaCq
  irq : Vec → EnaIrq
  txPkts : UInt64
  txBytes : UInt64
  rxPkts : UInt64
  rxBytes : UInt64
  rxDrops : UInt64
  txDrops : UInt64
  deriving DecidableEq

/-- The all-zero records that `memset` leaves. -/
def EnaCq.zero : EnaCq := ⟨false,0,0,0,false,0,0,false⟩
def EnaIrq.zero : EnaIrq := ⟨false,false,false,0,0,none⟩
def EnaTxMeta.zero : EnaTxMeta := ⟨0,0,0,0⟩
def EnaSq.zero : EnaSq := ⟨false,false,false,0,0,0,0,0,0,EnaTxMeta.zero⟩

/-! Register offsets in BAR 0. -/
abbrev regFileSize : ℕ := 0x70
abbrev regVersion : ℕ := 0x0
abbrev regControllerVersion : ℕ := 0x4
abbrev regCaps : ℕ := 0x8
abbrev regCapsExt : ℕ := 0xc
abbrev regAqBaseLo : ℕ := 0x10
abbrev regAqBaseHi : ℕ := 0x14
abbrev regAqCaps : ℕ := 0x18
abbrev regAcqBaseLo : ℕ := 0x20
abbrev regAcqBaseHi : ℕ := 0x24
abbrev regAcqCaps : ℕ := 0x28
abbrev regAqDb : ℕ := 0x2c
abbrev regAcqTail : ℕ := 0x30
abbrev regAenqCaps : ℕ := 0x34
abbrev regAenqBaseLo : ℕ := 0x38
abbrev regAenqBaseHi : ℕ := 0x3c
abbrev regAenqHeadDb : ℕ := 0x40
abbrev regAenqTail : ℕ := 0x44
abbrev regIntrMask : ℕ := 0x4c
abbrev regDevCtl : ℕ := 0x54
abbrev regDevSts : ℕ := 0x58
abbrev regMmioRegRead : ℕ := 0x5c
abbrev regMmioRespLo : ℕ := 0x60
abbrev regMmioRespHi : ℕ := 0x64
abbrev regSqDbBase : ℕ := 0x1000
abbrev regCqUnmaskBase : ℕ := 0x2000

namespace EnaState

/-- `REG(s, off)`: the register file is indexed by word. -/
def getReg (s : EnaState) (off : ℕ) : UInt32 := s.reg (Fin.ofNat 28 (off/4))

def setReg (s : EnaState) (off : ℕ) (val : UInt32) : EnaState :=
  { s with reg := Function.update s.reg (Fin.ofNat 28 (off/4)) val }

lemma getReg_setReg (s : EnaState) (off : ℕ) (val : UInt32) : (s.setReg off val).getReg off = val :=
  Function.update_self _ _ _

lemma getReg_setReg_of_ne {off off' : ℕ} (h : Fin.ofNat 28 (off/4) ≠ Fin.ofNat 28 (off'/4))
    (s : EnaState) (val : UInt32) : (s.setReg off' val).getReg off = s.getReg off :=
      Function.update_of_ne h _ _

/-- A 64-bit bus address programmed through a low and a high register. -/
def regPair (s : EnaState) (hi lo : ℕ) : UInt64 :=
  ((s.getReg hi).toUInt64 <<< 32) ||| (s.getReg lo).toUInt64

/-- The depth field shared by `AQ_CAPS`, `ACQ_CAPS` and `AENQ_CAPS`. -/
def capsDepth (s : EnaState) (off : ℕ) : UInt16 := (s.getReg off &&& 0xffff).toUInt16

def aqBase (s : EnaState) : UInt64 := s.regPair regAqBaseHi regAqBaseLo
def acqBase (s : EnaState) : UInt64 := s.regPair regAcqBaseHi regAcqBaseLo
def aenqBase (s : EnaState) : UInt64 := s.regPair regAenqBaseHi regAenqBaseLo
def mmioResp (s : EnaState) : UInt64 := s.regPair regMmioRespHi regMmioRespLo

def setSq (s : EnaState) (i : SqIdx) (q : EnaSq) : EnaState :=
  { s with sq := Function.update s.sq i q }

def setCq (s : EnaState) (c : CqIdx) (q : EnaCq) : EnaState :=
  { s with cq := Function.update s.cq c q }

lemma setSq_sq (s : EnaState) (i : SqIdx) (q : EnaSq) : (s.setSq i q).sq i = q :=
  Function.update_self ..

lemma setSq_sq_of_ne (s : EnaState) {i j : SqIdx} (h : j ≠ i) (q : EnaSq) :
    (s.setSq i q).sq j = s.sq j :=
  Function.update_of_ne h ..

lemma setCq_cq_of_ne (s : EnaState) {c c' : CqIdx} (h : c' ≠ c) (q : EnaCq) :
    (s.setCq c q).cq c' = s.cq c' :=
  Function.update_of_ne h ..

def setIrq (s : EnaState) (v : Vec) (q : EnaIrq) : EnaState :=
  { s with irq := Function.update s.irq v q }

end EnaState
end EnaDevice
