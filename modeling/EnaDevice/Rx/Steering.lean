import EnaDevice.Lib.Slots
import EnaDevice.Rx.Accounting

/-! Receive-side scaling as a driver sees it. The driver hashes a flow with its own key and looks
the queue up in its own table; the device arrives at the same hash and the same queue, although the
key goes through two byte reversals on its way. -/
namespace EnaDevice
open Bytes Result Relation

/-- A byte string as a big-endian number. -/
def beNat (b : Bytes) : ℕ := b.foldl (fun n x => 256*n + x.toNat) 0

/-- The 32 bits of a key from bit `n` on. -/
def keyWindow (key : Bytes) (n : ℕ) : UInt32 := UInt32.ofNat (beNat key >>> (8*key.length - 32 - n))

/-- The Toeplitz hash: the windows of the key at the bits that are set in the data. -/
def toeplitz (key data : Bytes) : UInt32 :=
  (List.range (8*data.length)).foldl
    (fun h n => if (u8At data (n/8)).toNat.testBit (7 - n % 8) then h ^^^ keyWindow key n else h) 0

/-- The flow that a frame belongs to, in network byte order. -/
structure Flow where
  src : Bytes
  dst : Bytes
  sport : Bytes
  dport : Bytes

def Flow.addrs (f : Flow) : Bytes := f.src ++ f.dst
def Flow.ports (f : Flow) : Bytes := f.sport ++ f.dport

/-- The types that `net_rx_pkt_calc_rss_hash` hashes ports for. -/
def NetRxPktRssType.hasPorts : NetRxPktRssType → Bool
  | .ipV4 | .ipV6 => false
  | _ => true

/-- The types that a frame can be hashed as. -/
def NetRxPktRssType.Fits (p : RxProtocols) : NetRxPktRssType → Prop
  | .ipV4 => p.hasip4 = true
  | .ipV4Tcp => p.hasip4 = true ∧ p.l4 = .tcp
  | .ipV4Udp => p.hasip4 = true ∧ p.l4 = .udp
  | .ipV6 => p.hasip6 = true
  | .ipV6Tcp => p.hasip6 = true ∧ p.l4 = .tcp
  | .ipV6Udp => p.hasip6 = true ∧ p.l4 = .udp

/-- `net_rx_pkt_calc_rss_hash` is the Toeplitz hash of the flow's addresses and of the ports if the
type has them. -/
def Net.Toeplitz (net : Net) (flow : Bytes → Flow) : Prop :=
  ∀ frame type key, key.length = 40 → type.Fits (net.netRxPktGetProtocols frame) →
    net.netRxPktCalcRssHash frame type key =
      toeplitz key ((flow frame).addrs ++ if type.hasPorts then (flow frame).ports else [])

/-- `rx_set_rss_key_init`: the key is reversed as a whole and then read as little-endian words. -/
def rssReordered (key : Bytes) (i : Fin 10) : UInt32 := le32At key.reverse (4*i)

section Key

lemma ofLe32_le32At (b : Bytes) (n : ℕ) :
    ofLe32 (le32At b n) = [u8At b n,u8At b (n+1),u8At b (n+2),u8At b (n+3)] := by
  have h0 := (u8At b n).toNat_lt
  have h1 := (u8At b (n+1)).toNat_lt
  have h2 := (u8At b (n+2)).toNat_lt
  have h3 := (u8At b (n+3)).toNat_lt
  have hword : (le32At b n).toNat = (u8At b n).toNat + 256*(u8At b (n+1)).toNat +
      65536*((u8At b (n+2)).toNat + 256*(u8At b (n+3)).toNat) := by
    have hlast : u8At b (n+2+1) = u8At b (n+3) := rfl
    rw [le32At,le16At,le16At,UInt32.toNat_ofNat',UInt16.toNat_ofNat',UInt16.toNat_ofNat',hlast]
    omega
  have hbyte : ∀ {x : UInt8} {m : ℕ}, m % 256 = x.toNat → UInt8.ofNat m = x := by
    intro x m h
    apply UInt8.toNat_inj.mp
    rw [UInt8.toNat_ofNat']
    exact h
  simp only [ofLe32,ofLe16,hword,List.cons_append,List.nil_append,UInt16.toNat_ofNat']
  congr 1
  · exact hbyte (by omega)
  congr 1
  · exact hbyte (by omega)
  congr 1
  · exact hbyte (by omega)
  congr 1
  exact hbyte (by omega)

lemma u8At_reverse {b : Bytes} {n : ℕ} (h : n < b.length) :
    u8At b.reverse n = u8At b (b.length - 1 - n) := by
  rw [u8At,u8At,List.getD_eq_getElem?_getD,List.getD_eq_getElem?_getD,List.getElem?_reverse h]

lemma ext_u8At {a b : Bytes} (hlen : a.length = b.length)
    (h : ∀ n < a.length, u8At a n = u8At b n) : a = b := by
  refine List.ext_getElem hlen fun n ha hb => ?_
  have hn := h n ha
  rwa [u8At,u8At,List.getD_eq_getElem _ _ ha,List.getD_eq_getElem _ _ hb] at hn

/-- The two reversals undo one another: the key stream is the key that the driver started from. -/
lemma enaRssKey_reordered {s : EnaState} {key : Bytes} (hlen : key.length = 40)
    (hkey : s.rss.key = rssReordered key) : enaRssKey s = key := by
  have hword : ∀ i : Fin 10, (ofLe32 (s.rss.key (Fin.rev i))).reverse =
      [u8At key (4*i),u8At key (4*i+1),u8At key (4*i+2),u8At key (4*i+3)] := by
    intro i
    have hi := i.isLt
    have hrev : (Fin.rev i : ℕ) = 9 - i := by
      rw [Fin.val_rev]
      omega
    rw [hkey,rssReordered,ofLe32_le32At,hrev]
    simp only [List.reverse_cons,List.reverse_nil,List.nil_append,List.cons_append]
    rw [u8At_reverse (by omega),u8At_reverse (by omega),u8At_reverse (by omega),
      u8At_reverse (by omega),hlen]
    congr 1
    · exact congrArg _ (by omega)
    congr 1
    · exact congrArg _ (by omega)
    congr 1
    · exact congrArg _ (by omega)
    congr 2
    omega
  have hsize : ∀ i : Fin 10, ((ofLe32 (s.rss.key (Fin.rev i))).reverse).length = 4 := by simp
  have hstream : (enaRssKey s).length = 40 := flatten_ofFn_length _ hsize
  refine ext_u8At (hstream.trans hlen.symm) fun n hn => ?_
  rw [hstream] at hn
  have htable := u8At_table (fun i : Fin 10 => (ofLe32 (s.rss.key (Fin.rev i))).reverse) hsize
    ⟨n/4,by omega⟩ (n % 4) (Nat.mod_lt _ (by decide)) []
  rw [List.append_nil,hword] at htable
  dsimp only at htable
  rw [Nat.div_add_mod] at htable
  refine htable.trans ?_
  have hcases : n % 4 = 0 ∨ n % 4 = 1 ∨ n % 4 = 2 ∨ n % 4 = 3 := by omega
  have hdiv := Nat.div_add_mod n 4
  rcases hcases with h | h | h | h <;> rw [h] at hdiv ⊢ <;> conv_rhs => rw [← hdiv]
  all_goals rfl

end Key

section Hash
variable (net : Net) (s : EnaState) (frame : Bytes)

/-- A frame that the parser takes for an IPv4 fragment. -/
def Net.isFragment : Bool := (net.netRxPktGetProtocols frame).hasip4 &&
    net.netRxPktIp4Fragment frame

/-- The protocol whose fields are selected for a frame. -/
def Net.rssProto : Fin 16 :=
  enaRssProto (net.netRxPktGetProtocols frame).hasip4 (net.isFragment frame)
    (net.netRxPktGetProtocols frame).l4

/-- The frame is IP and some field of its protocol is selected. -/
def Hashed : Prop :=
  ((net.netRxPktGetProtocols frame).hasip4 = true ∨
    (net.netRxPktGetProtocols frame).hasip6 = true) ∧
    s.rss.fields (net.rssProto frame) ≠ 0

/-- Ports are hashed for TCP and UDP, but not for IPv4 fragments, and if they are selected. -/
def HashesPorts : Prop :=
  ((net.netRxPktGetProtocols frame).l4 = .tcp ∨ (net.netRxPktGetProtocols frame).l4 = .udp) ∧
    net.isFragment frame = false ∧
    s.rss.fields (net.rssProto frame) &&& enaRssL4Ports = enaRssL4Ports

instance : Decidable (Hashed net s frame) := inferInstanceAs (Decidable (_ ∧ _))

instance : Decidable (HashesPorts net s frame) := inferInstanceAs (Decidable (_ ∧ _))

variable {net s frame}

lemma RssFieldsOk.ports_iff {p : Fin 16} {f : UInt16} (h : RssFieldsOk p f) :
    f &&& enaRssL4Ports ≠ 0 ↔ f &&& enaRssL4Ports = enaRssL4Ports := by
  rcases h.2 with rfl | rfl | rfl <;> decide

/-- No selection lets ports into the fragments. -/
lemma RssFieldsOk.no_ports {f : UInt16} (h : RssFieldsOk rssIp4Frag f) :
    f &&& enaRssL4Ports = 0 := by
  rcases h with ⟨hsup,rfl | rfl | rfl⟩
  · decide
  · decide
  · exact absurd hsup (by decide)

/-- The type that `ena_rss_hash` asks for. -/
def rssType (hasip4 : Bool) (l4 : EthL4HdrProto) : NetRxPktRssType :=
  if hasip4 then match l4 with
    | .tcp => .ipV4Tcp
    | .udp => .ipV4Udp
    | _ => .ipV4
  else match l4 with
    | .tcp => .ipV6Tcp
    | .udp => .ipV6Udp
    | _ => .ipV6

lemma rssType_hasPorts (hasip4 : Bool) (l4 : EthL4HdrProto) :
    (rssType hasip4 l4).hasPorts = true ↔ l4 = .tcp ∨ l4 = .udp := by
  cases hasip4 <;> cases l4 <;> decide

lemma rssType_fits {p : RxProtocols} {l4 : EthL4HdrProto} (hip : p.hasip4 = true ∨ p.hasip6 = true)
    (hl4 : l4 = .invalid ∨ l4 = p.l4) : (rssType p.hasip4 l4).Fits p := by
  obtain ⟨ip4,ip6,l5⟩ := p
  change l4 = .invalid ∨ l4 = l5 at hl4
  cases ip4 with
  | true =>
    rcases hl4 with rfl | rfl
    · rfl
    · cases l4 <;> first | rfl | exact ⟨rfl,rfl⟩
  | false =>
    obtain rfl : ip6 = true := hip.resolve_left (by simp)
    rcases hl4 with rfl | rfl
    · rfl
    · cases l4 <;> first | rfl | exact ⟨rfl,rfl⟩

/-- Without selected ports, the L4 protocol is left out. -/
def rssL4 (net : Net) (s : EnaState) (frame : Bytes) : EthL4HdrProto :=
  if s.rss.fields (net.rssProto frame) &&& enaRssL4Ports = 0 then .invalid
  else (net.netRxPktGetProtocols frame).l4

/-- `ena_rss_hash`, in the words above. -/
lemma enaRssHash_eq (net : Net) (s : EnaState) (frame : Bytes) : enaRssHash net s frame =
    if (net.netRxPktGetProtocols frame).hasip4 = false ∧
      (net.netRxPktGetProtocols frame).hasip6 = false then 0
    else if s.rss.fields (net.rssProto frame) = 0 then 0
    else s.rss.initVal ^^^ net.netRxPktCalcRssHash frame
      (rssType (net.netRxPktGetProtocols frame).hasip4 (rssL4 net s frame)) (enaRssKey s) := by
  unfold enaRssHash
  simp only [Bool.not_eq_eq_eq_not,Bool.not_true]
  rfl

/-- A frame that is not hashed. -/
lemma enaRssHash_zero (h : ¬ Hashed net s frame) : enaRssHash net s frame = 0 := by
  rw [enaRssHash_eq]
  split_ifs with hip hf
  · rfl
  · rfl
  · refine absurd ⟨?_,hf⟩ h
    by_contra hno
    rw [not_or,Bool.not_eq_true,Bool.not_eq_true] at hno
    exact hip hno

lemma Hashed.hash_eq (h : Hashed net s frame) : enaRssHash net s frame =
    s.rss.initVal ^^^ net.netRxPktCalcRssHash frame
      (rssType (net.netRxPktGetProtocols frame).hasip4 (rssL4 net s frame)) (enaRssKey s) := by
  have hip : ¬ ((net.netRxPktGetProtocols frame).hasip4 = false ∧
      (net.netRxPktGetProtocols frame).hasip6 = false) := by
    rintro ⟨h4,h6⟩
    rcases h.1 with h' | h'
    · rw [h4] at h'
      cases h'
    · rw [h6] at h'
      cases h'
  rw [enaRssHash_eq,if_neg hip,if_neg h.2]

lemma rssProto_fragment (h : net.isFragment frame = true) : net.rssProto frame = rssIp4Frag := by
  have h4 : (net.netRxPktGetProtocols frame).hasip4 = true := (Bool.and_eq_true_iff.mp h).1
  unfold Net.rssProto enaRssProto
  rw [if_pos h4,if_pos h]

/-- Ports are hashed if the L4 protocol that is left has them. -/
lemma rssL4_ports (hf : ∀ p, RssFieldsOk p (s.rss.fields p)) :
    (rssL4 net s frame = .tcp ∨ rssL4 net s frame = .udp) ↔ HashesPorts net s frame := by
  have hports := (hf (net.rssProto frame)).ports_iff
  unfold rssL4 HashesPorts
  split_ifs with hnone
  · have hno : s.rss.fields (net.rssProto frame) &&& enaRssL4Ports ≠ enaRssL4Ports :=
      fun he => hports.mpr he hnone
    simp [hno]
  · have hfrag : net.isFragment frame = false := by
      by_contra hfrag
      rw [Bool.not_eq_false] at hfrag
      have hfields := hf (net.rssProto frame)
      rw [rssProto_fragment hfrag] at hfields hnone
      exact hnone hfields.no_ports
    simp only [hfrag,hports.mp hnone,and_true]

/-- The hash of a frame with a library that computes Toeplitz hashes. -/
lemma Hashed.toeplitz {flow : Bytes → Flow} (h : Hashed net s frame) (hnet : net.Toeplitz flow)
    (hf : ∀ p, RssFieldsOk p (s.rss.fields p)) (hkey : (enaRssKey s).length = 40) :
    enaRssHash net s frame = s.rss.initVal ^^^ toeplitz (enaRssKey s) ((flow frame).addrs ++
      if HashesPorts net s frame then (flow frame).ports else []) := by
  have hl4 : rssL4 net s frame = .invalid ∨
      rssL4 net s frame = (net.netRxPktGetProtocols frame).l4 := by
    unfold rssL4
    split_ifs
    · exact .inl rfl
    · exact .inr rfl
  rw [h.hash_eq,hnet _ _ _ hkey (rssType_fits h.1 hl4)]
  simp only [rssType_hasPorts,rssL4_ports hf]

/-- Two fragments with the same addresses have one hash. -/
lemma enaRssHash_fragments {frame' : Bytes} (hf : ∀ p, RssFieldsOk p (s.rss.fields p))
    (h : net.isFragment frame = true) (h' : net.isFragment frame' = true)
    (hsame : ∀ key, net.netRxPktCalcRssHash frame .ipV4 key =
      net.netRxPktCalcRssHash frame' .ipV4 key) :
    enaRssHash net s frame = enaRssHash net s frame' := by
  have htype : ∀ {frame : Bytes}, net.isFragment frame = true →
      rssType (net.netRxPktGetProtocols frame).hasip4 (rssL4 net s frame) = .ipV4 := by
    intro frame h
    have h4 : (net.netRxPktGetProtocols frame).hasip4 = true := (Bool.and_eq_true_iff.mp h).1
    have hnone := (hf rssIp4Frag).no_ports
    rw [rssL4,rssProto_fragment h,if_pos hnone,h4]
    rfl
  have hip : ∀ {frame : Bytes}, net.isFragment frame = true →
      ¬ ((net.netRxPktGetProtocols frame).hasip4 = false ∧
      (net.netRxPktGetProtocols frame).hasip6 = false) := by
    intro frame h hno
    have h4 : (net.netRxPktGetProtocols frame).hasip4 = true := (Bool.and_eq_true_iff.mp h).1
    rw [h4] at hno
    cases hno.1
  rw [enaRssHash_eq,enaRssHash_eq,if_neg (hip h),if_neg (hip h'),rssProto_fragment h,
    rssProto_fragment h',htype h,htype h',hsame]

end Hash

/-- The RX queue of a hash: the one in the table, or else the first there is. -/
structure Steers (s : EnaState) (hash : UInt32) (i : SqIdx) : Prop where
  usedRx : (s.sq i).used = true ∧ (s.sq i).isTx = false
  table : ∀ (k : Fin 128) (j : SqIdx), k.val = hash.toNat % 128 → (s.rss.indTbl k).toNat = j.val →
    (s.sq j).used = true ∧ (s.sq j).isTx = false → i = j
  lowest : ∀ k : Fin 128, k.val = hash.toNat % 128 →
    (∀ j : SqIdx, (s.rss.indTbl k).toNat = j.val →
    ¬ ((s.sq j).used = true ∧ (s.sq j).isTx = false)) →
    ∀ j, (s.sq j).used = true ∧ (s.sq j).isTx = false → i ≤ j

section Queue
variable {s : EnaState} {hash : UInt32} {i : SqIdx}

lemma rssSlot_eq {k : Fin 128} (hk : k.val = hash.toNat % 128) : rssSlot hash = k := by
  apply Fin.ext
  rw [hk]
  change (hash &&& 127).toNat = _
  rw [UInt32.toNat_and]
  exact Nat.and_two_pow_sub_one_eq_mod hash.toNat 7

lemma enaRxSq_steers (h : enaRxSq s hash = some i) : Steers s hash i := by
  refine ⟨enaRxSq_used h,?_,?_⟩
  · intro k j hk hj hu
    obtain rfl := rssSlot_eq hk
    have hfin : (⟨(s.rss.indTbl (rssSlot hash)).toNat,hj ▸ j.isLt⟩ : SqIdx) = j := Fin.ext hj
    have hidx : ∃ h : (s.rss.indTbl (rssSlot hash)).toNat < 16,
        (s.sq ⟨(s.rss.indTbl (rssSlot hash)).toNat,h⟩).usedRx = true := by
      refine ⟨hj ▸ j.isLt,?_⟩
      rw [hfin]
      exact (usedRx_iff _).mpr hu
    rw [enaRxSq,dif_pos hidx] at h
    exact (Option.some.inj h).symm.trans hfin
  · intro k hk hno j hu
    obtain rfl := rssSlot_eq hk
    rw [enaRxSq,dif_neg ?_] at h
    · exact Slots.find_finRange_le h ((usedRx_iff _).mpr hu)
    · rintro ⟨hlt,hidx⟩
      exact hno ⟨_,hlt⟩ rfl ((usedRx_iff _).mp hidx)

/-- No queue is chosen only if there is no RX queue. -/
lemma enaRxSq_eq_none : enaRxSq s hash = none ↔
    ∀ j, ¬ ((s.sq j).used = true ∧ (s.sq j).isTx = false) := by
  constructor
  · intro h j hu
    unfold enaRxSq at h
    dsimp only at h
    split_ifs at h
    exact absurd ((usedRx_iff _).mpr hu) (List.find?_eq_none.mp h j (List.mem_finRange j))
  · intro h
    cases hi : enaRxSq s hash with
    | none => rfl
    | some i => exact absurd (enaRxSq_used hi) (h i)

end Queue

section Agree
variable {net : Net} {w w₁ w₂ : World} {flow : Bytes → Flow}

lemma RxDelivered.hashes {w' : World} {frame : Bytes} {i : SqIdx} {c : CqIdx} {ds : List EnaRxDesc}
    (h : RxDelivered net w w' frame i c ds) :
    newCompletions w w' ≠ [] ∧ ∀ entry ∈ newCompletions w w',
      le32At entry 8 = enaRssHash net w.dev frame := by
  obtain ⟨hlen,hentry⟩ := h.entries
  refine ⟨?_,fun entry hmem => ?_⟩
  · intro hnil
    rw [hnil,List.length_nil] at hlen
    have hnone := List.length_eq_zero_iff.mp hlen.symm
    have henough := h.enough
    rw [hnone] at henough
    have hmin := h.steered.accepts.min
    exact absurd (le_trans hmin henough) (by decide)
  · obtain ⟨j,hj⟩ := List.getElem?_of_mem hmem
    obtain ⟨p,-,hc⟩ := hentry j entry hj
    exact hc.hash

/-- A driver that programs its key in its own order finds every frame in the queue that it computes
itself, with the hash that it computes itself. -/
theorem rss_agrees_with_driver (hnet : net.Toeplitz flow) (h : Underway net w) {key : Bytes}
    {initVal : UInt32} (hkey : key.length = 40)
    (hset : Sets w (.rssHashFunction (bit 1) initVal 10 (rssReordered key)) w₁)
    (hrun : ReflTransGen (FeatureStep net .rssHashFunction) w₁ w₂) :
    enaRssKey w₂.dev = key ∧ ∀ frame,
      (¬ Hashed net w₂.dev frame → enaRssHash net w₂.dev frame = 0) ∧
      (Hashed net w₂.dev frame → enaRssHash net w₂.dev frame = initVal ^^^ toeplitz key
        ((flow frame).addrs ++ if HashesPorts net w₂.dev frame then (flow frame).ports else [])) ∧
      (enaRxSq w₂.dev (enaRssHash net w₂.dev frame) = none →
        ∀ j, ¬ ((w₂.dev.sq j).used = true ∧ (w₂.dev.sq j).isTx = false)) ∧
      ∀ w₃ i c ds, step net w₂ (.receive frame) = .ok w₃ → RxDelivered net w₂ w₃ frame i c ds →
        (newCompletions w₂ w₃ ≠ [] ∧
          ∀ entry ∈ newCompletions w₂ w₃, le32At entry 8 = enaRssHash net w₂.dev frame) ∧
        Steers w₂.dev (enaRssHash net w₂.dev frame) i := by
  have hcells := hset.cells
  obtain ⟨cmd,resp,-,-,hexec⟩ := hset
  have hpath : Path w .qdevReset w w₁ := ((enaAdminExec_spec w cmd).of_ok hexec).path trivial
  have htables : TableInv w₁.dev ∧ TxIdle none w₁.dev :=
    ⟨hpath.tableInv h.tables.1,hpath.txIdle h.tables.2⟩
  have hkeep := featureRun_keeps hrun htables
  have hfields := (featureRun_tables hrun htables).1.fields
  rw [hcells] at hkeep
  have hvalue : FeatureValue.rssHashFunction (bit 1) w₂.dev.rss.initVal w₂.dev.rss.keyParts
    w₂.dev.rss.key =
      .rssHashFunction (bit 1) initVal 10 (rssReordered key) := Option.some.inj hkeep
  injection hvalue with _ hinit _ hwords
  have hstream := enaRssKey_reordered hkey hwords
  refine ⟨hstream,fun frame => ⟨enaRssHash_zero,fun hh => ?_,enaRxSq_eq_none.mp,
    fun w₃ i c ds _ hd => ?_⟩⟩
  · rw [hh.toeplitz hnet hfields (hstream ▸ hkey),hstream,hinit]
  · exact ⟨hd.hashes,enaRxSq_steers hd.steered.sq⟩

/-- A library that knows IPv4 behind a plain Ethernet header, with TCP, UDP and fragments. -/
def Net.ip4 : Net :=
  { Net.nonIp with
    netRxPktGetProtocols := fun b =>
      if u8At b 12 = 8 ∧ u8At b 13 = 0 then
        ⟨true,false,if u8At b 20 &&& 0x3f ≠ 0 ∨ u8At b 21 ≠ 0 then .invalid
          else if u8At b 23 = 6 then .tcp else if u8At b 23 = 17 then .udp else .other⟩
      else ⟨false,false,.invalid⟩
    netRxPktIp4Fragment := fun b => u8At b 20 &&& 0x3f != 0 || u8At b 21 != 0
    netRxPktCalcRssHash := fun b type key =>
      toeplitz key ((b.drop 26).take 8 ++ if type.hasPorts then (b.drop 34).take 4 else []) }

/-- The flow of a frame with an IPv4 header of 20 bytes. -/
def ip4Flow (frame : Bytes) : Flow where
  src := (frame.drop 26).take 4
  dst := (frame.drop 30).take 4
  sport := (frame.drop 34).take 2
  dport := (frame.drop 36).take 2

lemma ip4_toeplitz : Net.ip4.Toeplitz ip4Flow := by
  intro frame type key _ _
  have haddrs : (ip4Flow frame).addrs = (frame.drop 26).take 8 := by
    rw [show 8 = 4 + 4 from rfl,List.take_add,List.drop_drop]
    rfl
  have hports : (ip4Flow frame).ports = (frame.drop 34).take 4 := by
    rw [show 4 = 2 + 2 from rfl,List.take_add,List.drop_drop]
    rfl
  rw [haddrs,hports]
  rfl

/-- A well-known key for receive-side scaling. -/
def demoKey : Bytes :=
  [0x6d,0x5a,0x56,0xda,0x25,0x5b,0x0e,0xc2,0x41,0x67,0x25,0x3d,0x43,0xa3,0x8f,0xb0,0xd0,0xca,0x2b,
    0xcb,0xae,0x7b,0x30,0xb4,0x77,0xcb,0x2d,0xa3,0x80,0x30,0xf2,0x0c,0x6a,0x42,0xb7,0x3b,0xbe,0xac,
      0x01,0xfa]

/-- A broadcast frame with an IPv4 header, from 66.9.149.187 to 161.142.100.80, with the flags and
offset, the protocol and the payload given. -/
def flowFrame (flagsOff proto : UInt8) (payload : Bytes) : Bytes :=
  List.replicate 6 0xff ++ List.replicate 6 2 ++ [8,0,0x45,0,0,0,0,0,flagsOff,0,64,proto,0,0] ++
    [66,9,149,187,161,142,100,80] ++ payload

/-- `SET_FEATURE` of the hash function, with the control buffer at 0x8000. -/
def setKeyCmd (initVal : UInt32) : Bytes :=
  pad 64 ([0,0,9,4] ++ ofLe32 48 ++ ofLe32 0x8000 ++ zeros 4 ++ [0,10,0,0] ++ zeros 4 ++ ofLe32 2 ++
    ofLe32 initVal)

/-- The memory of a driver with its key in the control buffer and a descriptor in its RX ring. -/
def keyMemory (key : Bytes) : Memory :=
  .ofSegments [(0x8000,ofLe32 10 ++ zeros 4 ++ key.reverse),(0x4000,rxDescOf 0x1c 64 0 0x7000)]

/-- What the command asks for. -/
lemma setKey_value : FeatureValue.ofSet (keyMemory demoKey) (setKeyCmd 1) =
    some (.rssHashFunction (bit 1) 1 10 (rssReordered demoKey)) := by
  have hwords : ∀ i : Fin 10, le32At
    ((keyMemory demoKey).read (enaMemAddr (setKeyCmd 1) 8) rssKeySize).2 (8 + 4*i) =
      rssReordered demoKey i := by decide +kernel
  have hid : Feature.ofId (u8At (setKeyCmd 1) 17) = some .rssHashFunction := by decide
  unfold FeatureValue.ofSet
  rw [hid]
  dsimp only
  rw [funext hwords]
  decide +kernel

/-- A command that succeeds, with a test of the world behind it. -/
def execSucceeds (cmd : Bytes) (after : World → Bool) (w : World) : Bool :=
  okAnd (fun r : AdminStatus × Bytes × World => decide (r.1 = .success) && after r.2.2)
    (enaAdminExec w cmd)

lemma exists_of_execSucceeds {cmd : Bytes} {after : World → Bool}
    (h : execSucceeds cmd after w = true) :
    ∃ resp w', enaAdminExec w cmd = .ok (.success,resp,w') ∧ after w' = true := by
  obtain ⟨⟨status,resp,w'⟩,hexec,htest⟩ := exists_of_okAnd h
  rw [Bool.and_eq_true,decide_eq_true_iff] at htest
  obtain ⟨rfl,hafter⟩ := htest
  exact ⟨resp,w',hexec,hafter⟩

/-- A UDP datagram from port 2794 to port 1766. -/
def demoFrame : Bytes := flowFrame 0 17 [0x0a,0xea,0x06,0xe6,0,8,0,0]

/-- The driver programs its key, makes an RX queue and posts a buffer; the datagram arrives with the
hash that is known for its flow and key, and the initial value. -/
theorem rss_agrees_demoFrame :
    ∃ w w₁ w₂ w₃, Reachable Net.ip4 w ∧
      Sets w (.rssHashFunction (bit 1) 1 10 (rssReordered demoKey)) w₁ ∧
      ReflTransGen (FeatureStep Net.ip4 .rssHashFunction) w₁ w₂ ∧
      step Net.ip4 w₂ (.receive demoFrame) = .ok w₃ ∧ enaRssKey w₂.dev = demoKey ∧
      newCompletions w₂ w₃ ≠ [] ∧
      ∀ entry ∈ newCompletions w₂ w₃, le32At entry 8 = 1 ^^^ 0x51ccc178 := by
  obtain ⟨w,hrun,htest⟩ := exists_of_okAnd (p := fun w : World =>
      execSucceeds (setKeyCmd 1) (execSucceeds createCqCmd
        (execSucceeds (createSqCmd sqIdentityRx) fun w =>
        okAnd (fun w' => decide (newExecs w w' = []) && decide (Hashed Net.ip4 w'.dev demoFrame) &&
          decide (HashesPorts Net.ip4 w'.dev demoFrame) && w'.dev.rxPkts == 0 &&
          okAnd (fun w'' => w''.dev.rxPkts == 1) (step Net.ip4 w' (.receive demoFrame)))
        (step Net.ip4 w (.regWrite regSqDbBase 1)))) w)
    (x := run Net.ip4 freshWorld [.guest (keyMemory demoKey) fun _ => 0]) (by decide +kernel)
  have hvalue : FeatureValue.ofSet w.mem (setKeyCmd 1) =
      some (.rssHashFunction (bit 1) 1 10 (rssReordered demoKey)) := by
    have hmem : w.mem = keyMemory demoKey := by
      cases hrun
      rfl
    rw [hmem]
    exact setKey_value
  obtain ⟨resp,w₁,hkey,htest⟩ := exists_of_execSucceeds htest
  obtain ⟨resp₁,w₁₁,hcq,htest⟩ := exists_of_execSucceeds htest
  obtain ⟨resp₂,w₁₂,hsq,htest⟩ := exists_of_execSucceeds htest
  obtain ⟨w₂,hdb,htest⟩ := exists_of_okAnd htest
  simp only [Bool.and_eq_true,decide_eq_true_iff,beq_iff_eq] at htest
  obtain ⟨⟨⟨⟨hnone,hhashed⟩,hports⟩,hbefore⟩,hnext⟩ := htest
  obtain ⟨w₃,hrecv,hafter⟩ := exists_of_okAnd hnext
  have hreach := reachable_of_run hrun
  have hset : Sets w (.rssHashFunction (bit 1) 1 10 (rssReordered demoKey)) w₁ :=
    ⟨_,_,⟨by decide,by decide⟩,hvalue,hkey⟩
  have hcreateCq : ∀ cmd, some (createCqCmd,AdminStatus.success) = some (cmd,.success) →
      ¬ IsSet .rssHashFunction cmd := by
    rintro _ ⟨⟩ h
    exact absurd h.1 (by decide)
  have hcreateSq : ∀ cmd, some (createSqCmd sqIdentityRx,AdminStatus.success) =
    some (cmd,.success) →
      ¬ IsSet .rssHashFunction cmd := by
    rintro _ ⟨⟩ h
    exact absurd h.1 (by decide)
  have hquiet : ∀ cmd, (cmd,AdminStatus.success.code) ∈ newExecs w₁₂ w₂ →
      ¬ IsSet .rssHashFunction cmd := by
    intro cmd hmem
    rw [hnone] at hmem
    exact absurd hmem List.not_mem_nil
  have hfeature : ReflTransGen (FeatureStep Net.ip4 .rssHashFunction) w₁ w₂ :=
    ((ReflTransGen.single (.part (.exec hcq) hcreateCq)).tail (.part (.exec hsq) hcreateSq)).tail
      (.step hdb (fun h => absurd h.1 (by decide)) hquiet)
  obtain ⟨hstream,hall⟩ := rss_agrees_with_driver ip4_toeplitz (.reached hreach)
    (by decide) hset hfeature
  obtain ⟨-,hhash,-,hdelivered⟩ := hall demoFrame
  have hpath : Path w .qdevReset w w₁ := ((enaAdminExec_spec w _).of_ok hkey).path trivial
  have htables := featureRun_tables hfeature ⟨hpath.tableInv hreach.tables.1,
    hpath.txIdle hreach.tables.2⟩
  rcases ((enaRxReceiveIov_outcome Net.ip4 demoFrame htables.1).of_ok hrecv).delivered_or_not
    htables.1 with
    ⟨i,c,ds,hd⟩ | hun
  · obtain ⟨⟨hne,hentries⟩,-⟩ := hdelivered w₃ i c ds hrecv hd
    refine ⟨w,w₁,w₂,w₃,hreach,hset,hfeature,hrecv,hstream,hne,fun entry hmem => ?_⟩
    rw [hentries entry hmem,hhash hhashed,if_pos hports]
    decide +kernel
  · rw [beq_iff_eq,hun.rxPkts,hbefore] at hafter
    exact absurd hafter (by decide)

/-- The library hashes an IPv4 frame by its addresses and the key alone. -/
def Net.HashesAddrs (net : Net) (src dst : Bytes → Bytes) : Prop :=
  ∀ frame frame' key, (net.netRxPktGetProtocols frame).hasip4 = true →
    (net.netRxPktGetProtocols frame').hasip4 = true → src frame = src frame' →
    dst frame = dst frame' →
    net.netRxPktCalcRssHash frame .ipV4 key = net.netRxPktCalcRssHash frame' .ipV4 key

/-- Fragments of one datagram have one hash and one queue, whatever follows their IPv4 headers. -/
theorem fragments_stay_together {src dst : Bytes → Bytes} (hnet : net.HashesAddrs src dst)
    (h : Reachable net w) {frame frame' : Bytes} (hfrag : net.isFragment frame = true)
    (hfrag' : net.isFragment frame' = true) (hsrc : src frame = src frame')
    (hdst : dst frame = dst frame') :
    enaRssHash net w.dev frame = enaRssHash net w.dev frame' ∧
      enaRxSq w.dev (enaRssHash net w.dev frame) = enaRxSq w.dev (enaRssHash net w.dev frame') := by
  have h4 : (net.netRxPktGetProtocols frame).hasip4 = true := (Bool.and_eq_true_iff.mp hfrag).1
  have h4' : (net.netRxPktGetProtocols frame').hasip4 = true := (Bool.and_eq_true_iff.mp hfrag').1
  have hhash := enaRssHash_fragments h.tables.1.fields hfrag hfrag'
    fun key => hnet frame frame' key h4 h4' hsrc hdst
  exact ⟨hhash,by rw [hhash]⟩

/-- A first fragment with a UDP header, and a later one without. -/
theorem fragments_stay_together_udp :
    enaRssHash Net.ip4 freshWorld.dev (flowFrame 0x20 17 [0x0a,0xea,0x06,0xe6,0,16,0,0]) ≠ 0 ∧
      enaRssHash Net.ip4 freshWorld.dev (flowFrame 0x20 17 [0x0a,0xea,0x06,0xe6,0,16,0,0]) =
        enaRssHash Net.ip4 freshWorld.dev (flowFrame 1 17 [1,2,3,4,5,6,7,8]) := by
  have hnet : Net.ip4.HashesAddrs (fun b => (b.drop 26).take 8) fun b => (b.drop 26).take 8 := by
    intro frame frame' key _ _ hsrc _
    have haddrs : (frame.drop 26).take 8 = (frame'.drop 26).take 8 := hsrc
    change toeplitz key ((frame.drop 26).take 8 ++ []) =
      toeplitz key ((frame'.drop 26).take 8 ++ [])
    rw [haddrs]
  exact ⟨by decide +kernel,(fragments_stay_together hnet ⟨_,[],rfl⟩ (by decide) (by decide)
    (by decide)
    (by decide)).1⟩

end Agree

end EnaDevice
