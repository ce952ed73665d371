import Felix.Collections.Lpm
import Felix.Bpf.Conntrack.Map
import Felix.Bpf.IPSets

/-!
# NAT frontend and affinity keys

The first level of the BPF NAT tables is an LPM trie keyed by the packed
`struct calico_nat_v4_key` (`bpf-gpl/nat_types.h`): a prefix length, the service address in
network order, its port in host order, the protocol, a source address and a byte of padding.
An entry for a service that admits only some sources carries the source CIDR's address and the
prefix length `56 + l`, the bits of address, port and protocol followed by the CIDR's `l` bits;
`calico_v4_nat_lookup2` (`bpf-gpl/nat.h`) looks the packet up under the full prefix of address,
port, protocol and source. The Go side (`bpf/nat/maps.go`) builds those keys by hand
(`NewNATKeySrc`), reads them back (`Addr`, `Port`, `Proto`, `SrcPrefixLen`, `SrcCIDR`), and
builds the keys of the affinity table from them (`NewAffinityKey`).

`NewNATKeySrc` writes exactly the C struct of its fields (`newNATKeySrc_eq_natV4KeyImage`), its
readers return those fields, and under LPM matching its key matches the packets to the service
from the source CIDR and no others (`natKey_matches_lookup`). The affinity key is the packed
`struct calico_nat_v4_affinity_key` of the frontend's fields and the client.

## Main definitions

* `FrontendKey`, `newNATKeySrc`, `newNATKey` and the readers
* `AffinityKey`, `newAffinityKey`
* `natV4KeyImage`, `affinityKeyImage`: the C layouts
* `natLookupKey`: the key `calico_v4_nat_lookup2` looks up

## Main results

* `newNATKeySrc_eq_natV4KeyImage`, `frontendKey_readers_natV4KeyImage`
* `matches_natLookupKey_iff`: LPM matching against a frontend key
* `natKey_matches_lookup`
-/

namespace Felix.Bpf.NatMaps

open Bytes Lpm
open Conntrack (ipBytes length_ipBytes)

/-- `frontendKeySize`. -/
def frontendKeySize : ℕ := 16

/-- `frontendAffKeySize`: the size of `struct calico_nat_v4`. -/
def frontendAffKeySize : ℕ := 8

/-- `affinityKeySize`. -/
def affinityKeySize : ℕ := frontendAffKeySize + 8

/-- `ZeroCIDRPrefixLen`: the bits of the address, port and protocol. -/
def zeroCIDRPrefixLen : ℕ := 56

/-- `ZeroCIDR`, `0.0.0.0/0`. -/
def zeroCIDR : V4CIDR := ⟨0, 0⟩

/-- `ip.CIDRFromAddrAndPrefix` on an IPv4 address: the address masked to the prefix. Past 32 bits
`net.CIDRMask` gives no mask, masking gives no address, and the Go code panics reading the
version of the missing address (`none`). -/
def cidrFromAddrAndPrefix (addr : UInt32) (prefixLen : ℕ) : Option V4CIDR :=
  if prefixLen ≤ 32 then some ⟨addr &&& cidrMask prefixLen, prefixLen⟩ else none

/-! ## Frontend keys -/

/-- `FrontendKey`: the sixteen bytes of a `struct calico_nat_v4_key`. -/
@[ext]
structure FrontendKey where
  bytes : List UInt8
  length_bytes : bytes.length = frontendKeySize
  deriving DecidableEq

/-- `NewNATKeySrc`. The address is an IPv4 one, so the `Bad IP` panic cannot happen. -/
def newNATKeySrc (addr : UInt32) (port : UInt16) (protocol : UInt8) (cidr : V4CIDR) :
    FrontendKey :=
  let prefixlen := zeroCIDRPrefixLen
  let k := List.replicate frontendKeySize (0 : UInt8)
  let k := write k 0 (toLE 4 (UInt32.ofNat prefixlen + UInt32.ofNat cidr.prefixLen).toNat)
  let k := copy k 4 8 (ipBytes addr)
  let k := write k 8 (toLE 2 port.toNat)
  let k := write k 10 [protocol]
  let k := copy k 11 15 (ipBytes cidr.addr)
  ⟨k, by simp +zetaDelta [frontendKeySize]⟩

/-- `NewNATKey`: a frontend for every source. -/
def newNATKey (addr : UInt32) (port : UInt16) (protocol : UInt8) : FrontendKey :=
  newNATKeySrc addr port protocol zeroCIDR

namespace FrontendKey

/-- `Proto`. -/
def proto (k : FrontendKey) : UInt8 := k.bytes.getD 10 0

/-- `Addr`. -/
def addr (k : FrontendKey) : List UInt8 := slice k.bytes 4 8

/-- `srcAddr`. -/
def srcAddr (k : FrontendKey) : UInt32 := UInt32.ofNat (ofBE (slice k.bytes 11 15))

/-- `PrefixLen`. -/
def prefixLen (k : FrontendKey) : UInt32 := UInt32.ofNat (ofLE (slice k.bytes 0 4))

/-- `SrcPrefixLen`, in `uint32` arithmetic. -/
def srcPrefixLen (k : FrontendKey) : UInt32 := k.prefixLen - UInt32.ofNat zeroCIDRPrefixLen

/-- `SrcCIDR`. -/
def srcCIDR (k : FrontendKey) : Option V4CIDR := cidrFromAddrAndPrefix k.srcAddr k.srcPrefixLen.toNat

/-- `Port`. -/
def port (k : FrontendKey) : UInt16 := UInt16.ofNat (ofLE (slice k.bytes 8 10))

end FrontendKey

/-! ## Affinity keys -/

/-- `AffinityKey`: the sixteen bytes of a `struct calico_nat_v4_affinity_key`. -/
@[ext]
structure AffinityKey where
  bytes : List UInt8
  length_bytes : bytes.length = affinityKeySize
  deriving DecidableEq

/-- `NewAffinityKey`: the frontend's address, port and protocol, then the client. The client
address is an IPv4 one, so the `Bad IP` panic cannot happen. -/
def newAffinityKey (clientIP : UInt32) (fEndKey : FrontendKey) : AffinityKey :=
  let k := List.replicate affinityKeySize (0 : UInt8)
  let k := copy k 0 affinityKeySize (slice fEndKey.bytes 4 11)
  let k := copy k frontendAffKeySize (frontendAffKeySize + 4) (ipBytes clientIP)
  ⟨k, by simp +zetaDelta [affinityKeySize, frontendAffKeySize]⟩

/-! ## The C layout -/

/-- `NAT_PREFIX_LEN_WITH_SRC_MATCH`: the bytes of `struct calico_nat_v4_key` less its prefix
length and its padding. -/
def natPrefixLenWithSrcMatch : ℕ := frontendKeySize - 4 - 1

/-- `NAT_PREFIX_LEN_WITH_SRC_MATCH_IN_BITS`. -/
def natPrefixLenWithSrcMatchInBits : ℕ := natPrefixLenWithSrcMatch * 8

/-- `struct calico_nat_v4_key`, packed, on a little-endian host: `prefixlen`, `addr` in network
order, `port`, `protocol`, `saddr` in network order, `pad`. -/
def natV4KeyImage (prefixlen addr : UInt32) (port : UInt16) (protocol : UInt8) (saddr : UInt32) :
    List UInt8 :=
  toLE 4 prefixlen.toNat ++ ipBytes addr ++ toLE 2 port.toNat ++ [protocol] ++ ipBytes saddr ++ [0]
attribute [grind] natV4KeyImage

/-- The key `calico_v4_nat_lookup2` builds for a packet: the full prefix, the destination, its
port and protocol, and the source. -/
def natLookupKey (ipSrc ipDst : UInt32) (ipProto : UInt8) (dport : UInt16) : List UInt8 :=
  natV4KeyImage (UInt32.ofNat natPrefixLenWithSrcMatchInBits) ipDst dport ipProto ipSrc

/-- `struct calico_nat_v4_affinity_key`: `struct calico_nat_v4` (address, port, protocol and a
byte of padding to its alignment), `client_ip` and `padding`. -/
def affinityKeyImage (addr : UInt32) (port : UInt16) (protocol : UInt8) (clientIP : UInt32) :
    List UInt8 :=
  ipBytes addr ++ toLE 2 port.toNat ++ [protocol, 0] ++ ipBytes clientIP ++ List.replicate 4 0

theorem length_natV4KeyImage (prefixlen addr : UInt32) (port : UInt16) (protocol : UInt8)
    (saddr : UInt32) : (natV4KeyImage prefixlen addr port protocol saddr).length = frontendKeySize := by
  simp [natV4KeyImage, frontendKeySize]

/-- The key splits into its prefix length, the seven bytes of the service, and the source. -/
theorem natV4KeyImage_eq (prefixlen addr : UInt32) (port : UInt16) (protocol : UInt8)
    (saddr : UInt32) :
    natV4KeyImage prefixlen addr port protocol saddr =
      toLE 4 prefixlen.toNat ++ ((ipBytes addr ++ toLE 2 port.toNat ++ [protocol]) ++
        (ipBytes saddr ++ [0])) := by
  simp only [natV4KeyImage, List.append_assoc]

/-! ## Frontend keys against the C layout -/

/-- `NewNATKeySrc` writes the `struct calico_nat_v4_key` of its fields. -/
theorem newNATKeySrc_eq_natV4KeyImage (addr : UInt32) (port : UInt16) (protocol : UInt8)
    (cidr : V4CIDR) :
    (newNATKeySrc addr port protocol cidr).bytes =
      natV4KeyImage (UInt32.ofNat zeroCIDRPrefixLen + UInt32.ofNat cidr.prefixLen) addr port
        protocol cidr.addr := by
  simp (disch := simp) only [newNATKeySrc, natV4KeyImage, frontendKeySize, copy_of_length_le,
    write_replicate, write_append_of_le, write_cons, List.append_assoc, List.replicate_zero,
    List.nil_append, List.cons_append, length_toLE, length_ipBytes, List.length_cons,
    List.length_nil, Nat.reduceAdd, Nat.reduceSub, List.replicate_one]

/-- The readers return the fields of a `struct calico_nat_v4_key`. -/
theorem frontendKey_readers_natV4KeyImage (prefixlen addr : UInt32) (port : UInt16)
    (protocol : UInt8) (saddr : UInt32) :
    let k : FrontendKey := ⟨natV4KeyImage prefixlen addr port protocol saddr,
      length_natV4KeyImage ..⟩
    k.prefixLen = prefixlen ∧ k.addr = ipBytes addr ∧ k.port = port ∧ k.proto = protocol ∧
      k.srcAddr = saddr := by
  have hsrc : UInt32.ofNat (ofBE (ipBytes saddr)) = saddr := uInt32_ofBE_toBE saddr
  simp (disch := simp +decide only [List.length_append, length_toLE, length_ipBytes,
      List.length_cons, List.length_nil]) only [FrontendKey.prefixLen, FrontendKey.addr,
    FrontendKey.port, FrontendKey.proto, FrontendKey.srcAddr, natV4KeyImage, slice_append_of_le,
    slice_append_of_ge, slice_of_length, List.getD_append, List.getD_append_right,
    List.getD_cons_zero, length_toLE, length_ipBytes, List.length_append, List.length_cons,
    List.length_nil, Nat.reduceAdd, Nat.reduceSub, uInt32_ofLE_toLE, uInt16_ofLE_toLE, hsrc,
    and_self]

/-! ## CIDR containment as bits -/

/-- Bit `j` of `net.CIDRMask(l, 32)`: set on the top `l` bits. -/
theorem testBit_cidrMask {l : ℕ} (hl : l ≤ 32) (j : ℕ) :
    (cidrMask l).toNat.testBit j = decide (32 - l ≤ j ∧ j < 32) := by
  have hpos : 0 < 2 ^ (32 - l) := Nat.two_pow_pos _
  have hlt : 2 ^ 32 - 2 ^ (32 - l) < 2 ^ 32 := Nat.sub_lt (Nat.two_pow_pos _) hpos
  have hmul : 2 ^ 32 - 2 ^ (32 - l) = (2 ^ l - 1) * 2 ^ (32 - l) := by
    rw [Nat.sub_mul, ← Nat.pow_add, Nat.one_mul, Nat.add_sub_cancel' hl]
  rw [cidrMask, UInt32.toNat_ofNat', Nat.mod_eq_of_lt hlt, hmul, Nat.testBit_mul_two_pow,
    Nat.testBit_two_pow_sub_one]
  by_cases hj : 32 - l ≤ j
  · have hlt : j - (32 - l) < l ↔ j < 32 := by omega
    simp [hj, hlt]
  · simp [hj]

/-- `ContainsV4` compares the top `prefixLen` bits. -/
theorem containsV4_iff_testBit {c : V4CIDR} (hl : c.prefixLen ≤ 32) (a : UInt32) :
    c.containsV4 a = true ↔
      ∀ j, 32 - c.prefixLen ≤ j → j < 32 → c.addr.toNat.testBit j = a.toNat.testBit j := by
  have hzero : ∀ n : ℕ, n = 0 ↔ ∀ j, n.testBit j = false :=
    fun n => ⟨fun h j => h ▸ Nat.zero_testBit j, Nat.zero_of_testBit_eq_false⟩
  simp only [V4CIDR.containsV4, beq_iff_eq, ← UInt32.toNat_inj, UInt32.toNat_and,
    UInt32.toNat_xor, UInt32.toNat_zero, hzero, Nat.testBit_and, Nat.testBit_xor,
    testBit_cidrMask hl]
  constructor
  · intro h j hj₁ hj₂
    have := h j
    simp only [hj₁, hj₂, and_self, decide_true, Bool.and_true] at this
    simpa using this
  · intro h j
    by_cases hj : 32 - c.prefixLen ≤ j ∧ j < 32
    · simp [hj, h j hj.1 hj.2]
    · simp only [decide_eq_false hj, Bool.and_false]

/-! ## Matching the lookup key -/

/-- The seven bytes of address, port and protocol determine them. -/
theorem serviceBytes_inj {a a' : UInt32} {p p' : UInt16} {q q' : UInt8} :
    ipBytes a ++ toLE 2 p.toNat ++ [q] = ipBytes a' ++ toLE 2 p'.toNat ++ [q'] ↔
      a = a' ∧ p = p' ∧ q = q' := by
  constructor
  · intro h
    obtain ⟨h₁, hq⟩ := List.append_inj h (by simp)
    obtain ⟨ha, hp⟩ := List.append_inj h₁ (by simp)
    have ha' := congrArg (fun l => UInt32.ofNat (ofBE l)) ha
    have hp' := congrArg (fun l => UInt16.ofNat (ofLE l)) hp
    simp only [ipBytes, uInt32_ofBE_toBE, uInt16_ofLE_toLE] at ha' hp'
    exact ⟨ha', hp', List.singleton_inj.mp hq⟩
  · rintro ⟨rfl, rfl, rfl⟩
    rfl

/-- A frontend key with a source prefix of `l` bits matches the lookup key of a packet iff the
packet goes to its service and comes from a source agreeing with its source address on the top
`l` bits. -/
theorem matches_natLookupKey_iff {l : ℕ} (hl : l ≤ 32) (a saddr : UInt32) (p : UInt16) (q : UInt8)
    (ipSrc ipDst : UInt32) (ipProto : UInt8) (dport : UInt16) :
    Matches (natV4KeyImage (UInt32.ofNat (zeroCIDRPrefixLen + l)) a p q saddr)
        (natLookupKey ipSrc ipDst ipProto dport) ↔
      ipDst = a ∧ dport = p ∧ ipProto = q ∧
        ∀ j, 32 - l ≤ j → j < 32 → saddr.toNat.testBit j = ipSrc.toNat.testBit j := by
  -- the entry's prefix covers the seven bytes of the service, then `l` bits of the source
  have hP : (UInt32.ofNat (zeroCIDRPrefixLen + l)).toNat =
      8 * (ipBytes a ++ toLE 2 p.toNat ++ [q]).length + l := by
    simp only [UInt32.toNat_ofNat', zeroCIDRPrefixLen, List.length_append, length_ipBytes,
      length_toLE, List.length_singleton]
    omega
  have hbits : (UInt32.ofNat natPrefixLenWithSrcMatchInBits).toNat = 88 := rfl
  have hle : 8 * (ipBytes a ++ toLE 2 p.toNat ++ [q]).length + l ≤ 88 := by simp; omega
  have hsrc : PrefixAgree l (ipBytes saddr ++ [0]) (ipBytes ipSrc ++ [0]) ↔
      ∀ j, 32 - l ≤ j → j < 32 → saddr.toNat.testBit j = ipSrc.toNat.testBit j := by
    rw [prefixAgree_append_of_le (by simp; omega) (by simp), ipBytes, ipBytes,
      prefixAgree_toBE_iff (by omega)]
  rw [natLookupKey, natV4KeyImage_eq, natV4KeyImage_eq,
    matches_toLE_append_iff (UInt32.toNat_lt _) (UInt32.toNat_lt _), hP, hbits,
    prefixAgree_append_iff (by simp), serviceBytes_inj, hsrc]
  constructor
  · rintro ⟨-, ⟨rfl, rfl, rfl⟩, h⟩
    exact ⟨rfl, rfl, rfl, h⟩
  · rintro ⟨rfl, rfl, rfl, h⟩
    exact ⟨hle, ⟨rfl, rfl, rfl⟩, h⟩

/-! ## Affinity keys against the C layout -/

/-- `NewAffinityKey` of a frontend for every source writes the
`struct calico_nat_v4_affinity_key` of the frontend's fields and the client. -/
theorem newAffinityKey_newNATKey (addr : UInt32) (port : UInt16) (protocol : UInt8)
    (clientIP : UInt32) :
    (newAffinityKey clientIP (newNATKey addr port protocol)).bytes =
      affinityKeyImage addr port protocol clientIP := by
  have hslice : slice (newNATKey addr port protocol).bytes 4 11 =
      ipBytes addr ++ toLE 2 port.toNat ++ [protocol] := by
    rw [newNATKey, newNATKeySrc_eq_natV4KeyImage, natV4KeyImage_eq]
    simp (disch := simp +decide only [List.length_append, length_toLE, length_ipBytes,
        List.length_cons, List.length_nil]) only [slice_append_of_ge, slice_append_of_le,
      slice_of_length, length_toLE, Nat.reduceSub]
  simp (disch := simp) only [newAffinityKey, hslice, affinityKeyImage, affinityKeySize,
    frontendAffKeySize, copy_of_length_le, write_replicate, write_append_of_le, write_cons,
    List.append_assoc, List.replicate_zero, List.nil_append, List.cons_append, length_toLE, length_ipBytes, List.length_cons, List.length_nil, List.length_append,
    Nat.reduceAdd, Nat.reduceSub, List.replicate_one]

/-! ## The frontend key -/

/-- A frontend key for a service and a canonical source CIDR: the bytes of its C struct, readers
that return its fields, LPM matching of exactly the packets to the service from the CIDR, and the
affinity keys of the service. -/
theorem natKey_matches_lookup (a : UInt32) (p : UInt16) (q : UInt8) (c : V4CIDR)
    (hl : c.prefixLen ≤ 32) (hc : c.addr &&& cidrMask c.prefixLen = c.addr) :
    let k := newNATKeySrc a p q c
    k.bytes = natV4KeyImage (UInt32.ofNat (zeroCIDRPrefixLen + c.prefixLen)) a p q c.addr ∧
      k.addr = ipBytes a ∧ k.port = p ∧ k.proto = q ∧
      k.srcPrefixLen = UInt32.ofNat c.prefixLen ∧ k.srcCIDR = some c ∧
      (∀ ipSrc ipDst ipProto dport,
        Matches k.bytes (natLookupKey ipSrc ipDst ipProto dport) ↔
          ipDst = a ∧ dport = p ∧ ipProto = q ∧ c.containsV4 ipSrc = true) ∧
      ∀ clientIP,
        (newAffinityKey clientIP (newNATKey a p q)).bytes = affinityKeyImage a p q clientIP := by
  intro k
  have hk : k.bytes = natV4KeyImage (UInt32.ofNat (zeroCIDRPrefixLen + c.prefixLen)) a p q c.addr := by
    rw [newNATKeySrc_eq_natV4KeyImage, UInt32.ofNat_add]
  have hkey : k = ⟨natV4KeyImage (UInt32.ofNat (zeroCIDRPrefixLen + c.prefixLen)) a p q c.addr,
      length_natV4KeyImage ..⟩ := FrontendKey.ext hk
  obtain ⟨hP, haddr, hport, hproto, hsrc⟩ := frontendKey_readers_natV4KeyImage
    (UInt32.ofNat (zeroCIDRPrefixLen + c.prefixLen)) a p q c.addr
  have hsrcLen : k.srcPrefixLen = UInt32.ofNat c.prefixLen := by
    rw [FrontendKey.srcPrefixLen, hkey, hP, UInt32.ofNat_add, UInt32.add_comm, UInt32.add_sub_cancel]
  have hcidr : k.srcCIDR = some c := by
    have hl' : (UInt32.ofNat c.prefixLen).toNat = c.prefixLen := by
      rw [UInt32.toNat_ofNat']
      omega
    rw [FrontendKey.srcCIDR, hsrcLen, hl', cidrFromAddrAndPrefix, if_pos hl, hkey, hsrc, hc]
  refine ⟨hk, hkey ▸ haddr, hkey ▸ hport, hkey ▸ hproto, hsrcLen, hcidr, fun ipSrc ipDst ipProto dport => ?_,
    newAffinityKey_newNATKey a p q⟩
  rw [hk, matches_natLookupKey_iff hl, containsV4_iff_testBit hl]

theorem natKey_matches_lookup_cidr8 :
    (⟨0x0a000000, 8⟩ : V4CIDR).prefixLen ≤ 32 ∧
      (⟨0x0a000000, 8⟩ : V4CIDR).addr &&& cidrMask 8 = 0x0a000000 ∧
      (newNATKeySrc 0x0a600001 80 6 ⟨0x0a000000, 8⟩).srcCIDR = some ⟨0x0a000000, 8⟩ :=
  have hl : (⟨0x0a000000, 8⟩ : V4CIDR).prefixLen ≤ 32 := by decide
  have hc : (⟨0x0a000000, 8⟩ : V4CIDR).addr &&& cidrMask 8 = 0x0a000000 := by decide
  ⟨hl, hc, (natKey_matches_lookup 0x0a600001 80 6 ⟨0x0a000000, 8⟩ hl hc).2.2.2.2.2.1⟩

end Felix.Bpf.NatMaps
