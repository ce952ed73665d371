import Felix.Collections.OnesComplement

/-!
# Checksums across the NAT rewrites of `calico_tc`

When `calico_tc_skb_accepted` (`bpf-gpl/tc.c`) translates a TCP or UDP packet it writes the new
addresses and ports into the headers, then repairs the checksums with the kernel's incremental
helpers: `skb_nat_l4_csum_ipv4` (`bpf-gpl/nat.h`) calls `bpf_l4_csum_replace` once for the
changed address, which the TCP and UDP checksums cover through their pseudo-header, and once
for each changed port; `bpf_l3_csum_replace` repairs the IP header checksum. The helpers are
given the old values from the program's state, not from the header, so the checksums come out
right only if the state holds what the parser read from the packet and each helper is given the
pair of values that its field went between.

Both rewrites are modelled as the source does them, the DNAT one of an established or new flow
to a service (destination address and port, and the source port when the conntrack entry has a
`nat_sport`) and the SNAT one of its replies (source address and port, and the destination
port when there is a `nat_sport`), and so is the rewrite of an ICMP error's outer source. From
valid checksums they produce valid checksums, whatever the conntrack result
(`nat_rewrites_keep_checksums`).

Packets are kept as their 16-bit words in network order, in which the kernel's helpers compute
(the same bytes summed in host order give the same bytes back, RFC 1071 §2(B)). The checksums are
the ones the stack computes in software; the helpers' handling of checksums offloaded to the
device is not modelled.

## Main definitions

* `IPHeader`, `L4Segment`, `Packet` and their words; `IPHeader.CsumValid`, `Packet.L4CsumOk`
* `l3CsumReplace`, `l4CsumReplace`, `skbNatL4CsumIpv4`: the checksum helpers
* `State`, `State.Parsed`, `dnatRewrite`, `snatRewrite`, `icmpOuterSnat`: the rewrites

## Main results

* `skbNatL4CsumIpv4_mod`: the L4 helper moves the checksum by what the fields moved the sum
* `nat_rewrites_keep_checksums`
-/

namespace Felix.Bpf.Tc

open OnesComplement

/-- `IPPROTO_ICMP`. -/
def ipprotoICMP : UInt8 := 1

/-- `IPPROTO_TCP`. -/
def ipprotoTCP : UInt8 := 6

/-- `IPPROTO_UDP`. -/
def ipprotoUDP : UInt8 := 17

/-! ## Packets -/

/-- The two 16-bit words of an IPv4 address, in network order. -/
def addrWords (a : UInt32) : List ℕ := [a.toNat / 65536, a.toNat % 65536]

/-- `struct iphdr`, field by field in network order, with its options as words. -/
structure IPHeader where
  verIhlTos : UInt16
  totLen : UInt16
  id : UInt16
  fragOff : UInt16
  ttl : UInt8
  protocol : UInt8
  check : UInt16
  saddr : UInt32
  daddr : UInt32
  options : List UInt16
  deriving DecidableEq, Repr

namespace IPHeader

/-- The header length in 32-bit words. -/
def ihl (h : IPHeader) : ℕ := h.verIhlTos.toNat / 256 % 16
attribute [grind] ihl

/-- The words the IP header checksum covers: the whole header. -/
def words (h : IPHeader) : List ℕ :=
  [h.verIhlTos.toNat, h.totLen.toNat, h.id.toNat, h.fragOff.toNat,
    h.ttl.toNat * 256 + h.protocol.toNat, h.check.toNat] ++ addrWords h.saddr ++
    addrWords h.daddr ++ h.options.map UInt16.toNat

/-- The IP header checksum is valid. -/
def CsumValid (h : IPHeader) : Prop := Valid h.words

instance (h : IPHeader) : Decidable h.CsumValid := inferInstanceAs (Decidable (Valid _))

end IPHeader

/-- A TCP or UDP segment as words: the ports, the header words up to the checksum, the checksum,
and the header words after it and the payload (an odd payload padded with a zero byte). -/
structure L4Segment where
  sport : UInt16
  dport : UInt16
  mid : List UInt16
  check : UInt16
  tail : List UInt16
  deriving DecidableEq, Repr

/-- The words of a segment. -/
def L4Segment.words (s : L4Segment) : List ℕ :=
  [s.sport.toNat, s.dport.toNat] ++ s.mid.map UInt16.toNat ++ [s.check.toNat] ++
    s.tail.map UInt16.toNat

/-- An IPv4 packet carrying a TCP or UDP segment. -/
structure Packet where
  ip : IPHeader
  l4 : L4Segment
  deriving DecidableEq, Repr

namespace Packet

/-- The pseudo-header the TCP and UDP checksums cover: the addresses, the protocol and the
segment's length. -/
def pseudoWords (p : Packet) : List ℕ :=
  addrWords p.ip.saddr ++ addrWords p.ip.daddr ++
    [p.ip.protocol.toNat, (p.ip.totLen.toNat - 4 * p.ip.ihl) % 65536]

/-- The TCP or UDP checksum is valid. -/
def L4CsumValid (p : Packet) : Prop := Valid (p.pseudoWords ++ p.l4.words)

/-- The TCP or UDP checksum is valid, or the packet is a UDP datagram sent without one. -/
def L4CsumOk (p : Packet) : Prop :=
  p.L4CsumValid ∨ (p.ip.protocol = ipprotoUDP ∧ p.l4.check = 0)

instance (p : Packet) : Decidable p.L4CsumOk :=
  inferInstanceAs (Decidable (Valid _ ∨ (_ ∧ _)))

end Packet

/-! ## The kernel's checksum helpers -/

/-- `csum_replace4` and `csum_replace2`: RFC 1624 over the words of the old and the new value. -/
def csumReplace (check : UInt16) (m m' : List ℕ) : UInt16 :=
  UInt16.ofNat (replace check.toNat m m')

/-- `bpf_l3_csum_replace(skb, off, from, to, 4)`. -/
def l3CsumReplace (check : UInt16) (ipFrom ipTo : UInt32) : UInt16 :=
  csumReplace check (addrWords ipFrom) (addrWords ipTo)

/-- `bpf_l4_csum_replace` for a checksum the stack computes in software. With
`BPF_F_MARK_MANGLED_0` a zero checksum, a UDP datagram's "no checksum", is left alone, and a
computed zero is written as `0xffff`. -/
def l4CsumReplace (check : UInt16) (m m' : List ℕ) (markMangled0 : Bool) : UInt16 :=
  if markMangled0 = true ∧ check = 0 then check
  else
    let c := csumReplace check m m'
    if markMangled0 = true ∧ c = 0 then 0xffff else c

/-- `skb_nat_l4_csum_ipv4`: the changed address (with `BPF_F_PSEUDO_HDR`, as the pseudo-header
holds it), then the changed source port, then the changed destination port. The helpers do not
fail on a packet whose headers are present, so their return codes are left out. -/
def skbNatL4CsumIpv4 (check : UInt16) (ipFrom ipTo : UInt32)
    (dportFrom dportTo sportFrom sportTo : UInt16) (markMangled0 : Bool) : UInt16 :=
  let c := if ipFrom ≠ ipTo then
    l4CsumReplace check (addrWords ipFrom) (addrWords ipTo) markMangled0 else check
  let c := if sportFrom ≠ sportTo then
    l4CsumReplace c [sportFrom.toNat] [sportTo.toNat] markMangled0 else c
  if dportFrom ≠ dportTo then l4CsumReplace c [dportFrom.toNat] [dportTo.toNat] markMangled0
  else c

/-! ## The rewrites -/

/-- The NAT fields of the conntrack result, `struct calico_ct_result`. -/
structure CtResult where
  natIp : UInt32
  natPort : UInt16
  natSport : UInt16
  deriving DecidableEq, Repr

/-- The fields of `struct cali_tc_state` that the rewrites read. -/
structure State where
  ipSrc : UInt32
  ipDst : UInt32
  sport : UInt16
  dport : UInt16
  postNatIpDst : UInt32
  postNatDport : UInt16
  ctResult : CtResult
  deriving DecidableEq, Repr

/-- The state holds the addresses and ports that `parse_packet_ip` read from the packet
(`parsing.h`); the ports went through `bpf_ntohs`, which the `bpf_htons` at the checksum calls
undoes. -/
def State.Parsed (st : State) (p : Packet) : Prop :=
  st.ipSrc = p.ip.saddr ∧ st.ipDst = p.ip.daddr ∧ st.sport = p.l4.sport ∧ st.dport = p.l4.dport

instance (st : State) (p : Packet) : Decidable (st.Parsed p) :=
  inferInstanceAs (Decidable (_ ∧ _ ∧ _ ∧ _))

/-- GNU C's `x ? : y`. -/
def orElse (x y : UInt16) : UInt16 := if x ≠ 0 then x else y
attribute [grind] orElse

/-- Whether `l4_csum_off` is set: TCP and UDP. -/
def hasL4Csum (p : Packet) : Prop := p.ip.protocol = ipprotoTCP ∨ p.ip.protocol = ipprotoUDP

instance (p : Packet) : Decidable (hasL4Csum p) := inferInstanceAs (Decidable (_ ∨ _))

/-- The DNAT block of `calico_tc_skb_accepted`, for a packet not sent into a tunnel: the
destination becomes the NAT backend, the source port the entry's `nat_sport` when it has one,
then the checksums are repaired. -/
def dnatRewrite (st : State) (p : Packet) : Packet :=
  let ip := { p.ip with daddr := st.postNatIpDst }
  let l4 := if hasL4Csum p then
    { p.l4 with
      sport := if st.ctResult.natSport ≠ 0 then st.ctResult.natSport else p.l4.sport
      dport := st.postNatDport }
    else p.l4
  let l4 := if hasL4Csum p then
    { l4 with
      check := skbNatL4CsumIpv4 l4.check st.ipDst st.postNatIpDst st.dport st.postNatDport
        st.sport (orElse st.ctResult.natSport st.sport) (p.ip.protocol == ipprotoUDP) }
    else l4
  ⟨{ ip with check := l3CsumReplace ip.check st.ipDst st.postNatIpDst }, l4⟩

/-- The `CALI_CT_ESTABLISHED_SNAT` block: the source becomes the NAT frontend, the destination
port the entry's `nat_sport` when it has one, then the checksums are repaired. -/
def snatRewrite (st : State) (p : Packet) : Packet :=
  let ip := { p.ip with saddr := st.ctResult.natIp }
  let l4 := if hasL4Csum p then
    { p.l4 with
      sport := st.ctResult.natPort
      dport := if st.ctResult.natSport ≠ 0 then st.ctResult.natSport else p.l4.dport }
    else p.l4
  let l4 := if hasL4Csum p then
    { l4 with
      check := skbNatL4CsumIpv4 l4.check st.ipSrc st.ctResult.natIp st.dport
        (orElse st.ctResult.natSport st.dport) st.sport st.ctResult.natPort
        (p.ip.protocol == ipprotoUDP) }
    else l4
  ⟨{ ip with check := l3CsumReplace ip.check st.ipSrc st.ctResult.natIp }, l4⟩

/-- The outer header SNAT of an ICMP error related to a flow (`outer_ip_snat`). ICMP checksums
cover no pseudo-header, so only the IP header checksum is repaired. -/
def icmpOuterSnat (st : State) (h : IPHeader) : IPHeader :=
  { h with
    saddr := st.ctResult.natIp
    check := l3CsumReplace h.check st.ipSrc st.ctResult.natIp }

/-! ## Words and their sums -/

theorem words_addrWords (a : UInt32) : Words (addrWords a) := by
  intro w hw
  simp only [addrWords, List.mem_cons, List.not_mem_nil, or_false] at hw
  have := a.toNat_lt
  rcases hw with rfl | rfl <;> omega

theorem words_port (x : UInt16) : Words [x.toNat] := by
  intro w hw
  rw [List.mem_singleton.mp hw]
  exact x.toNat_lt

theorem words_map_toNat (l : List UInt16) : Words (l.map UInt16.toNat) := by
  intro w hw
  obtain ⟨x, -, rfl⟩ := List.mem_map.mp hw
  exact x.toNat_lt

theorem IPHeader.words_words (h : IPHeader) : Words h.words := by
  have hs : Words [h.verIhlTos.toNat, h.totLen.toNat, h.id.toNat, h.fragOff.toNat,
      h.ttl.toNat * 256 + h.protocol.toNat, h.check.toNat] := by
    have := h.verIhlTos.toNat_lt
    have := h.totLen.toNat_lt
    have := h.id.toNat_lt
    have := h.fragOff.toNat_lt
    have := h.ttl.toNat_lt
    have := h.protocol.toNat_lt
    have := h.check.toNat_lt
    intro w hw
    simp only [List.mem_cons, List.not_mem_nil, or_false] at hw
    rcases hw with rfl | rfl | rfl | rfl | rfl | rfl <;> omega
  exact ((hs.append (words_addrWords _)).append (words_addrWords _)).append (words_map_toNat _)

theorem Packet.words_l4Words (p : Packet) : Words (p.pseudoWords ++ p.l4.words) := by
  have hp : Words [p.ip.protocol.toNat, (p.ip.totLen.toNat - 4 * p.ip.ihl) % 65536] := by
    have := p.ip.protocol.toNat_lt
    intro w hw
    simp only [List.mem_cons, List.not_mem_nil, or_false] at hw
    rcases hw with rfl | rfl <;> omega
  have hl : Words p.l4.words :=
    (((words_port p.l4.sport).append (words_port p.l4.dport)).append
      (words_map_toNat _)).append (words_port p.l4.check) |>.append (words_map_toNat _)
  exact (((words_addrWords _).append (words_addrWords _)).append hp).append hl

/-- The sum of the IP header's words, split into the checksum, the addresses and the rest. -/
theorem IPHeader.sum_words (h : IPHeader) :
    h.words.sum = h.check.toNat + (addrWords h.saddr).sum + (addrWords h.daddr).sum +
      (h.verIhlTos.toNat + h.totLen.toNat + h.id.toNat + h.fragOff.toNat +
        (h.ttl.toNat * 256 + h.protocol.toNat) + (h.options.map UInt16.toNat).sum) := by
  simp only [IPHeader.words, List.sum_append, List.sum_cons, List.sum_nil]
  omega

/-- The sum of the words the TCP or UDP checksum covers, split into the checksum, the addresses,
the ports and the rest. -/
theorem Packet.sum_l4Words (p : Packet) :
    (p.pseudoWords ++ p.l4.words).sum = p.l4.check.toNat + (addrWords p.ip.saddr).sum +
      (addrWords p.ip.daddr).sum + p.l4.sport.toNat + p.l4.dport.toNat +
      (p.ip.protocol.toNat + (p.ip.totLen.toNat - 4 * p.ip.ihl) % 65536 +
        (p.l4.mid.map UInt16.toNat).sum + (p.l4.tail.map UInt16.toNat).sum) := by
  simp only [Packet.pseudoWords, L4Segment.words, List.sum_append, List.sum_cons, List.sum_nil]
  omega

/-! ## The helpers move the checksum by what the fields moved the sum -/

theorem csumReplace_mod (check : UInt16) {m m' : List ℕ} (hm : Words m) (hm' : Words m') :
    ((csumReplace check m m').toNat + m'.sum) % 65535 = (check.toNat + m.sum) % 65535 := by
  have hlt := replace_lt check.toNat m m'
  rw [csumReplace, UInt16.toNat_ofNat', Nat.mod_eq_of_lt hlt]
  exact replace_mod check.toNat_lt hm hm'

theorem l3CsumReplace_mod (check : UInt16) (ipFrom ipTo : UInt32) :
    ((l3CsumReplace check ipFrom ipTo).toNat + (addrWords ipTo).sum) % 65535 =
      (check.toNat + (addrWords ipFrom).sum) % 65535 :=
  csumReplace_mod check (words_addrWords ipFrom) (words_addrWords ipTo)

section L4

variable {check : UInt16} {m m' : List ℕ} {markMangled0 : Bool}

/-- On a checksum it does not leave alone, `bpf_l4_csum_replace` is the RFC 1624 update, and
with `BPF_F_MARK_MANGLED_0` it writes no zero. -/
theorem l4CsumReplace_mod (hm : Words m) (hm' : Words m') (hc : ¬ (markMangled0 = true ∧ check = 0)) :
    ((l4CsumReplace check m m' markMangled0).toNat + m'.sum) % 65535 =
        (check.toNat + m.sum) % 65535 ∧
      ¬ (markMangled0 = true ∧ l4CsumReplace check m m' markMangled0 = 0) := by
  have hmod := csumReplace_mod check hm hm'
  unfold l4CsumReplace
  rw [if_neg hc]
  by_cases hz : markMangled0 = true ∧ csumReplace check m m' = 0
  · -- a computed zero is written as `0xffff`, the same modulo `65535`
    rw [if_pos hz]
    rw [hz.2] at hmod
    exact ⟨by simpa using hmod, fun h => absurd h.2 (by decide)⟩
  · rw [if_neg hz]
    exact ⟨hmod, hz⟩

theorem l4CsumReplace_zero (h : markMangled0 = true) :
    l4CsumReplace 0 m m' markMangled0 = 0 := by
  simp [l4CsumReplace, h]

end L4

/-- One step of `skb_nat_l4_csum_ipv4`: a field that changed from `x` to `y` moves the checksum by
what it moved the sum, and one that did not is left alone. -/
theorem ite_l4CsumReplace_mod {α : Type} [DecidableEq α] (f : α → List ℕ) (hf : ∀ x, Words (f x))
    (x y : α) {check : UInt16} {markMangled0 : Bool}
    (hc : ¬ (markMangled0 = true ∧ check = 0)) :
    let c := if x ≠ y then l4CsumReplace check (f x) (f y) markMangled0 else check
    (c.toNat + (f y).sum) % 65535 = (check.toNat + (f x).sum) % 65535 ∧
      ¬ (markMangled0 = true ∧ c = 0) := by
  intro c
  by_cases hxy : x ≠ y
  · have hc' : c = l4CsumReplace check (f x) (f y) markMangled0 := if_pos hxy
    rw [hc']
    exact l4CsumReplace_mod (hf x) (hf y) hc
  · have hxy : x = y := not_not.mp hxy
    subst hxy
    have hc' : c = check := if_neg (not_not.mpr rfl)
    rw [hc']
    exact ⟨rfl, hc⟩

/-- `skb_nat_l4_csum_ipv4` moves a checksum it does not leave alone by what the address and the
ports moved the sum. -/
theorem skbNatL4CsumIpv4_mod {check : UInt16} {markMangled0 : Bool} (ipFrom ipTo : UInt32)
    (dportFrom dportTo sportFrom sportTo : UInt16) (hc : ¬ (markMangled0 = true ∧ check = 0)) :
    ((skbNatL4CsumIpv4 check ipFrom ipTo dportFrom dportTo sportFrom sportTo
        markMangled0).toNat + (addrWords ipTo).sum + sportTo.toNat + dportTo.toNat) % 65535 =
      (check.toNat + (addrWords ipFrom).sum + sportFrom.toNat + dportFrom.toNat) % 65535 := by
  obtain ⟨h₁, hc₁⟩ := ite_l4CsumReplace_mod addrWords words_addrWords ipFrom ipTo hc
  obtain ⟨h₂, hc₂⟩ := ite_l4CsumReplace_mod (fun x : UInt16 => [x.toNat]) words_port
    sportFrom sportTo hc₁
  obtain ⟨h₃, -⟩ := ite_l4CsumReplace_mod (fun x : UInt16 => [x.toNat]) words_port
    dportFrom dportTo hc₂
  simp only [List.sum_cons, List.sum_nil, Nat.add_zero] at h₂ h₃
  unfold skbNatL4CsumIpv4
  dsimp only
  -- name the checksum after the address step and after the source port step
  generalize (if ipFrom ≠ ipTo then l4CsumReplace check (addrWords ipFrom) (addrWords ipTo)
    markMangled0 else check) = c₁ at h₁ h₂ h₃ ⊢
  generalize (if sportFrom ≠ sportTo then l4CsumReplace c₁ [sportFrom.toNat] [sportTo.toNat]
    markMangled0 else c₁) = c₂ at h₂ h₃ ⊢
  omega

/-- With `BPF_F_MARK_MANGLED_0`, a UDP datagram sent without a checksum keeps none. -/
theorem skbNatL4CsumIpv4_zero (ipFrom ipTo : UInt32) (dportFrom dportTo sportFrom sportTo : UInt16) :
    skbNatL4CsumIpv4 0 ipFrom ipTo dportFrom dportTo sportFrom sportTo true = 0 := by
  simp only [skbNatL4CsumIpv4, l4CsumReplace_zero rfl, ite_self]

/-! ## The rewrites keep the checksums valid -/

section Rewrites

variable {st : State} {p : Packet}

/-- A header whose address changed and whose checksum followed with `bpf_l3_csum_replace` stays
valid: the protocol word keeps its sum away from `0`. -/
theorem csumValid_of_l3CsumReplace {h h' : IPHeader} (hv : h.CsumValid) (hproto : h.protocol ≠ 0)
    {ipFrom ipTo : UInt32}
    (hsum : h'.words.sum + (addrWords ipFrom).sum + h.check.toNat =
      h.words.sum + (addrWords ipTo).sum + h'.check.toNat)
    (hcheck : h'.check = l3CsumReplace h.check ipFrom ipTo) (hp' : h'.protocol = h.protocol) :
    h'.CsumValid := by
  have hmod := l3CsumReplace_mod h.check ipFrom ipTo
  rw [← hcheck] at hmod
  have hne : h'.words.sum ≠ 0 := by
    have h₁ := h'.sum_words
    have h₂ : h.protocol.toNat ≠ 0 := fun h0 => hproto (UInt8.toNat_inj.mp h0)
    rw [hp'] at h₁
    omega
  refine Valid.of_sum_mod hv h.words_words h'.words_words ?_ hne
  omega

/-- A segment whose address and ports changed and whose checksum followed with
`skb_nat_l4_csum_ipv4` keeps a valid checksum, or keeps none. -/
theorem l4CsumOk_of_skbNatL4CsumIpv4 {p' : Packet} (hok : p.L4CsumOk) (hproto : p.ip.protocol ≠ 0)
    (ipFrom ipTo : UInt32) (dportFrom dportTo sportFrom sportTo : UInt16)
    (hsum : (p'.pseudoWords ++ p'.l4.words).sum + (addrWords ipFrom).sum + sportFrom.toNat +
        dportFrom.toNat + p.l4.check.toNat =
      (p.pseudoWords ++ p.l4.words).sum + (addrWords ipTo).sum + sportTo.toNat + dportTo.toNat +
        p'.l4.check.toNat)
    (hcheck : p'.l4.check = skbNatL4CsumIpv4 p.l4.check ipFrom ipTo dportFrom dportTo sportFrom
      sportTo (p.ip.protocol == ipprotoUDP))
    (hp' : p'.ip.protocol = p.ip.protocol) : p'.L4CsumOk := by
  by_cases hz : p.ip.protocol = ipprotoUDP ∧ p.l4.check = 0
  · -- a UDP datagram without a checksum keeps none
    right
    refine ⟨hp'.trans hz.1, ?_⟩
    rw [hcheck, hz.2, hz.1]
    exact skbNatL4CsumIpv4_zero ..
  · left
    have hv : p.L4CsumValid := hok.resolve_right hz
    have hc : ¬ ((p.ip.protocol == ipprotoUDP) = true ∧ p.l4.check = 0) := by
      simpa using hz
    have hmod := skbNatL4CsumIpv4_mod ipFrom ipTo dportFrom dportTo sportFrom sportTo hc
    rw [← hcheck] at hmod
    have hne : (p'.pseudoWords ++ p'.l4.words).sum ≠ 0 := by
      have h₁ := p'.sum_l4Words
      have h₂ : p.ip.protocol.toNat ≠ 0 := fun h0 => hproto (UInt8.toNat_inj.mp h0)
      rw [hp'] at h₁
      omega
    refine Valid.of_sum_mod hv p.words_l4Words p'.words_l4Words ?_ hne
    omega

theorem hasL4Csum_protocol_ne_zero (hproto : hasL4Csum p) : p.ip.protocol ≠ 0 := by
  rcases hproto with h | h <;> rw [h] <;> decide

/-- The DNAT rewrite keeps both checksums of a TCP or UDP packet valid. -/
theorem dnatRewrite_csum (hst : st.Parsed p) (hproto : hasL4Csum p) (hip : p.ip.CsumValid)
    (hl4 : p.L4CsumOk) : (dnatRewrite st p).ip.CsumValid ∧ (dnatRewrite st p).L4CsumOk := by
  obtain ⟨-, hdst, hsport, hdport⟩ := hst
  have hne := hasL4Csum_protocol_ne_zero hproto
  constructor
  · refine csumValid_of_l3CsumReplace hip hne ?_ rfl rfl
    rw [IPHeader.sum_words, IPHeader.sum_words]
    simp only [dnatRewrite, hdst]
    omega
  · refine l4CsumOk_of_skbNatL4CsumIpv4 hl4 hne st.ipDst st.postNatIpDst st.dport st.postNatDport
      st.sport (orElse st.ctResult.natSport st.sport) ?_ ?_ rfl
    · rw [Packet.sum_l4Words, Packet.sum_l4Words]
      simp only [dnatRewrite, if_pos hproto, IPHeader.ihl, hdst, hsport, hdport, orElse]
      omega
    · simp only [dnatRewrite, if_pos hproto]

/-- The SNAT rewrite keeps both checksums of a TCP or UDP packet valid. -/
theorem snatRewrite_csum (hst : st.Parsed p) (hproto : hasL4Csum p) (hip : p.ip.CsumValid)
    (hl4 : p.L4CsumOk) : (snatRewrite st p).ip.CsumValid ∧ (snatRewrite st p).L4CsumOk := by
  obtain ⟨hsrc, -, hsport, hdport⟩ := hst
  have hne := hasL4Csum_protocol_ne_zero hproto
  constructor
  · refine csumValid_of_l3CsumReplace hip hne ?_ rfl rfl
    rw [IPHeader.sum_words, IPHeader.sum_words]
    simp only [snatRewrite, hsrc]
    omega
  · refine l4CsumOk_of_skbNatL4CsumIpv4 hl4 hne st.ipSrc st.ctResult.natIp st.dport
      (orElse st.ctResult.natSport st.dport) st.sport st.ctResult.natPort ?_ ?_ rfl
    · rw [Packet.sum_l4Words, Packet.sum_l4Words]
      simp only [snatRewrite, if_pos hproto, IPHeader.ihl, hsrc, hsport, hdport, orElse]
      omega
    · simp only [snatRewrite, if_pos hproto]

/-- The outer SNAT of an ICMP error keeps its IP header checksum valid. -/
theorem icmpOuterSnat_csum {h : IPHeader} (hsrc : st.ipSrc = h.saddr)
    (hproto : h.protocol = ipprotoICMP) (hv : h.CsumValid) : (icmpOuterSnat st h).CsumValid := by
  refine csumValid_of_l3CsumReplace hv (by rw [hproto]; decide) ?_ rfl rfl
  rw [IPHeader.sum_words, IPHeader.sum_words]
  simp only [icmpOuterSnat, hsrc]
  omega

end Rewrites

theorem nat_rewrites_keep_checksums (st : State) (p : Packet) (hst : st.Parsed p)
    (hproto : p.ip.protocol = ipprotoTCP ∨ p.ip.protocol = ipprotoUDP)
    (hip : p.ip.CsumValid) (hl4 : p.L4CsumOk) :
    ((dnatRewrite st p).ip.CsumValid ∧ (dnatRewrite st p).L4CsumOk) ∧
      ((snatRewrite st p).ip.CsumValid ∧ (snatRewrite st p).L4CsumOk) ∧
      ∀ (st' : State) (h : IPHeader), st'.ipSrc = h.saddr → h.protocol = ipprotoICMP →
        h.CsumValid → (icmpOuterSnat st' h).CsumValid :=
  ⟨dnatRewrite_csum hst hproto hip hl4, snatRewrite_csum hst hproto hip hl4,
    fun _ _ hsrc hicmp hv => icmpOuterSnat_csum hsrc hicmp hv⟩

/-- A TCP segment from `10.0.0.1:1234` to `10.0.0.2:80` with both checksums valid. -/
def tcpSegment : Packet :=
  ⟨⟨0x4500, 40, 0, 0, 64, ipprotoTCP, 0x66ce, 0x0a000001, 0x0a000002, []⟩,
    ⟨1234, 80, [0, 1, 0, 0, 0x5002, 0xffff], 0x96bd, [0]⟩⟩

/-- The state parsed from `tcpSegment`, sent to the backend `10.0.0.9:8080` of a service whose
frontend is `10.0.0.254:443`. -/
def tcpSegmentState : State :=
  ⟨0x0a000001, 0x0a000002, 1234, 80, 0x0a000009, 8080, ⟨0x0a0000fe, 443, 0⟩⟩

theorem nat_rewrites_keep_checksums_tcpSegment :
    tcpSegmentState.Parsed tcpSegment ∧ tcpSegment.ip.protocol = ipprotoTCP ∧
      tcpSegment.ip.CsumValid ∧ tcpSegment.L4CsumOk ∧
      (dnatRewrite tcpSegmentState tcpSegment).ip.CsumValid ∧
      (dnatRewrite tcpSegmentState tcpSegment).L4CsumOk :=
  have hst : tcpSegmentState.Parsed tcpSegment := by decide
  have hip : tcpSegment.ip.CsumValid := by decide
  have hl4 : tcpSegment.L4CsumOk := by decide
  ⟨hst, rfl, hip, hl4,
    (nat_rewrites_keep_checksums tcpSegmentState tcpSegment hst (Or.inl rfl) hip hl4).1⟩

end Felix.Bpf.Tc
