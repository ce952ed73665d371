import Felix.Bpf.Conntrack.Map
import Mathlib

/-!
# Creating conntrack entries in the BPF programs

`calico_ct_v4_create_tracking` (`bpf-gpl/conntrack.h`) stores a new entry in the BPF conntrack
map `cali_v4_ct`. The key orders the two ends of the flow, the lower address first, or on equal
addresses the lower port (`src_lt_dest`, `ct_make_key`), so that both directions of a flow
share one key. The value has a leg for each direction, `a_to_b` and `b_to_a`, and the leg of the
packet's own direction (`src_to_dst`) is marked as the connection's opener. `calico_ct_v4_lookup`
orders the ends of a packet the same way, finds the entry, and takes `a_to_b` or `b_to_a` as the
packet's own leg by the same comparison.

When the key is taken (`-EEXIST`), the creation picks a new source port with `psnat_get_port`
and stores the same value under the key of the new port. The legs were placed for the old port.
If the two addresses differ they order the ends alone and nothing changes, and the lookup gives
each direction its own leg (`createEntry_lookup_opener`). On equal addresses the new port can
reorder the ends: the entry then stands under a key whose `a_to_b` is the other direction, and
the lookup gives the opener's leg to the replies (`createTracking_collision_swaps_opener`).

Addresses are the `__be32` values the program compares; only their order matters here.

## Main definitions

* `CtKey`, `CtValue`, `CtTable`: the map `cali_v4_ct`
* `srcLtDest`, `ctMakeKey`
* `createTracking`, `createEntry`: `calico_ct_v4_create_tracking`
* `ctLookupLeg`: the entry and the leg `calico_ct_v4_lookup` takes for a packet

## Main results

* `ctMakeKey_symm`: both directions of a flow share a key
* `createEntry_lookup_opener`
* `createTracking_collision_swaps_opener`
-/

namespace Felix.Bpf.Conntrack

/-- `struct calico_ct_key`. -/
structure CtKey where
  protocol : UInt32
  addrA : UInt32
  addrB : UInt32
  portA : UInt16
  portB : UInt16
  deriving DecidableEq, Repr

/-- `struct calico_ct_value` of a normal or reverse-NAT entry. -/
structure CtValue where
  created : UInt64
  lastSeen : UInt64
  type : UInt8
  flags : UInt8
  aToB : Leg
  bToA : Leg
  origIp : UInt32
  origPort : UInt16
  origSport : UInt16
  tunIp : UInt32
  deriving DecidableEq, Repr

/-- The BPF conntrack map `cali_v4_ct`. -/
abbrev CtTable := AList fun _ : CtKey => CtValue

/-- `CALI_CT_FLAG_NP_FWD`. -/
def ctFlagNPFwd : UInt8 := 0x04

/-- `src_lt_dest`. -/
def srcLtDest (ipSrc ipDst : UInt32) (sport dport : UInt16) : Bool :=
  ipSrc < ipDst || (ipSrc == ipDst && sport < dport)

/-- `ct_make_key`. -/
def ctMakeKey (sltd : Bool) (p : UInt8) (ipa ipb : UInt32) (pta ptb : UInt16) : CtKey :=
  if sltd then ⟨p.toUInt32, ipa, ipb, pta, ptb⟩ else ⟨p.toUInt32, ipb, ipa, ptb, pta⟩

/-- `cali_v4_ct_update_elem(k, v, BPF_NOEXIST)`: `-EEXIST` when the key is taken. The map is
not bounded here, so no other error occurs. -/
def updateNoExist (m : CtTable) (k : CtKey) (v : CtValue) : Except Int CtTable :=
  if (m.lookup k).isSome then .error (-17) else .ok (m.insert k v)

/-- `psnat_get_port`: a port of the range `PSNAT_START` to `PSNAT_START + PSNAT_LEN`, for the
value `rand` of `bpf_get_prandom_u32`. -/
def psnatGetPort (rand psnatStart psnatLen : UInt32) : UInt16 :=
  UInt16.ofNat (psnatStart.toNat + rand.toNat % psnatLen.toNat)

/-- The `CALI_F_*` flags of where the program is attached that the creation reads. -/
structure Hook where
  toHost : Bool
  fromWEP : Bool
  fromHEP : Bool
  fromHost : Bool
  deriving DecidableEq, Repr

/-- `struct ct_create_ctx`, with what the creation reads of the packet and its `skb`: the TCP
header's sequence number and SYN flag, whether the packet is marked as seen, and its ingress
interface. -/
structure CreateCtx where
  proto : UInt8
  src : UInt32
  origDst : UInt32
  dst : UInt32
  sport : UInt16
  dport : UInt16
  origDport : UInt16
  tcp : Option (UInt32 × Bool)
  tunIp : UInt32
  flags : UInt8
  type : UInt8
  allowReturn : Bool
  skbSeen : Bool
  ingressIfindex : UInt32
  deriving DecidableEq, Repr

namespace CreateCtx

/-- The TCP header's sequence number, or `0`. -/
def seq (ctx : CreateCtx) : UInt32 := (ctx.tcp.map Prod.fst).getD 0

/-- The TCP header's SYN flag, or `false`. -/
def syn (ctx : CreateCtx) : Bool := (ctx.tcp.map Prod.snd).getD false

end CreateCtx

/-! ## The creation -/

/-- The leg of the packet's own direction in a new entry: it opens the connection. -/
def srcLeg (hk : Hook) (ctx : CreateCtx) : Leg :=
  { seqno := ctx.seq
    synSeen := ctx.syn
    opener := true
    ifindex := if hk.toHost then ctx.ingressIfindex else 0
    whitelisted := hk.fromWEP || hk.fromHEP }

/-- The leg of the other direction in a new entry. -/
def dstLeg (hk : Hook) (ctx : CreateCtx) : Leg :=
  { ifindex := 0
    whitelisted := !hk.fromWEP && ((hk.fromHEP && ctx.allowReturn) || (!hk.fromHEP && hk.fromHost)) }

/-- `src_to_dst` is `a_to_b` when the source orders first, `b_to_a` otherwise. -/
def placeLegs (sltd : Bool) (v : CtValue) (src dst : Leg) : CtValue :=
  if sltd then { v with aToB := src, bToA := dst } else { v with aToB := dst, bToA := src }

/-- The value a new entry starts from. A reverse entry of a flow through a tunnel records the
tunnel's far end, which must be a host unless the flow is a forwarded node port. -/
def newValue (ctx : CreateCtx) (tunIsHost : Bool) (now : UInt64) : Except Int CtValue :=
  let v : CtValue :=
    { created := now
      lastSeen := now
      type := ctx.type
      flags := ctx.flags
      aToB := {}
      bToA := {}
      origIp := ctx.origDst
      origPort := ctx.origDport
      origSport := 0
      tunIp := 0 }
  if ctx.type = typeNATReverse ∧ ctx.tunIp ≠ 0 then
    if ctx.flags &&& ctFlagNPFwd = 0 ∧ tunIsHost = false then .error (-1)
    else .ok { v with tunIp := ctx.tunIp }
  else .ok v

/-- The value with its legs placed by the order of the ends, stored under its key; on a taken key
stored, with its legs as they are, under the key of a new source port. Returns the map, the key
and the source port `ct_ctx->sport` ends with. -/
def storeEntry (hk : Hook) (ctx : CreateCtx) (rand psnatStart psnatLen : UInt32) (m : CtTable)
    (v : CtValue) : Except Int (CtTable × CtKey × UInt16) :=
  let sltd := srcLtDest ctx.src ctx.dst ctx.sport ctx.dport
  let k := ctMakeKey sltd ctx.proto ctx.src ctx.dst ctx.sport ctx.dport
  let v := placeLegs sltd v (srcLeg hk ctx) (dstLeg hk ctx)
  match updateNoExist m k v with
  | .ok m' => .ok (m', k, ctx.sport)
  | .error e =>
    if e = -17 then
      -- source collision: the same value, under the key of a new source port
      let v := { v with origSport := ctx.sport }
      let sport := psnatGetPort rand psnatStart psnatLen
      let k := ctMakeKey (srcLtDest ctx.src ctx.dst sport ctx.dport) ctx.proto ctx.src ctx.dst
        sport ctx.dport
      (updateNoExist m k v).map fun m' => (m', k, sport)
    else .error e

/-- The path of `calico_ct_v4_create_tracking` from its `create:` label. -/
def createEntry (hk : Hook) (ctx : CreateCtx) (tunIsHost : Bool) (now : UInt64)
    (rand psnatStart psnatLen : UInt32) (m : CtTable) : Except Int (CtTable × CtKey × UInt16) := do
  let v ← newValue ctx tunIsHost now
  storeEntry hk ctx rand psnatStart psnatLen m v

/-- The entry of a packet already marked as seen by another endpoint's program, updated for its
direction: its leg takes the packet's sequence number and SYN flag, and the side this program
vouches for is whitelisted. -/
def markSeen (toHost sltd : Bool) (ctx : CreateCtx) (v : CtValue) : CtValue :=
  if sltd then
    { v with
      aToB :=
        { v.aToB with
          seqno := ctx.seq
          synSeen := ctx.syn
          whitelisted := if toHost then true else v.aToB.whitelisted }
      bToA := { v.bToA with whitelisted := if toHost then v.bToA.whitelisted else true } }
  else
    { v with
      bToA :=
        { v.bToA with
          seqno := ctx.seq
          synSeen := ctx.syn
          whitelisted := if toHost then true else v.bToA.whitelisted }
      aToB := { v.aToB with whitelisted := if toHost then v.aToB.whitelisted else true } }

/-- `calico_ct_v4_create_tracking`. A packet marked as seen updates the entry its ends key, when
there is one; otherwise a new entry is created. -/
def createTracking (hk : Hook) (ctx : CreateCtx) (tunIsHost : Bool) (now : UInt64)
    (rand psnatStart psnatLen : UInt32) (m : CtTable) : Except Int (CtTable × CtKey × UInt16) :=
  let sltd := srcLtDest ctx.src ctx.dst ctx.sport ctx.dport
  let k := ctMakeKey sltd ctx.proto ctx.src ctx.dst ctx.sport ctx.dport
  match ctx.skbSeen, m.lookup k with
  | true, some v => .ok (m.insert k (markSeen hk.toHost sltd ctx v), k, ctx.sport)
  | _, _ => createEntry hk ctx tunIsHost now rand psnatStart psnatLen m

/-! ## The lookup -/

/-- The entry `calico_ct_v4_lookup` finds for a packet that is not an ICMP error, with the leg it
takes as the packet's own (`src_to_dst`) when the entry is a normal or a reverse-NAT one. -/
def ctLookupLeg (m : CtTable) (proto : UInt8) (src dst : UInt32) (sport dport : UInt16) :
    Option (CtKey × Leg) :=
  let sltd := srcLtDest src dst sport dport
  let k := ctMakeKey sltd proto src dst sport dport
  match m.lookup k with
  | some v =>
    if v.type = typeNormal ∨ v.type = typeNATReverse then
      some (k, if sltd then v.aToB else v.bToA)
    else none
  | none => none

/-! ## Keys -/

/-- `src_lt_dest` on the numbers the addresses and ports are. -/
theorem srcLtDest_eq (a b : UInt32) (pa pb : UInt16) :
    srcLtDest a b pa pb =
      decide (a.toNat < b.toNat ∨ a.toNat = b.toNat ∧ pa.toNat < pb.toNat) := by
  have he : (a == b) = decide (a.toNat = b.toNat) := by
    rw [beq_eq_decide]
    exact decide_eq_decide.mpr UInt32.toNat_inj.symm
  simp only [srcLtDest, he, UInt32.lt_iff_toNat_lt, UInt16.lt_iff_toNat_lt, Bool.decide_or,
    Bool.decide_and]

/-- Of two different ends, exactly one orders first. -/
theorem srcLtDest_swap {a b : UInt32} {pa pb : UInt16} (h : a ≠ b ∨ pa ≠ pb) :
    srcLtDest b a pb pa = !srcLtDest a b pa pb := by
  have h' : a.toNat ≠ b.toNat ∨ pa.toNat ≠ pb.toNat := by
    rcases h with h | h
    · exact .inl fun e => h (UInt32.toNat_inj.mp e)
    · exact .inr fun e => h (UInt16.toNat_inj.mp e)
  rw [srcLtDest_eq, srcLtDest_eq, ← decide_not, decide_eq_decide]
  omega

/-- Both directions of a flow share a key. -/
theorem ctMakeKey_symm (p : UInt8) (a b : UInt32) (pa pb : UInt16) :
    ctMakeKey (srcLtDest b a pb pa) p b a pb pa = ctMakeKey (srcLtDest a b pa pb) p a b pa pb := by
  by_cases h : a ≠ b ∨ pa ≠ pb
  · rw [srcLtDest_swap h]
    cases srcLtDest a b pa pb <;> rfl
  · have ⟨hab, hp⟩ : a = b ∧ pa = pb := by simpa using h
    subst hab hp
    rfl

/-- On different addresses the ports do not order the ends. -/
theorem srcLtDest_of_ne {a b : UInt32} (h : a ≠ b) (pa pa' pb : UInt16) :
    srcLtDest a b pa' pb = srcLtDest a b pa pb := by
  have h' : a.toNat ≠ b.toNat := fun e => h (UInt32.toNat_inj.mp e)
  rw [srcLtDest_eq, srcLtDest_eq, decide_eq_decide]
  omega

/-! ## What the lookup finds after a creation -/

section Lookup

variable {m : CtTable} {k : CtKey} {v : CtValue}

theorem ctLookupLeg_of_lookup {proto : UInt8} {src dst : UInt32} {sport dport : UInt16}
    (hk : ctMakeKey (srcLtDest src dst sport dport) proto src dst sport dport = k)
    (hv : m.lookup k = some v) (ht : v.type = typeNormal ∨ v.type = typeNATReverse) :
    ctLookupLeg m proto src dst sport dport =
      some (k, if srcLtDest src dst sport dport then v.aToB else v.bToA) := by
  unfold ctLookupLeg
  dsimp only
  rw [hk, hv]
  simp only [if_pos ht]

/-- The legs placed for one order, read by the other order, swap. -/
theorem placeLegs_read (sltd sltd' : Bool) (v : CtValue) (s d : Leg) :
    (if sltd' then (placeLegs sltd v s d).aToB else (placeLegs sltd v s d).bToA) =
      if sltd' = sltd then s else d := by
  cases sltd <;> cases sltd' <;> rfl

end Lookup

theorem type_placeLegs (sltd : Bool) (v : CtValue) (s d : Leg) :
    (placeLegs sltd v s d).type = v.type := by
  cases sltd <;> rfl

/-- The leg the lookup takes from an entry whose legs were placed for one order of the ends. -/
theorem ctLookupLeg_placeLegs {m : CtTable} {k : CtKey} {v : CtValue} {proto : UInt8}
    {src dst : UInt32} {sport dport : UInt16} {sltd : Bool} {s d : Leg}
    (hk : ctMakeKey (srcLtDest src dst sport dport) proto src dst sport dport = k)
    (hv : m.lookup k = some (placeLegs sltd v s d))
    (ht : v.type = typeNormal ∨ v.type = typeNATReverse) :
    ctLookupLeg m proto src dst sport dport =
      some (k, if srcLtDest src dst sport dport = sltd then s else d) := by
  have ht' : (placeLegs sltd v s d).type = typeNormal ∨
      (placeLegs sltd v s d).type = typeNATReverse := by
    rw [type_placeLegs]
    exact ht
  rw [ctLookupLeg_of_lookup hk hv ht', placeLegs_read]

theorem placeLegs_origSport (sltd : Bool) (v : CtValue) (s d : Leg) (o : UInt16) :
    { placeLegs sltd v s d with origSport := o } = placeLegs sltd { v with origSport := o } s d := by
  cases sltd <;> rfl

theorem newValue_type {ctx : CreateCtx} {tunIsHost : Bool} {now : UInt64} {v : CtValue}
    (h : newValue ctx tunIsHost now = .ok v) : v.type = ctx.type := by
  unfold newValue at h
  split_ifs at h <;> cases h <;> rfl

theorem lookup_of_updateNoExist {m m' : CtTable} {k : CtKey} {v : CtValue}
    (h : updateNoExist m k v = .ok m') : m'.lookup k = some v := by
  unfold updateNoExist at h
  split_ifs at h
  cases h
  exact AList.lookup_insert m

/-- Where a stored entry stands: under the key of the ends with the port the creation ends with,
with the legs placed for the port it started with. -/
theorem storeEntry_spec {hk : Hook} {ctx : CreateCtx} {rand psnatStart psnatLen : UInt32}
    {m m' : CtTable} {v : CtValue} {k : CtKey} {sport : UInt16}
    (h : storeEntry hk ctx rand psnatStart psnatLen m v = .ok (m', k, sport)) :
    ∃ o, m'.lookup k = some (placeLegs (srcLtDest ctx.src ctx.dst ctx.sport ctx.dport)
        { v with origSport := o } (srcLeg hk ctx) (dstLeg hk ctx)) ∧
      k = ctMakeKey (srcLtDest ctx.src ctx.dst sport ctx.dport) ctx.proto ctx.src ctx.dst sport
        ctx.dport := by
  unfold storeEntry at h
  dsimp only at h
  split at h
  · -- the key was free
    next m₁ hup =>
    cases h
    exact ⟨v.origSport, by simpa using lookup_of_updateNoExist hup, rfl⟩
  · -- the key was taken: the same legs under the key of the new port
    split_ifs at h
    revert h
    generalize hup : updateNoExist m _ _ = r
    rcases r with e | m₂
    · intro h
      cases h
    · intro h
      cases h
      refine ⟨ctx.sport, ?_, rfl⟩
      rw [lookup_of_updateNoExist hup, placeLegs_origSport]

/-- A new entry's key and value: the legs are placed by the order of the packet's ends, and the
key is that of the ends with the port the creation ends with. -/
theorem createEntry_spec {hk : Hook} {ctx : CreateCtx} {tunIsHost : Bool} {now : UInt64}
    {rand psnatStart psnatLen : UInt32} {m m' : CtTable} {k : CtKey} {sport : UInt16}
    (h : createEntry hk ctx tunIsHost now rand psnatStart psnatLen m = .ok (m', k, sport)) :
    ∃ v : CtValue, v.type = ctx.type ∧ m'.lookup k = some
        (placeLegs (srcLtDest ctx.src ctx.dst ctx.sport ctx.dport) v (srcLeg hk ctx) (dstLeg hk ctx)) ∧
      k = ctMakeKey (srcLtDest ctx.src ctx.dst sport ctx.dport) ctx.proto ctx.src ctx.dst sport
        ctx.dport := by
  unfold createEntry at h
  cases hv : newValue ctx tunIsHost now with
  | error e => rw [hv] at h; cases h
  | ok v =>
    rw [hv] at h
    have htype := newValue_type hv
    obtain ⟨o, hlook, hk⟩ := storeEntry_spec h
    exact ⟨{ v with origSport := o }, htype, hlook, hk⟩

/-! ## What the lookup finds after a creation -/

/-- The hook of a program on a workload's interface, on the packets the workload sends. -/
def fromWorkload : Hook := ⟨true, true, false, false⟩

/-- The first packet of a TCP connection from `10.0.0.1:1000` to `dst:2000`. -/
def connectCtx (dst : UInt32) : CreateCtx :=
  { proto := 6
    src := 0x0a000001
    origDst := dst
    dst := dst
    sport := 1000
    dport := 2000
    origDport := 2000
    tcp := some (0, true)
    tunIp := 0
    flags := 0
    type := typeNormal
    allowReturn := false
    skbSeen := false
    ingressIfindex := 0 }

/-- When the two addresses differ, a new entry is where the lookup finds it from both ends: the
packets of the creating direction, with the port the creation ends with, get the opener's leg, and
the replies get the other one. -/
theorem createEntry_lookup_opener {hk : Hook} {ctx : CreateCtx} {tunIsHost : Bool}
    {now : UInt64} {rand psnatStart psnatLen : UInt32} {m m' : CtTable} {k : CtKey}
    {sport : UInt16} (hne : ctx.src ≠ ctx.dst)
    (ht : ctx.type = typeNormal ∨ ctx.type = typeNATReverse)
    (h : createEntry hk ctx tunIsHost now rand psnatStart psnatLen m = .ok (m', k, sport)) :
    ctLookupLeg m' ctx.proto ctx.src ctx.dst sport ctx.dport = some (k, srcLeg hk ctx) ∧
      ctLookupLeg m' ctx.proto ctx.dst ctx.src ctx.dport sport = some (k, dstLeg hk ctx) := by
  obtain ⟨v, hvt, hlook, hkey⟩ := createEntry_spec h
  -- the addresses alone order the ends, so the new port keeps the order the legs were placed by
  have hsltd := srcLtDest_of_ne hne ctx.sport sport ctx.dport
  have hswap := @srcLtDest_swap ctx.src ctx.dst sport ctx.dport (.inl hne)
  have ht' : v.type = typeNormal ∨ v.type = typeNATReverse := hvt ▸ ht
  constructor
  · rw [ctLookupLeg_placeLegs hkey.symm hlook ht', if_pos hsltd]
  · have hkey' := (ctMakeKey_symm ctx.proto ctx.src ctx.dst sport ctx.dport).trans hkey.symm
    rw [ctLookupLeg_placeLegs hkey' hlook ht', hswap, hsltd, if_neg (Bool.not_ne_self _)]

theorem createEntry_lookup_opener_connect :
    ∃ m k, createEntry fromWorkload (connectCtx 0x0a000002) false 0 0 20000 10000 ∅ =
        .ok (m, k, 1000) ∧
      ctLookupLeg m 6 0x0a000001 0x0a000002 1000 2000 =
        some (k, srcLeg fromWorkload (connectCtx 0x0a000002)) ∧
      ctLookupLeg m 6 0x0a000002 0x0a000001 2000 1000 =
        some (k, dstLeg fromWorkload (connectCtx 0x0a000002)) := by
  obtain ⟨m, k, h⟩ : ∃ m k, createEntry fromWorkload (connectCtx 0x0a000002) false 0 0 20000
      10000 ∅ = .ok (m, k, 1000) := ⟨_, _, rfl⟩
  exact ⟨m, k, h, createEntry_lookup_opener (by decide) (.inl rfl) h⟩

/-- A workload connecting to itself, `10.0.0.1:1000` to `10.0.0.1:2000`. -/
def hairpinCtx : CreateCtx := connectCtx 0x0a000001

/-- The map holding an entry of the same ends and ports, so that the creation collides. -/
def hairpinTable : CtTable :=
  (∅ : CtTable).insert (ctMakeKey true 6 0x0a000001 0x0a000001 1000 2000)
    { created := 0
      lastSeen := 0
      type := typeNormal
      flags := 0
      aToB := {}
      bToA := {}
      origIp := 0
      origPort := 0
      origSport := 0
      tunIp := 0 }

/-- On equal addresses the new port of a source collision can reorder the ends: the entry is
stored, the packets of the creating direction are given the leg not marked opener, and the
replies the opener's. -/
theorem createTracking_collision_swaps_opener :
    ∃ m k, createTracking fromWorkload hairpinCtx false 0 0 20000 10000 hairpinTable =
        .ok (m, k, 20000) ∧
      (ctLookupLeg m 6 0x0a000001 0x0a000001 20000 2000).map (·.2.opener) = some false ∧
      (ctLookupLeg m 6 0x0a000001 0x0a000001 2000 20000).map (·.2.opener) = some true := by
  refine ⟨_, _, rfl, ?_, ?_⟩ <;> decide

end Felix.Bpf.Conntrack
