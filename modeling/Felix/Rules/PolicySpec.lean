import Felix.Rules.Policy

/-!
# What a rendered policy rule should do

A rule of a policy says which packets it applies to: one of its CIDRs of each side, none of
its negated CIDRs, a port of each side in one of its ranges or named-port IP sets, none of
the negated ports, every IP set, and the protocol and ICMP matches. Its rendering should then
apply its action to those packets and let every other one fall through.

The blocks of the rendering keep that meaning only as long as `markThisBlockPass` is clear at
the start of each positive block after the first. The initial rule clears it, but no rule
clears it again: a third positive block starts with the bit the second one left. A packet
that the second block matches and the third does not passes all the blocks
(`threeBlocks_accepts_mismatch`).

## Main definitions

* `ProtoRule.criteriaHold`: the rule's criteria, as the rule states them
-/

namespace Felix.Rules

open Iptables

variable {Addr : Type}

/-- A protocol match holds of the packet's protocol number. -/
def Protocol.holds (env : Env Addr) (p : UInt8) : Protocol → Bool
  | .name n => env.protocolNamed n p
  | .number n => p == n

/-- An ICMP match holds of the packet's type and code. -/
def IcmpMatch.holds (pkt : Packet Addr) : IcmpMatch → Bool
  | .icmpType t => pkt.icmpType == t
  | .icmpTypeCode t c => pkt.icmpType == t && pkt.icmpCode == c

/-- The packet's port on one side is allowed by a list of ranges and named-port IP sets: when
either list is not empty, one of them holds the port. -/
def portAllowed (env : Env Addr) (nameForIPSet : String → String) (pkt : Packet Addr)
    (ports : List PortRange) (namedPorts : List String) (addr : Addr) (port : ℕ) : Bool :=
  (ports.isEmpty && namedPorts.isEmpty) || inPortRanges ports port ||
    namedPorts.any fun id => env.inIPPortSet (nameForIPSet id) addr pkt.protocol port

/-- The rule's criteria hold of the packet, as the rule states them. An IP set ID stands for
the IP set of the name `nameForIPSet` gives it. -/
def ProtoRule.criteriaHold (env : Env Addr) (nameForIPSet : String → String) (pkt : Packet Addr)
    (pRule : ProtoRule) : Bool :=
  let someNet := fun (nets : List String) (addr : Addr) => nets.isEmpty || nets.any (env.inNet · addr)
  let noNet := fun (nets : List String) (addr : Addr) => !nets.any (env.inNet · addr)
  -- the positive criteria
  (pRule.protocol.all (·.holds env pkt.protocol)) && someNet pRule.srcNet pkt.srcAddr &&
    portAllowed env nameForIPSet pkt pRule.srcPorts pRule.srcNamedPortIpSetIds pkt.srcAddr pkt.srcPort &&
    someNet pRule.dstNet pkt.dstAddr &&
    portAllowed env nameForIPSet pkt pRule.dstPorts pRule.dstNamedPortIpSetIds pkt.dstAddr pkt.dstPort &&
    pRule.icmp.all (·.holds pkt) &&
    pRule.srcIpSetIds.all (fun id => env.inIPSet (nameForIPSet id) pkt.srcAddr) &&
    pRule.dstIpSetIds.all (fun id => env.inIPSet (nameForIPSet id) pkt.dstAddr) &&
    pRule.dstIpPortSetIds.all
      (fun id => env.inIPPortSet (nameForIPSet id) pkt.dstAddr pkt.protocol pkt.dstPort) &&
  -- the negated criteria
    !(pRule.notProtocol.any (·.holds env pkt.protocol)) && noNet pRule.notSrcNet pkt.srcAddr &&
    noNet pRule.notDstNet pkt.dstAddr && !inPortRanges pRule.notSrcPorts pkt.srcPort &&
    !inPortRanges pRule.notDstPorts pkt.dstPort &&
    !(pRule.notSrcNamedPortIpSetIds.any
      fun id => env.inIPPortSet (nameForIPSet id) pkt.srcAddr pkt.protocol pkt.srcPort) &&
    !(pRule.notDstNamedPortIpSetIds.any
      fun id => env.inIPPortSet (nameForIPSet id) pkt.dstAddr pkt.protocol pkt.dstPort) &&
    !(pRule.notIcmp.any (·.holds pkt)) &&
    !(pRule.notSrcIpSetIds.any fun id => env.inIPSet (nameForIPSet id) pkt.srcAddr) &&
    !(pRule.notDstIpSetIds.any fun id => env.inIPSet (nameForIPSet id) pkt.dstAddr)

/-! ## Three positive blocks -/

/-- The renderer with the mark bits of the source's tests: accept `0x80`, pass `0x100`,
scratch `0x200` and `0x400`. -/
def testRenderer : DefaultRuleRenderer where
  iptablesMarkAccept := 0x80
  iptablesMarkPass := 0x100
  iptablesMarkScratch0 := 0x200
  iptablesMarkScratch1 := 0x400
  iptablesLogPrefix := "calico-packet"
  ipSetConfigV4 := ⟨"cali40"⟩
  ipSetConfigV6 := ⟨"cali60"⟩

/-- Addresses as strings, where a `/32` CIDR holds its address; `tcp` is protocol 6, and the
IP sets are empty. -/
def slash32Env : Env String where
  protocolNamed name p := name == "tcp" && p == 6
  inNet net addr := net == addr ++ "/32"
  inIPSet _ _ := false
  inIPPortSet _ _ _ _ := false

/-- An allow rule for TCP to port 80 or the named port `np`, from `10.0.0.1` or `10.0.0.2`
to `10.0.0.3` or `10.0.0.4`. It renders three positive blocks: the destination ports, the
source CIDRs and the destination CIDRs. -/
def threeBlockRule : ProtoRule where
  action := "allow"
  protocol := some (.name "tcp")
  srcNet := ["10.0.0.1/32", "10.0.0.2/32"]
  dstNet := ["10.0.0.3/32", "10.0.0.4/32"]
  dstPorts := [⟨80, 80⟩]
  dstNamedPortIpSetIds := ["np"]

/-- A TCP packet from `10.0.0.1` to `10.0.0.5`, port 80. -/
def strayPacket : Packet String :=
  ⟨"10.0.0.1", "10.0.0.5", 6, 40000, 80, 0, 0, "NEW"⟩

/-- The packet is not to one of the rule's destinations, so the rule does not apply to it;
but its rendering sets the accept mark and returns: the source block's `0x400` is still set
when the destination block ends. -/
theorem threeBlocks_accepts_mismatch :
    threeBlockRule.criteriaHold slash32Env testRenderer.ipSetConfigV4.nameForMainIPSet strayPacket =
        false ∧
      ∃ rs, testRenderer.protoRuleToIptablesRules threeBlockRule 4 = .ok rs ∧
        runRules slash32Env (fun _ _ mark => ⟨.returned, mark, false⟩) strayPacket rs 0 false =
          ⟨.returned, 0x680, false⟩ :=
  ⟨by decide, _, rfl, by decide⟩

end Felix.Rules
