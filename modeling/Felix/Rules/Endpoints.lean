import Felix.Rules.Policy

/-!
# Endpoint chains

Every packet to or from an endpoint goes through the endpoint's chain, which
`endpointIptablesChain` renders: a drop of everything when the endpoint is admin down;
otherwise the conntrack rules, a jump to the failsafe chain, the drops of encapsulated
packets, a jump to each policy chain in turn and to each profile chain in turn. Verdicts come
back from those chains in two mark bits: a chain that allows sets the accept bit and
returns, and a policy that passes sets the pass bit.

The chain names are those `GetLengthLimitedID` gives. It shortens a name that is too long
with the SHA-256 of its suffix; this model takes that digest, in base64, as the parameter
`hash`.

## Main definitions

* `getLengthLimitedID`, `policyChainName`, `profileChainName`, `endpointChainName`
* `EndpointChainType`, `Chain`
* `DefaultRuleRenderer.appendConntrackRules`, `DefaultRuleRenderer.endpointIptablesChain`
* `DefaultRuleRenderer.workloadEndpointToIptablesChains`,
  `DefaultRuleRenderer.hostEndpointToFilterChains` and the other host endpoint chains
-/

namespace Felix.Rules

open Iptables

/-! ## Chain names -/

/-- `ChainNamePrefix`. -/
def chainNamePrefix : String := "cali-"

def chainFailsafeIn : String := chainNamePrefix ++ "failsafe-in"
def chainFailsafeOut : String := chainNamePrefix ++ "failsafe-out"

def policyInboundPfx : String := chainNamePrefix ++ "pi-"
def policyOutboundPfx : String := chainNamePrefix ++ "po-"
def profileInboundPfx : String := chainNamePrefix ++ "pri-"
def profileOutboundPfx : String := chainNamePrefix ++ "pro-"

def workloadToEndpointPfx : String := chainNamePrefix ++ "tw-"
def workloadFromEndpointPfx : String := chainNamePrefix ++ "fw-"
def hostToEndpointPfx : String := chainNamePrefix ++ "th-"
def hostFromEndpointPfx : String := chainNamePrefix ++ "fh-"
def hostToEndpointForwardPfx : String := chainNamePrefix ++ "thfw-"
def hostFromEndpointForwardPfx : String := chainNamePrefix ++ "fhfw-"

/-- `MaxChainNameLength`. -/
def maxChainNameLength : ℕ := 28

/-- `ProtoUDP` and `ProtoIPIP`. -/
def protoUDP : UInt8 := 17
def protoIPIP : UInt8 := 4

section Names

variable (hash : String → String)

/-- `GetLengthLimitedID`: the prefix and the suffix, unless that is too long, or exactly
long enough with a suffix starting with the `_` that marks a shortened name; then the
prefix, `_`, and as much of the suffix's hash as fits. Lengths count bytes. -/
def getLengthLimitedID (fixedPrefix suffix : String) (maxLength : ℕ) : String :=
  let totalLen := fixedPrefix.utf8ByteSize + suffix.utf8ByteSize
  if totalLen > maxLength ∨ (totalLen = maxLength ∧ suffix.toList.head? = some '_') then
    fixedPrefix ++ "_" ++
      String.ofList ((hash suffix).toList.take (maxLength - 1 - fixedPrefix.utf8ByteSize))
  else fixedPrefix ++ suffix

/-- `PolicyChainName`. -/
def policyChainName (prefix_ polID : String) : String :=
  getLengthLimitedID hash prefix_ polID maxChainNameLength

/-- `ProfileChainName`. -/
def profileChainName (prefix_ profID : String) : String :=
  getLengthLimitedID hash prefix_ profID maxChainNameLength

/-- `EndpointChainName`. -/
def endpointChainName (prefix_ ifaceName : String) : String :=
  getLengthLimitedID hash prefix_ ifaceName maxChainNameLength

end Names

/-! ## The chains -/

/-- `endpointChainType`: the filter table's chains are normal or, for forwarded traffic
through a host endpoint, forward; the raw table's are untracked and the mangle table's
pre-DNAT. -/
inductive EndpointChainType where
  | chainTypeNormal
  | chainTypeUntracked
  | chainTypePreDNAT
  | chainTypeForward
  deriving DecidableEq

/-- `iptables.Chain`. -/
structure Chain where
  name : String
  rules : List Rule

namespace DefaultRuleRenderer

/-- `filterAllowAction`: what `IptablesFilterAllowAction` names, `ACCEPT` by default. -/
def filterAllowAction (r : DefaultRuleRenderer) : Action :=
  if r.iptablesFilterAllowAction = "RETURN" then .returnAction else .acceptAction

/-- `mangleAllowAction`. -/
def mangleAllowAction (r : DefaultRuleRenderer) : Action :=
  if r.iptablesMangleAllowAction = "RETURN" then .returnAction else .acceptAction

/-- `appendConntrackRules`: the allow action for the packets of an established connection,
which are first marked accepted when that action only returns, and a drop of `INVALID`
packets unless that check is disabled. -/
def appendConntrackRules (r : DefaultRuleRenderer) (rules : List Rule) (allowAction : Action) :
    List Rule :=
  let rules :=
    if allowAction ≠ .acceptAction then
      rules ++ [⟨[.conntrackState "RELATED,ESTABLISHED"], .setMarkAction r.iptablesMarkAccept⟩]
    else rules
  let rules := rules ++ [⟨[.conntrackState "RELATED,ESTABLISHED"], allowAction⟩]
  if !r.disableConntrackInvalid then rules ++ [⟨[.conntrackState "INVALID"], .dropAction⟩]
  else rules

section Chains

variable (hash : String → String) (r : DefaultRuleRenderer)

/-- What the loop over the policies appends for one: the jump, unless an earlier policy
passed the packet, and the return once the policy has accepted it, after marking the
connection untracked in an untracked chain. -/
def policyJumpRules (policyPrefix : String) (chainType : EndpointChainType) (polID : String) :
    List Rule :=
  [⟨[.markClear r.iptablesMarkPass], .jumpAction (policyChainName hash policyPrefix polID)⟩] ++
    (if chainType = .chainTypeUntracked then
      [⟨[.markSingleBitSet r.iptablesMarkAccept], .noTrackAction⟩]
    else []) ++
    [⟨[.markSingleBitSet r.iptablesMarkAccept], .returnAction⟩]
attribute [grind] policyJumpRules

/-- What the loop over the profiles appends for one: the jump, and the return once the
profile has accepted the packet. -/
def profileJumpRules (profilePrefix profileID : String) : List Rule :=
  [⟨[], .jumpAction (profileChainName hash profilePrefix profileID)⟩,
    ⟨[.markSingleBitSet r.iptablesMarkAccept], .returnAction⟩]

/-- `endpointIptablesChain`. -/
def endpointIptablesChain (policyNames profileIds : List String)
    (name policyPrefix profilePrefix endpointPrefix failsafeChain : String)
    (chainType : EndpointChainType) (adminUp : Bool) (allowAction : Action)
    (allowVXLANEncap allowIPIPEncap : Bool) : Chain :=
  let chainName := endpointChainName hash endpointPrefix name
  if !adminUp then ⟨chainName, [⟨[], .dropAction⟩]⟩
  else
    -- a tracked chain lets the packets of allowed connections back
    let rules :=
      if chainType ≠ .chainTypeUntracked then r.appendConntrackRules [] allowAction else []
    let rules := if failsafeChain ≠ "" then rules ++ [⟨[], .jumpAction failsafeChain⟩] else rules
    -- the policies and profiles set the accept bit to accept the packet
    let rules := rules ++ [⟨[], .clearMarkAction r.iptablesMarkAccept⟩]
    let rules :=
      if !allowVXLANEncap then
        rules ++ [⟨[.protocolNum protoUDP, .destPorts [r.vxlanPort.toUInt16]], .dropAction⟩]
      else rules
    let rules := if !allowIPIPEncap then rules ++ [⟨[.protocolNum protoIPIP], .dropAction⟩] else rules
    let rules :=
      if policyNames ≠ [] then
        rules ++ [⟨[], .clearMarkAction r.iptablesMarkPass⟩] ++
          policyNames.flatMap (r.policyJumpRules hash policyPrefix chainType) ++
          -- normal and forward chains drop what no policy passed; the untracked and pre-DNAT
          -- ones leave it to the filter table
          (if chainType = .chainTypeNormal ∨ chainType = .chainTypeForward then
            [⟨[.markClear r.iptablesMarkPass], .dropAction⟩]
          else [])
      else if chainType = .chainTypeForward then
        -- forwarded traffic is allowed when no policy applies to it
        rules ++ [⟨[], .setMarkAction r.iptablesMarkAccept⟩, ⟨[], .returnAction⟩]
      else rules
    let rules :=
      if chainType = .chainTypeNormal then
        rules ++ profileIds.flatMap (r.profileJumpRules hash profilePrefix) ++ [⟨[], .dropAction⟩]
      else rules
    ⟨chainName, rules⟩
attribute [grind] endpointIptablesChain

/-- `WorkloadEndpointToIptablesChains`, without the chain that sets the endpoint mark for
IPVS: the chains to and from the workload. Encapsulated packets are always let to a
workload, and from it only as configured. -/
def workloadEndpointToIptablesChains (ifaceName : String) (adminUp : Bool)
    (ingressPolicies egressPolicies profileIDs : List String) : List Chain :=
  [r.endpointIptablesChain hash ingressPolicies profileIDs ifaceName policyInboundPfx
      profileInboundPfx workloadToEndpointPfx "" .chainTypeNormal adminUp r.filterAllowAction
      true true,
    r.endpointIptablesChain hash egressPolicies profileIDs ifaceName policyOutboundPfx
      profileOutboundPfx workloadFromEndpointPfx "" .chainTypeNormal adminUp r.filterAllowAction
      r.allowVXLANPacketsFromWorkloads r.allowIPIPPacketsFromWorkloads]

/-- `HostEndpointToFilterChains`, without the chain that sets the endpoint mark: the chains
for traffic to and from the host through the endpoint, which are admin up and go through the
failsafe chains, and for traffic forwarded through it. -/
def hostEndpointToFilterChains (ifaceName : String)
    (ingressPolicyNames egressPolicyNames ingressForwardPolicyNames egressForwardPolicyNames
      profileIDs : List String) : List Chain :=
  [r.endpointIptablesChain hash egressPolicyNames profileIDs ifaceName policyOutboundPfx
      profileOutboundPfx hostToEndpointPfx chainFailsafeOut .chainTypeNormal true
      r.filterAllowAction true true,
    r.endpointIptablesChain hash ingressPolicyNames profileIDs ifaceName policyInboundPfx
      profileInboundPfx hostFromEndpointPfx chainFailsafeIn .chainTypeNormal true
      r.filterAllowAction true true,
    r.endpointIptablesChain hash egressForwardPolicyNames profileIDs ifaceName policyOutboundPfx
      profileOutboundPfx hostToEndpointForwardPfx "" .chainTypeForward true r.filterAllowAction
      true true,
    r.endpointIptablesChain hash ingressForwardPolicyNames profileIDs ifaceName policyInboundPfx
      profileInboundPfx hostFromEndpointForwardPfx "" .chainTypeForward true r.filterAllowAction
      true true]

/-- `HostEndpointToMangleEgressChains`: the mangle table returns what it allows. -/
def hostEndpointToMangleEgressChains (ifaceName : String)
    (egressPolicyNames profileIDs : List String) : List Chain :=
  [r.endpointIptablesChain hash egressPolicyNames profileIDs ifaceName policyOutboundPfx
    profileOutboundPfx hostToEndpointPfx chainFailsafeOut .chainTypeNormal true .returnAction
    true true]

/-- `HostEndpointToRawEgressChain`: untracked policies, and no profiles. -/
def hostEndpointToRawEgressChain (ifaceName : String) (egressPolicyNames : List String) : Chain :=
  r.endpointIptablesChain hash egressPolicyNames [] ifaceName policyOutboundPfx
    profileOutboundPfx hostToEndpointPfx chainFailsafeOut .chainTypeUntracked true .acceptAction
    true true

/-- `HostEndpointToRawChains`. -/
def hostEndpointToRawChains (ifaceName : String) (ingressPolicyNames egressPolicyNames : List String) :
    List Chain :=
  [r.hostEndpointToRawEgressChain hash ifaceName egressPolicyNames,
    r.endpointIptablesChain hash ingressPolicyNames [] ifaceName policyInboundPfx
      profileInboundPfx hostFromEndpointPfx chainFailsafeIn .chainTypeUntracked true
      .acceptAction true true]

/-- `HostEndpointToMangleIngressChains`: pre-DNAT policies for traffic from the endpoint. -/
def hostEndpointToMangleIngressChains (ifaceName : String) (preDNATPolicyNames : List String) :
    List Chain :=
  [r.endpointIptablesChain hash preDNATPolicyNames [] ifaceName policyInboundPfx
    profileInboundPfx hostFromEndpointPfx chainFailsafeIn .chainTypePreDNAT true
    r.mangleAllowAction true true]

end Chains

end DefaultRuleRenderer

end Felix.Rules
