import Felix.Iptables.Rules

/-!
# Rendering a policy rule as iptables rules

`ProtoRuleToIptablesRules` renders one rule of a policy or profile as iptables rules. A rule
may hold more alternatives than one iptables rule can test: several CIDRs of one side, or
port lists that overflow a `multiport` match or come with named ports. Those are rendered as
blocks of rules ahead of the main rule, which record their result in two scratch mark bits:
`markAllBlocksPass`, meant to be set at the end of a block only if every block so far
matched, and `markThisBlockPass`, the result of the block being rendered. The main rule
then also tests `markAllBlocksPass`. A rule whose action takes two steps (allow and pass set
a mark, then return) is rendered as a rule that sets that mark, then a rule that returns on
it.

This module is the model of the renderer in `policy.go`, each function under its own name. A
function that panics returns an error with the panic's message.

## Main definitions

* `ProtoRule`, `filterRuleToIPVersion`, `splitPortList`
* `MatchBlockBuilder` and its `append` functions
* `DefaultRuleRenderer`, `calculateActions`, `calculateRuleMatch`, `protoRuleToIptablesRules`
-/

namespace Felix.Rules

open Iptables

/-- `proto.Protocol`: a protocol by name or by number. -/
inductive Protocol where
  | name (name : String)
  | number (number : UInt8)
  deriving DecidableEq

/-- The ICMP match of a rule: a type, or a type and a code. -/
inductive IcmpMatch where
  | icmpType (t : UInt8)
  | icmpTypeCode (t c : UInt8)
  deriving DecidableEq

/-- `proto.Rule`, with the fields the renderers read. Of the application layer matches, which
only the application layer dataplane enforces, the rule keeps whether it has them. -/
structure ProtoRule where
  action : String := ""
  ipVersion : ℕ := 0
  protocol : Option Protocol := none
  srcNet : List String := []
  srcPorts : List PortRange := []
  srcNamedPortIpSetIds : List String := []
  dstNet : List String := []
  dstPorts : List PortRange := []
  dstNamedPortIpSetIds : List String := []
  icmp : Option IcmpMatch := none
  srcIpSetIds : List String := []
  dstIpSetIds : List String := []
  dstIpPortSetIds : List String := []
  notProtocol : Option Protocol := none
  notSrcNet : List String := []
  notSrcPorts : List PortRange := []
  notDstNet : List String := []
  notDstPorts : List PortRange := []
  notIcmp : Option IcmpMatch := none
  notSrcIpSetIds : List String := []
  notDstIpSetIds : List String := []
  notSrcNamedPortIpSetIds : List String := []
  notDstNamedPortIpSetIds : List String := []
  hasHttpMatch : Bool := false
  hasSrcServiceAccountMatch : Bool := false
  hasDstServiceAccountMatch : Bool := false
  deriving DecidableEq

/-! ## Filtering to an IP version -/

/-- `filterNets`: the CIDRs of the IP version, and whether filtering emptied a list that was
not empty. A CIDR is IPv6 when it holds a colon. -/
def filterNets (mixedCIDRs : List String) (ipVersion : ℕ) : List String × Bool :=
  if mixedCIDRs = [] then ([], false)
  else
    -- `strings.Contains(net, ":")`, on the characters of `net`
    let filtered := mixedCIDRs.filter fun net => net.toList.contains ':' == (ipVersion == 6)
    (filtered, filtered = [])

/-- `FilterRuleToIPVersion`: nothing for a rule of the other IP version, or one whose CIDR
list of some field has no CIDR of this version; otherwise the rule with its CIDRs filtered. -/
def filterRuleToIPVersion (ipVersion : ℕ) (pRule : ProtoRule) : Option ProtoRule :=
  if pRule.ipVersion ≠ 0 ∧ pRule.ipVersion ≠ ipVersion then none
  else
    let (srcNet, srcAll) := filterNets pRule.srcNet ipVersion
    let (notSrcNet, notSrcAll) := filterNets pRule.notSrcNet ipVersion
    let (dstNet, dstAll) := filterNets pRule.dstNet ipVersion
    let (notDstNet, notDstAll) := filterNets pRule.notDstNet ipVersion
    if srcAll || notSrcAll || dstAll || notDstAll then none
    else some { pRule with srcNet, notSrcNet, dstNet, notDstNet }

/-- `SplitPortList`: the ports in order, in groups of at most 15 `multiport` slots, where a
single port takes one slot and a range two. -/
def splitPortList (ports : List PortRange) : List (List PortRange) :=
  let (splits, split, _) := ports.foldl (fun (acc : List (List PortRange) × List PortRange × ℕ)
      portRange =>
    let (splits, split, slotsAvailableInCurrentSplit) := acc
    let numSlotsRequired := if portRange.first = portRange.last then 1 else 2
    -- a port that does not fit starts a new split
    let (splits, split, slots) :=
      if slotsAvailableInCurrentSplit < numSlotsRequired then (splits ++ [split], [], 15)
      else (splits, split, slotsAvailableInCurrentSplit)
    (splits, split ++ [portRange], slots - numSlotsRequired)) ([], [], 15)
  if split = [] then splits else splits ++ [split]

/-! ## Match blocks -/

/-- `srcOrDst`: which side of the packet a block matches. -/
inductive SrcOrDst where
  | src
  | dst

/-- `MatchNet`. -/
def SrcOrDst.matchNet : SrcOrDst → String → Criterion
  | .src, cidr => .sourceNet cidr
  | .dst, cidr => .destNet cidr

/-- `AppendMatchPorts`. -/
def SrcOrDst.appendMatchPorts : SrcOrDst → MatchCriteria → List PortRange → MatchCriteria
  | .src, m, pr => m ++ [.sourcePortRanges pr]
  | .dst, m, pr => m ++ [.destPortRanges pr]

/-- `MatchIPPortIPSet`. -/
def SrcOrDst.matchIPPortIPSet : SrcOrDst → String → Criterion
  | .src, setID => .sourceIPPortSet setID
  | .dst, setID => .destIPPortSet setID

/-- `appendProtocolMatch`. -/
def appendProtocolMatch (m : MatchCriteria) : Option Protocol → MatchCriteria
  | none => m
  | some (.name name) => m ++ [.protocol name]
  | some (.number number) => m ++ [.protocolNum number]

/-- `matchBlockBuilder`: the blocks rendered so far and the two mark bits they use. -/
structure MatchBlockBuilder where
  usingMatchBlocks : Bool
  doneFirstPositiveMatchBlock : Bool
  markAllBlocksPass : UInt32
  markThisBlockPass : UInt32
  rules : List Rule

namespace MatchBlockBuilder

/-- `maybeAppendInitialRule`: before the first block, a rule that sets both bits to the given
initial value. -/
def maybeAppendInitialRule (markBitsToSetInitially : UInt32) (r : MatchBlockBuilder) :
    MatchBlockBuilder :=
  if r.usingMatchBlocks then r
  else
    { r with
      rules := r.rules ++
        [⟨[], .setMaskedMarkAction markBitsToSetInitially (r.markAllBlocksPass ||| r.markThisBlockPass)⟩]
      usingMatchBlocks := true }

/-- `positiveBlockMarkToSet`: the first positive block writes `markAllBlocksPass` directly,
the others `markThisBlockPass`. -/
def positiveBlockMarkToSet (r : MatchBlockBuilder) : UInt32 :=
  if !r.doneFirstPositiveMatchBlock then r.markAllBlocksPass else r.markThisBlockPass

/-- `finishPositiveBlock`: after a positive block other than the first, a rule that clears
`markAllBlocksPass` when `markThisBlockPass` is clear. -/
def finishPositiveBlock (r : MatchBlockBuilder) : MatchBlockBuilder :=
  if !r.doneFirstPositiveMatchBlock then { r with doneFirstPositiveMatchBlock := true }
  else
    { r with rules := r.rules ++ [⟨[.markClear r.markThisBlockPass], .clearMarkAction r.markAllBlocksPass⟩] }

/-- `AppendPortMatchBlock`: a rule for each split of the numeric ports and one for each
named-port IP set, each setting the block's bit. -/
def appendPortMatchBlock (nameForMainIPSet : String → String) (protocol : Option Protocol)
    (numericPortSplits : List (List PortRange)) (namedPortIPSetIDs : List String)
    (srcOrDst : SrcOrDst) (r : MatchBlockBuilder) : MatchBlockBuilder :=
  let r := r.maybeAppendInitialRule 0
  let markToSet := r.positiveBlockMarkToSet
  let r := { r with
    rules := r.rules ++
      (numericPortSplits.map fun split =>
        Rule.mk (srcOrDst.appendMatchPorts (appendProtocolMatch [] protocol) split)
          (.setMarkAction markToSet)) ++
      (namedPortIPSetIDs.map fun namedPortIPSetID =>
        Rule.mk [srcOrDst.matchIPPortIPSet (nameForMainIPSet namedPortIPSetID)]
          (.setMarkAction markToSet)) }
  r.finishPositiveBlock

/-- `AppendCIDRMatchBlock`: a rule for each CIDR, setting the block's bit. -/
def appendCIDRMatchBlock (cidrs : List String) (srcOrDst : SrcOrDst) (r : MatchBlockBuilder) :
    MatchBlockBuilder :=
  let r := r.maybeAppendInitialRule 0
  let markToSet := r.positiveBlockMarkToSet
  let r := { r with
    rules := r.rules ++ cidrs.map fun cidr => Rule.mk [srcOrDst.matchNet cidr] (.setMarkAction markToSet) }
  r.finishPositiveBlock

/-- `AppendNegatedCIDRMatchBlock`: a rule for each CIDR, clearing `markAllBlocksPass`; the
initial rule, if this is the first block, sets it. -/
def appendNegatedCIDRMatchBlock (cidrs : List String) (srcOrDst : SrcOrDst) (r : MatchBlockBuilder) :
    MatchBlockBuilder :=
  let r := r.maybeAppendInitialRule r.markAllBlocksPass
  { r with
    rules := r.rules ++
      cidrs.map fun cidr => Rule.mk [srcOrDst.matchNet cidr] (.clearMarkAction r.markAllBlocksPass) }

end MatchBlockBuilder

/-! ## The renderer -/

/-- `ipsets.IPVersionConfig`, with the field that names the main IP sets. -/
structure IPVersionConfig where
  mainSetNamePrefix : String

/-- `MaxIPSetNameLength`. -/
def maxIPSetNameLength : ℕ := 31

/-- `combineAndTrunc`. -/
def combineAndTrunc (pfx suffix : String) (maxLength : ℕ) : String :=
  let combined := pfx ++ suffix
  if combined.length > maxLength then String.ofList (combined.toList.take maxLength) else combined

/-- `NameForMainIPSet`. -/
def IPVersionConfig.nameForMainIPSet (c : IPVersionConfig) (setID : String) : String :=
  combineAndTrunc c.mainSetNamePrefix setID maxIPSetNameLength

/-- `DefaultRuleRenderer`, with the configuration rendering a rule or an endpoint chain
reads. The settings have the defaults of their configuration parameters. -/
structure DefaultRuleRenderer where
  iptablesMarkAccept : UInt32
  iptablesMarkPass : UInt32
  iptablesMarkScratch0 : UInt32
  iptablesMarkScratch1 : UInt32
  iptablesLogPrefix : String
  ipSetConfigV4 : IPVersionConfig
  ipSetConfigV6 : IPVersionConfig
  /-- `ACCEPT`, or `RETURN` to leave the verdict to the chain that jumped. -/
  iptablesFilterAllowAction : String := "ACCEPT"
  iptablesMangleAllowAction : String := "ACCEPT"
  vxlanPort : ℕ := 4789
  allowVXLANPacketsFromWorkloads : Bool := false
  allowIPIPPacketsFromWorkloads : Bool := false
  disableConntrackInvalid : Bool := false

namespace DefaultRuleRenderer

/-- `CalculateActions`: the mark to set first, or `0`, and the actions. -/
def calculateActions (r : DefaultRuleRenderer) (pRule : ProtoRule) :
    Except String (UInt32 × List Action) :=
  match pRule.action with
  | "" | "allow" => .ok (r.iptablesMarkAccept, [.returnAction])
  | "next-tier" | "pass" => .ok (r.iptablesMarkPass, [.returnAction])
  | "deny" => .ok (0, [.dropAction])
  | "log" => .ok (0, [.logAction r.iptablesLogPrefix])
  | _ => .error "Unknown rule action"

/-- The criteria for a list the caller has cut down to at most one element; more is a bug,
and panics with the message. -/
def atMostOne (message : String) (criterion : String → Criterion) :
    List String → Except String MatchCriteria
  | [] => .ok []
  | [x] => .ok [criterion x]
  | _ => .error message

/-- The ICMP criteria: `-m icmp` for IPv4, `-m icmp6` otherwise. -/
def icmpMatch (ipVersion : ℕ) : Option IcmpMatch → MatchCriteria
  | none => []
  | some (.icmpTypeCode t c) => [if ipVersion = 4 then .icmpTypeAndCode t c else .icmpV6TypeAndCode t c]
  | some (.icmpType t) => [if ipVersion = 4 then .icmpType t else .icmpV6Type t]

/-- The negated ICMP criteria. -/
def notIcmpMatch (ipVersion : ℕ) : Option IcmpMatch → MatchCriteria
  | none => []
  | some (.icmpTypeCode t c) =>
    [if ipVersion = 4 then .notICMPTypeAndCode t c else .notICMPV6TypeAndCode t c]
  | some (.icmpType t) => [if ipVersion = 4 then .notICMPType t else .notICMPV6Type t]

/-- The negated protocol criterion. -/
def notProtocolMatch : Option Protocol → MatchCriteria
  | none => []
  | some (.name name) => [.notProtocol name]
  | some (.number number) => [.notProtocolNum number]

/-- `CalculateRuleMatch`: the positive criteria, then the negated ones, in the source's order.
A positive port list must fit in one `multiport` match; a negated one is split, each split a
match of its own. -/
def calculateRuleMatch (r : DefaultRuleRenderer) (pRule : ProtoRule) (ipVersion : ℕ) :
    Except String MatchCriteria := do
  let nameForIPSet := fun ipsetID =>
    if ipVersion = 4 then r.ipSetConfigV4.nameForMainIPSet ipsetID
    else r.ipSetConfigV6.nameForMainIPSet ipsetID
  let srcNet ← atMostOne "CalculateRuleMatch() passed more than one CIDR in SrcNet." .sourceNet
    pRule.srcNet
  let srcNamedPorts ← atMostOne "Bug: More than one source IP set ID left in rule."
    (.sourceIPPortSet ∘ nameForIPSet) pRule.srcNamedPortIpSetIds
  let dstNet ← atMostOne "CalculateRuleMatch() passed more than one CIDR in DstNet." .destNet
    pRule.dstNet
  let dstNamedPorts ← atMostOne "Bug: More than one source IP set ID left in rule."
    (.destIPPortSet ∘ nameForIPSet) pRule.dstNamedPortIpSetIds
  let notSrcNet ← atMostOne "CalculateRuleMatch() passed more than one CIDR in NotSrcNet."
    .notSourceNet pRule.notSrcNet
  let notDstNet ← atMostOne "CalculateRuleMatch() passed more than one CIDR in NotDstNet."
    .notDestNet pRule.notDstNet
  pure <|
    appendProtocolMatch [] pRule.protocol ++ srcNet ++
    pRule.srcIpSetIds.map (.sourceIPSet ∘ nameForIPSet) ++
    (if pRule.srcPorts = [] then [] else [.sourcePortRanges pRule.srcPorts]) ++ srcNamedPorts ++
    dstNet ++ pRule.dstIpSetIds.map (.destIPSet ∘ nameForIPSet) ++
    pRule.dstIpPortSetIds.map (.destIPPortSet ∘ nameForIPSet) ++
    (if pRule.dstPorts = [] then [] else [.destPortRanges pRule.dstPorts]) ++ dstNamedPorts ++
    icmpMatch ipVersion pRule.icmp ++
    -- the negated criteria
    notProtocolMatch pRule.notProtocol ++ notSrcNet ++
    pRule.notSrcIpSetIds.map (.notSourceIPSet ∘ nameForIPSet) ++
    (splitPortList pRule.notSrcPorts).map .notSourcePortRanges ++
    pRule.notSrcNamedPortIpSetIds.map (.notSourceIPPortSet ∘ nameForIPSet) ++
    notDstNet ++ pRule.notDstIpSetIds.map (.notDestIPSet ∘ nameForIPSet) ++
    (splitPortList pRule.notDstPorts).map .notDestPortRanges ++
    pRule.notDstNamedPortIpSetIds.map (.notDestIPPortSet ∘ nameForIPSet) ++
    notIcmpMatch ipVersion pRule.notIcmp

/-- The blocks `ProtoRuleToIptablesRules` renders ahead of the main rule, in order: source
ports, destination ports, source CIDRs, destination CIDRs, then the negated source and
destination CIDRs; and the rule with what the blocks took out of it. -/
def renderBlocks (ipSetConfig : IPVersionConfig) (b : MatchBlockBuilder) (ruleCopy : ProtoRule) :
    MatchBlockBuilder × ProtoRule :=
  let srcPortSplits := splitPortList ruleCopy.srcPorts
  let (b, ruleCopy) :=
    if srcPortSplits.length + ruleCopy.srcNamedPortIpSetIds.length > 1 then
      (b.appendPortMatchBlock ipSetConfig.nameForMainIPSet ruleCopy.protocol srcPortSplits
          ruleCopy.srcNamedPortIpSetIds .src,
        { ruleCopy with srcPorts := [], srcNamedPortIpSetIds := [] })
    else (b, ruleCopy)
  let dstPortSplits := splitPortList ruleCopy.dstPorts
  let (b, ruleCopy) :=
    if dstPortSplits.length + ruleCopy.dstNamedPortIpSetIds.length > 1 then
      (b.appendPortMatchBlock ipSetConfig.nameForMainIPSet ruleCopy.protocol dstPortSplits
          ruleCopy.dstNamedPortIpSetIds .dst,
        { ruleCopy with dstPorts := [], dstNamedPortIpSetIds := [] })
    else (b, ruleCopy)
  let (b, ruleCopy) :=
    if ruleCopy.srcNet.length > 1 then
      (b.appendCIDRMatchBlock ruleCopy.srcNet .src, { ruleCopy with srcNet := [] })
    else (b, ruleCopy)
  let (b, ruleCopy) :=
    if ruleCopy.dstNet.length > 1 then
      (b.appendCIDRMatchBlock ruleCopy.dstNet .dst, { ruleCopy with dstNet := [] })
    else (b, ruleCopy)
  -- a negated block is needed when the negated CIDRs do not fit beside a remaining positive one
  let (b, ruleCopy) :=
    if ruleCopy.srcNet.length + ruleCopy.notSrcNet.length > 1 then
      (b.appendNegatedCIDRMatchBlock ruleCopy.notSrcNet .src, { ruleCopy with notSrcNet := [] })
    else (b, ruleCopy)
  if ruleCopy.dstNet.length + ruleCopy.notDstNet.length > 1 then
    (b.appendNegatedCIDRMatchBlock ruleCopy.notDstNet .dst, { ruleCopy with notDstNet := [] })
  else (b, ruleCopy)

/-- `ProtoRuleToIptablesRules`: the blocks, then the main rule, split in two when its action
sets a mark before returning. -/
def protoRuleToIptablesRules (r : DefaultRuleRenderer) (pRule : ProtoRule) (ipVersion : ℕ) :
    Except String (List Rule) :=
  match filterRuleToIPVersion ipVersion pRule with
  | none => .ok []
  | some ruleCopy => do
    let ipSetConfig := if ipVersion = 4 then r.ipSetConfigV4 else r.ipSetConfigV6
    let (b, ruleCopy) := renderBlocks ipSetConfig
      ⟨false, false, r.iptablesMarkScratch0, r.iptablesMarkScratch1, []⟩ ruleCopy
    let ruleMatch ← r.calculateRuleMatch ruleCopy ipVersion
    let ruleMatch :=
      if b.usingMatchBlocks then ruleMatch ++ [.markSingleBitSet b.markAllBlocksPass] else ruleMatch
    let (markBit, actions) ← r.calculateActions ruleCopy
    let (rs, ruleMatch) :=
      if markBit ≠ 0 then (b.rules ++ [⟨ruleMatch, .setMarkAction markBit⟩], [.markSingleBitSet markBit])
      else (b.rules, ruleMatch)
    pure (rs ++ actions.map fun action => ⟨ruleMatch, action⟩)

end DefaultRuleRenderer

end Felix.Rules
