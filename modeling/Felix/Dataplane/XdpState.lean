import Felix.Collections.IterSet
import Felix.Rules.PolicySpec
import Mathlib

/-!
# The XDP blocklist of a host endpoint

`xdpIPState` (`dataplane/linux/xdp_state.go`) turns the untracked ingress policies of host
endpoints into XDP programs that drop packets from the members of some IP sets. A policy can
be optimised when its first inbound rule does nothing but deny traffic from one IP set
(`isValidRuleForXDP`), and of each untracked tier only the first ingress policy is considered
(`getPolicyIDs`). When an interface gets a host endpoint, the state records the IP sets of the
policies it selected (`processHostEndpointChange`); XDP then drops every packet whose source is
a member of one of them.

The untracked policy itself runs the tiers in order, and a tier ends the evaluation unless its
first matching rule passes the packet on. A selected policy's deny rule therefore only decides
for the packets that reach its tier: every blocked packet is denied by the first rule of the
first policy of some untracked tier (`xdp_blocked_by_first_rule`), which is the evaluation's
verdict when there is a single untracked tier (`xdp_blocks_only_denied_of_one_tier`); but a
first tier that allows the packet does not stop XDP from dropping it
(`xdp_drops_packet_allowed_by_earlier_tier`).

## Main definitions

* `isValidRuleForXDP`, `xdpRulesFromProtoRules`, `getPolicyIDs`, `getSetIDs`
* `XdpIPState`, `updatePolicy`, `getLatestRulesForPolicyID`, `processHostEndpointChange`
* `untrackedIngress`: the untracked ingress evaluation of a packet
* `XdpIfaceData.blocks`: XDP drops the packet
-/

namespace Felix.Dataplane

open Rules Iptables

/-- `proto.PolicyID`. -/
structure PolicyID where
  tier : String
  name : String
  deriving DecidableEq

/-- `proto.Policy`, with the fields the XDP state reads. -/
structure ProtoPolicy where
  inboundRules : List ProtoRule
  outboundRules : List ProtoRule

/-- `proto.TierInfo`. -/
structure TierInfo where
  name : String
  ingressPolicies : List String
  egressPolicies : List String

/-- `proto.HostEndpoint`, with the field the XDP state reads. -/
structure HostEndpoint where
  untrackedTiers : List TierInfo

/-- `xdpRule`: drop the packets from the members of these IP sets. -/
structure XdpRule where
  setIDs : List String
  deriving DecidableEq

/-- `xdpRules`. -/
structure XdpRules where
  rules : List XdpRule
  deriving DecidableEq

/-- `xdpIfaceData`: the host endpoint of an interface, and the IP sets of each policy it
optimises. -/
structure XdpIfaceData where
  epID : String
  policiesToSetIDs : AList (fun _ : PolicyID => IterSet String)

/-! ## Which policies XDP can enforce -/

/-- `isValidRuleForXDP`: a deny rule for IPv4 traffic whose only criterion is one source IP
set. -/
def isValidRuleForXDP (rule : ProtoRule) : Bool :=
  rule.action == "deny" &&
    (rule.ipVersion == 0 || rule.ipVersion == 4) &&
    rule.protocol.isNone &&
    rule.srcNet.isEmpty &&
    rule.srcPorts.isEmpty &&
    rule.srcNamedPortIpSetIds.isEmpty &&
    rule.srcIpSetIds.length == 1 &&
    rule.notProtocol.isNone &&
    rule.notSrcNet.isEmpty &&
    rule.notSrcPorts.isEmpty &&
    rule.notSrcIpSetIds.isEmpty &&
    rule.notSrcNamedPortIpSetIds.isEmpty &&
    rule.icmp.isNone &&
    rule.notIcmp.isNone &&
    rule.dstNet.isEmpty &&
    rule.dstPorts.isEmpty &&
    rule.dstNamedPortIpSetIds.isEmpty &&
    rule.dstIpSetIds.isEmpty &&
    rule.dstIpPortSetIds.isEmpty &&
    rule.notDstNet.isEmpty &&
    rule.notDstPorts.isEmpty &&
    rule.notDstIpSetIds.isEmpty &&
    rule.notDstNamedPortIpSetIds.isEmpty &&
    !rule.hasHttpMatch &&
    !rule.hasSrcServiceAccountMatch &&
    !rule.hasDstServiceAccountMatch
attribute [grind] isValidRuleForXDP

/-- `xdpRulesFromProtoRules`: a policy is optimised by the source IP sets of its first inbound
rule, when that rule is valid for XDP; the rules after it are not looked at. -/
def xdpRulesFromProtoRules (inboundRules _outboundRules : List ProtoRule) : XdpRules × Bool :=
  match inboundRules with
  | first :: _ => if isValidRuleForXDP first then (⟨[⟨first.srcIpSetIds⟩]⟩, true) else (⟨[]⟩, false)
  | [] => (⟨[]⟩, false)

/-- `getPolicyIDs`: the first ingress policy of each untracked tier. An absent endpoint has no
tiers. -/
def getPolicyIDs (hep : Option HostEndpoint) : List PolicyID :=
  ((hep.map (·.untrackedTiers)).getD []).flatMap fun tier =>
    -- the source's loop breaks after the first policy of the tier
    (tier.ingressPolicies.head?.map fun policyName => ⟨tier.name, policyName⟩).toList

/-- `getSetIDs`: the IP sets of all the rules. -/
def getSetIDs (rules : XdpRules) : IterSet String :=
  rules.rules.foldl (fun setIDs rule => rule.setIDs.foldl (fun setIDs setID => setIDs.add setID) setIDs) ∅

/-- `NeedsXDP`: some optimised policy has an IP set. -/
def XdpIfaceData.needsXDP (d : XdpIfaceData) : Bool :=
  d.policiesToSetIDs.entries.any fun e => !e.2.toList.isEmpty

/-! ## The state -/

/-- `xdpBPFActions`, with the interface sets that a host endpoint change adds to. -/
structure XdpBPFActions where
  createMap : IterSet String
  removeMap : IterSet String
  installXDP : IterSet String
  uninstallXDP : IterSet String

/-- The parts of `xdpIPState` that the policy callbacks and a host endpoint change read and
write: the pending policy changes, the new current state's eligible policies and interface
data, and the BPF actions to take. -/
structure XdpIPState where
  policiesToUpdate : AList (fun _ : PolicyID => Option XdpRules)
  policiesToRemove : IterSet PolicyID
  xdpEligiblePolicies : AList (fun _ : PolicyID => XdpRules)
  ifaceNameToData : AList (fun _ : String => XdpIfaceData)
  bpfActions : XdpBPFActions

/-- `newXDPIPState`. -/
def newXDPIPState : XdpIPState := ⟨∅, ∅, ∅, ∅, ⟨∅, ∅, ∅, ∅⟩⟩

/-- Reference counts of IP sets, as in `changeInMaps`. -/
abbrev SetCounts := AList (fun _ : String => ℤ)

/-- Add `d` to the count of each of the IP sets. -/
def addCounts (d : ℤ) (setIDs : List String) (m : SetCounts) : SetCounts :=
  setIDs.foldl (fun m setID => m.insert setID ((m.lookup setID).getD 0 + d)) m

namespace XdpIPState

/-- `updatePolicy`: the policy's optimised rules, or `nil` when it cannot be optimised, become
its pending update. -/
def updatePolicy (policyID : PolicyID) (policy : ProtoPolicy) (s : XdpIPState) : XdpIPState :=
  let s := { s with policiesToRemove := s.policiesToRemove.discard policyID }
  match xdpRulesFromProtoRules policy.inboundRules policy.outboundRules with
  | (xdpRules, true) => { s with policiesToUpdate := s.policiesToUpdate.insert policyID (some xdpRules) }
  | (_, false) => { s with policiesToUpdate := s.policiesToUpdate.insert policyID none }

/-- `getLatestRulesForPolicyID`: the pending update of the policy if it has one, or else its
rules among the eligible policies. -/
def getLatestRulesForPolicyID (s : XdpIPState) (policyID : PolicyID) : Option XdpRules :=
  match s.policiesToUpdate.lookup policyID with
  | some rules => rules
  | none => s.xdpEligiblePolicies.lookup policyID

/-- A turn of the loop over the endpoint's policies: a policy that can be optimised is recorded
with its IP sets, and each of them is counted. -/
def addPolicySetIDs (s : XdpIPState)
    (acc : AList (fun _ : PolicyID => IterSet String) × SetCounts) (policyID : PolicyID) :
    AList (fun _ : PolicyID => IterSet String) × SetCounts :=
  match s.getLatestRulesForPolicyID policyID with
  | none => acc
  | some rules =>
    let rulesSetIDs := getSetIDs rules
    (acc.1.insert policyID rulesSetIDs, addCounts 1 rulesSetIDs.toList acc.2)

/-- `processHostEndpointChange`: the interface gets the data of its new host endpoint; XDP is
installed or uninstalled when the need for it changes; and the reference counts of the IP sets
in the interface's map change by the new counts less the old. -/
def processHostEndpointChange (ifaceName : String) (oldData : XdpIfaceData) (newHepID : String)
    (newEP : Option HostEndpoint) (changeInMaps : AList (fun _ : String => SetCounts))
    (s : XdpIPState) : XdpIPState × AList (fun _ : String => SetCounts) :=
  let oldSetIDs := oldData.policiesToSetIDs.entries.foldl (fun m e => addCounts 1 e.2.toList m) ∅
  let newPolicyIDs := getPolicyIDs newEP
  let (policiesToSetIDs, newSetIDs) := newPolicyIDs.foldl s.addPolicySetIDs (∅, ∅)
  let newData : XdpIfaceData := ⟨newHepID, policiesToSetIDs⟩
  let s := { s with ifaceNameToData := s.ifaceNameToData.insert ifaceName newData }
  let ba := s.bpfActions
  let ba :=
    if oldData.needsXDP && !newData.needsXDP then
      { ba with uninstallXDP := ba.uninstallXDP.add ifaceName, removeMap := ba.removeMap.add ifaceName }
    else if !oldData.needsXDP && newData.needsXDP then
      { ba with installXDP := ba.installXDP.add ifaceName, createMap := ba.createMap.add ifaceName }
    else ba
  let m := (changeInMaps.lookup ifaceName).getD ∅
  let m := newSetIDs.entries.foldl (fun m e => addCounts e.2 [e.1] m) m
  let m := oldSetIDs.entries.foldl (fun m e => addCounts (-e.2) [e.1] m) m
  ({ s with bpfActions := ba }, changeInMaps.insert ifaceName m)

end XdpIPState

/-! ## The untracked ingress evaluation -/

section Evaluation

variable {Addr : Type} (env : Env Addr) (nameForIPSet : String → String)

/-- What a rule does to a packet it applies to, by its action as `calculateActions` reads it. -/
inductive RuleEffect where
  | allow
  | deny
  /-- The packet goes on to the next tier. -/
  | pass
  /-- The rule does not decide: it logs, or has no action the renderer knows. -/
  | continue
  deriving DecidableEq

def actionEffect : String → RuleEffect
  | "" | "allow" => .allow
  | "next-tier" | "pass" => .pass
  | "deny" => .deny
  | _ => .continue

/-- What the untracked policy does with an IPv4 packet. -/
inductive UntrackedVerdict where
  | allow
  | deny
  /-- No tier decided: the packet goes on to normal processing. -/
  | normal
  deriving DecidableEq

/-- The rule applies to an IPv4 packet and decides about it. -/
def ruleDecides (pkt : Packet Addr) (rule : ProtoRule) : Bool :=
  (rule.ipVersion == 0 || rule.ipVersion == 4) && actionEffect rule.action != .continue &&
    rule.criteriaHold env nameForIPSet pkt

/-- What the first rule that decides does, if one does. -/
def firstDecision (pkt : Packet Addr) (rules : List ProtoRule) : Option RuleEffect :=
  (rules.find? (ruleDecides env nameForIPSet pkt)).map (actionEffect ·.action)

/-- The untracked ingress evaluation: the tiers in order, and in each tier its policies' rules
in order; the first rule that decides allows, denies or passes the packet to the next tier, and
a tier where none decides hands the packet to normal processing. -/
def untrackedIngress (policies : PolicyID → ProtoPolicy) (pkt : Packet Addr) :
    List TierInfo → UntrackedVerdict
  | [] => .normal
  | tier :: tiers =>
    match firstDecision env nameForIPSet pkt
        (tier.ingressPolicies.flatMap fun name => (policies ⟨tier.name, name⟩).inboundRules) with
    | some .allow => .allow
    | some .deny => .deny
    | some .pass => untrackedIngress policies pkt tiers
    | _ => .normal

/-- XDP drops the packet: its source is a member of an IP set of an optimised policy. -/
def XdpIfaceData.blocks (d : XdpIfaceData) (src : Addr) : Bool :=
  d.policiesToSetIDs.entries.any fun e => e.2.toList.any fun setID => env.inIPSet (nameForIPSet setID) src

end Evaluation

/-! ## What XDP enforces

A rule valid for XDP applies to exactly the IPv4 packets from its one IP set, and denies them.
A state whose latest rules are those of the current policies selects, for an interface, the
first policy of some untracked tiers, and blocks the sources in the IP sets of their first
rules: every blocked packet is denied by such a rule. -/

section Enforcement

variable {Addr : Type} (env : Env Addr) (nameForIPSet : String → String)

theorem criteriaHold_of_isValidRuleForXDP {rule : ProtoRule} (pkt : Packet Addr)
    (h : isValidRuleForXDP rule = true) :
    rule.criteriaHold env nameForIPSet pkt =
      rule.srcIpSetIds.all fun id => env.inIPSet (nameForIPSet id) pkt.srcAddr := by
  simp only [isValidRuleForXDP, Bool.and_eq_true, List.isEmpty_iff, Option.isNone_iff_eq_none] at h
  simp [ProtoRule.criteriaHold, portAllowed, inPortRanges, h]

variable {env nameForIPSet}

/-- What the proofs read of a rule valid for XDP: it denies, it is for IPv4, and it has one
source IP set. -/
theorem isValidRuleForXDP_spec {rule : ProtoRule} (h : isValidRuleForXDP rule = true) :
    rule.action = "deny" ∧ (rule.ipVersion == 0 || rule.ipVersion == 4) = true ∧
      ∃ setID, rule.srcIpSetIds = [setID] := by
  simp only [isValidRuleForXDP, Bool.and_eq_true, beq_iff_eq] at h
  exact ⟨by simp [h], by simp [h], List.length_eq_one_iff.mp (by simp [h])⟩

theorem actionEffect_of_isValidRuleForXDP {rule : ProtoRule} (h : isValidRuleForXDP rule = true) :
    actionEffect rule.action = .deny := by
  rw [(isValidRuleForXDP_spec h).1]
  rfl

/-- A rule valid for XDP decides about an IPv4 packet exactly when the packet's source is in
its IP set. -/
theorem ruleDecides_of_isValidRuleForXDP {rule : ProtoRule} (pkt : Packet Addr)
    (h : isValidRuleForXDP rule = true) :
    ruleDecides env nameForIPSet pkt rule =
      rule.srcIpSetIds.all fun id => env.inIPSet (nameForIPSet id) pkt.srcAddr := by
  rw [ruleDecides, (isValidRuleForXDP_spec h).2.1, actionEffect_of_isValidRuleForXDP h,
    criteriaHold_of_isValidRuleForXDP env nameForIPSet pkt h]
  rfl

/-- A policy is optimised only by the IP sets of its first inbound rule, which is valid for
XDP. -/
theorem xdpRulesFromProtoRules_eq_true {inboundRules outboundRules : List ProtoRule}
    {rules : XdpRules} (h : xdpRulesFromProtoRules inboundRules outboundRules = (rules, true)) :
    ∃ rule rest, inboundRules = rule :: rest ∧ isValidRuleForXDP rule = true ∧
      rules = ⟨[⟨rule.srcIpSetIds⟩]⟩ := by
  cases inboundRules with
  | nil => simp [xdpRulesFromProtoRules] at h
  | cons rule rest =>
    by_cases hv : isValidRuleForXDP rule = true
    · simp only [xdpRulesFromProtoRules, hv, if_true, Prod.mk.injEq] at h
      exact ⟨rule, rest, rfl, hv, h.1.symm⟩
    · simp [xdpRulesFromProtoRules, hv] at h

theorem mem_getSetIDs {rules : XdpRules} {setID : String} :
    setID ∈ getSetIDs rules ↔ ∃ rule ∈ rules.rules, setID ∈ rule.setIDs := by
  -- the outer loop adds each rule's IP sets to those of the rules before it
  have h : ∀ (rs : List XdpRule) (acc : IterSet String),
      setID ∈ rs.foldl (fun setIDs rule => rule.setIDs.foldl (fun setIDs setID => setIDs.add setID) setIDs) acc ↔
        (∃ rule ∈ rs, setID ∈ rule.setIDs) ∨ setID ∈ acc := by
    intro rs
    induction rs with
    | nil => simp
    | cons r rs ih =>
      intro acc
      rw [List.foldl_cons, ih, IterSet.mem_foldl_add]
      simp only [List.mem_cons, exists_eq_or_imp]
      rw [or_assoc, or_left_comm]
  rw [getSetIDs, h]
  simp

theorem mem_getPolicyIDs {hep : HostEndpoint} {policyID : PolicyID} :
    policyID ∈ getPolicyIDs (some hep) ↔
      ∃ tier ∈ hep.untrackedTiers, tier.name = policyID.tier ∧ tier.ingressPolicies.head? = some policyID.name := by
  simp only [getPolicyIDs, Option.map_some, Option.getD_some, List.mem_flatMap, Option.mem_toList,
    Option.map_eq_some_iff]
  constructor
  · rintro ⟨tier, htier, name, hname, rfl⟩
    exact ⟨tier, htier, rfl, hname⟩
  · rintro ⟨tier, htier, htn, hname⟩
    exact ⟨tier, htier, policyID.name, hname, by rw [htn]⟩

namespace XdpIPState

variable {s : XdpIPState}

/-- The state's latest rules of each policy are what `xdpRulesFromProtoRules` makes of its
current rules. -/
def Tracks (policies : PolicyID → ProtoPolicy) (s : XdpIPState) : Prop :=
  ∀ policyID rules, s.getLatestRulesForPolicyID policyID = some rules →
    xdpRulesFromProtoRules (policies policyID).inboundRules (policies policyID).outboundRules = (rules, true)

theorem tracks_newXDPIPState (policies : PolicyID → ProtoPolicy) : newXDPIPState.Tracks policies := by
  intro policyID rules h
  simp [getLatestRulesForPolicyID, newXDPIPState] at h

theorem getLatestRulesForPolicyID_updatePolicy_self (policyID : PolicyID) (policy : ProtoPolicy)
    (rules : XdpRules) :
    (s.updatePolicy policyID policy).getLatestRulesForPolicyID policyID = some rules ↔
      xdpRulesFromProtoRules policy.inboundRules policy.outboundRules = (rules, true) := by
  unfold updatePolicy getLatestRulesForPolicyID
  rcases xdpRulesFromProtoRules policy.inboundRules policy.outboundRules with ⟨xdpRules, _ | _⟩ <;>
    simp [AList.lookup_insert]

theorem getLatestRulesForPolicyID_updatePolicy_of_ne {policyID policyID' : PolicyID}
    (policy : ProtoPolicy) (hne : policyID' ≠ policyID) :
    (s.updatePolicy policyID policy).getLatestRulesForPolicyID policyID' =
      s.getLatestRulesForPolicyID policyID' := by
  unfold updatePolicy getLatestRulesForPolicyID
  rcases xdpRulesFromProtoRules policy.inboundRules policy.outboundRules with ⟨xdpRules, _ | _⟩ <;>
    simp [AList.lookup_insert_ne hne]

/-- `updatePolicy` keeps the state's latest rules those of the policies, with the updated one. -/
theorem Tracks.updatePolicy {policies : PolicyID → ProtoPolicy} (h : s.Tracks policies)
    (policyID : PolicyID) (policy : ProtoPolicy) :
    (s.updatePolicy policyID policy).Tracks (Function.update policies policyID policy) := by
  intro policyID' rules hr
  by_cases hp : policyID' = policyID
  · subst hp
    rw [Function.update_self]
    exact (getLatestRulesForPolicyID_updatePolicy_self policyID' policy rules).mp hr
  · rw [Function.update_of_ne hp]
    exact h policyID' rules (by rwa [getLatestRulesForPolicyID_updatePolicy_of_ne policy hp] at hr)

theorem lookup_addPolicySetIDs {acc : AList (fun _ : PolicyID => IterSet String) × SetCounts}
    {policyID policyID' : PolicyID} {setIDs : IterSet String}
    (h : (s.addPolicySetIDs acc policyID).1.lookup policyID' = some setIDs) :
    acc.1.lookup policyID' = some setIDs ∨ policyID' = policyID ∧
      ∃ rules, s.getLatestRulesForPolicyID policyID' = some rules ∧ setIDs = getSetIDs rules := by
  unfold addPolicySetIDs at h
  cases hr : s.getLatestRulesForPolicyID policyID with
  | none =>
    rw [hr] at h
    exact .inl h
  | some rules =>
    rw [hr] at h
    by_cases hp : policyID' = policyID
    · subst hp
      simp only [AList.lookup_insert, Option.some.injEq] at h
      exact .inr ⟨rfl, rules, hr, h.symm⟩
    · rw [AList.lookup_insert_ne hp] at h
      exact .inl h

/-- Each policy the loop records is one of the endpoint's, with the IP sets of its latest
rules. -/
theorem lookup_foldl_addPolicySetIDs {policyIDs : List PolicyID}
    {acc : AList (fun _ : PolicyID => IterSet String) × SetCounts} {policyID : PolicyID}
    {setIDs : IterSet String} (h : (policyIDs.foldl s.addPolicySetIDs acc).1.lookup policyID = some setIDs) :
    acc.1.lookup policyID = some setIDs ∨ policyID ∈ policyIDs ∧
      ∃ rules, s.getLatestRulesForPolicyID policyID = some rules ∧ setIDs = getSetIDs rules := by
  induction policyIDs generalizing acc with
  | nil => exact .inl h
  | cons policyID' policyIDs ih =>
    rcases ih h with h' | ⟨hm, hr⟩
    · rcases lookup_addPolicySetIDs h' with h'' | ⟨rfl, hr⟩
      · exact .inl h''
      · exact .inr ⟨List.mem_cons_self, hr⟩
    · exact .inr ⟨List.mem_cons_of_mem _ hm, hr⟩

theorem lookup_processHostEndpointChange (ifaceName : String) (oldData : XdpIfaceData)
    (newHepID : String) (newEP : Option HostEndpoint) (changeInMaps : AList (fun _ : String => SetCounts)) :
    (s.processHostEndpointChange ifaceName oldData newHepID newEP changeInMaps).1.ifaceNameToData.lookup
        ifaceName = some ⟨newHepID, ((getPolicyIDs newEP).foldl s.addPolicySetIDs (∅, ∅)).1⟩ := by
  simp [processHostEndpointChange, AList.lookup_insert]

end XdpIPState

theorem firstDecision_cons_of_ruleDecides {pkt : Packet Addr} {rule : ProtoRule}
    (rest : List ProtoRule) (h : ruleDecides env nameForIPSet pkt rule = true) :
    firstDecision env nameForIPSet pkt (rule :: rest) = some (actionEffect rule.action) := by
  rw [firstDecision, List.find?_cons_of_pos h]
  rfl

/-- Every packet that XDP drops on an interface is denied by the first rule of the first
policy of one of the endpoint's untracked tiers, when the state's latest rules are those of the
policies. -/
theorem deniedByFirstRule_of_blocks (policies : PolicyID → ProtoPolicy) {s : XdpIPState}
    (htr : s.Tracks policies) {ifaceName : String} {oldData : XdpIfaceData} {newHepID : String}
    {hep : HostEndpoint} {changeInMaps : AList (fun _ : String => SetCounts)} {pkt : Packet Addr}
    {d : XdpIfaceData}
    (hd : (s.processHostEndpointChange ifaceName oldData newHepID (some hep) changeInMaps).1.ifaceNameToData.lookup
      ifaceName = some d)
    (hb : d.blocks env nameForIPSet pkt.srcAddr = true) :
    ∃ tier ∈ hep.untrackedTiers, ∃ name rule rest, tier.ingressPolicies.head? = some name ∧
      (policies ⟨tier.name, name⟩).inboundRules = rule :: rest ∧
      actionEffect rule.action = .deny ∧ ruleDecides env nameForIPSet pkt rule = true := by
  rw [XdpIPState.lookup_processHostEndpointChange, Option.some.injEq] at hd
  subst hd
  -- the source is in an IP set of a policy that the loop recorded
  obtain ⟨⟨policyID, setIDs⟩, he, hs⟩ := List.any_eq_true.mp hb
  obtain ⟨setID, hsetID, hin⟩ := List.any_eq_true.mp hs
  rcases XdpIPState.lookup_foldl_addPolicySetIDs (AList.mem_lookup_iff.mpr he) with h0 | ⟨hpid, rules, hr, rfl⟩
  · simp at h0
  · obtain ⟨tier, htier, htn, hhead⟩ := mem_getPolicyIDs.mp hpid
    -- the policy's latest rules come from its first inbound rule, which is valid for XDP
    obtain ⟨rule, rest, hrules, hvalid, rfl⟩ := xdpRulesFromProtoRules_eq_true (htr policyID rules hr)
    obtain ⟨setID', hset⟩ := (isValidRuleForXDP_spec hvalid).2.2
    have hid : setID = setID' := by simpa [mem_getSetIDs, hset] using hsetID
    refine ⟨tier, htier, policyID.name, rule, rest, hhead, ?_, actionEffect_of_isValidRuleForXDP hvalid, ?_⟩
    · rw [htn]
      exact hrules
    · rw [ruleDecides_of_isValidRuleForXDP pkt hvalid, hset, ← hid]
      simpa using hin

end Enforcement

/-! ## Two untracked tiers

The first tier of `tieredHep` allows every packet; the second denies the packets from IP set
`s` with a rule valid for XDP. -/

/-- A rule that allows every packet. -/
def allowAll : ProtoRule := { action := "allow" }

/-- A rule valid for XDP: deny the packets from IP set `s`. -/
def denyFromS : ProtoRule := { action := "deny", srcIpSetIds := ["s"] }

/-- Tier `t1` allows everything and tier `t2` denies the packets from `s`. -/
def tieredHep : HostEndpoint := ⟨[⟨"t1", ["p1"], []⟩, ⟨"t2", ["p2"], []⟩]⟩

/-- The policies of `tieredHep`. -/
def tieredPolicies : PolicyID → ProtoPolicy :=
  Function.update (Function.update (fun _ => ⟨[], []⟩) ⟨"t1", "p1"⟩ ⟨[allowAll], []⟩)
    ⟨"t2", "p2"⟩ ⟨[denyFromS], []⟩

/-- The state after the updates of both policies. -/
def tieredState : XdpIPState :=
  (newXDPIPState.updatePolicy ⟨"t1", "p1"⟩ ⟨[allowAll], []⟩).updatePolicy ⟨"t2", "p2"⟩ ⟨[denyFromS], []⟩

theorem tracks_tieredState : tieredState.Tracks tieredPolicies :=
  ((XdpIPState.tracks_newXDPIPState _).updatePolicy _ _).updatePolicy _ _

/-- IP set `s` holds `10.0.0.9`. -/
def tieredEnv : Env String := { slash32Env with inIPSet := fun name addr => name == "s" && addr == "10.0.0.9" }

/-- An SSH packet from `10.0.0.9`. -/
def tieredPacket : Packet String := ⟨"10.0.0.9", "10.0.0.1", 6, 40000, 22, 0, 0, "NEW"⟩

section OneTier

variable {Addr : Type} (env : Env Addr) (nameForIPSet : String → String)

/-- With at most one untracked tier, XDP only drops packets that the untracked policy
denies: the tier of the blocking rule is the only one, and its rules start with that rule. -/
theorem untrackedIngress_eq_deny_of_blocks (policies : PolicyID → ProtoPolicy) {s : XdpIPState}
    (htr : s.Tracks policies) {ifaceName : String} {oldData : XdpIfaceData} {newHepID : String}
    {hep : HostEndpoint} (hone : hep.untrackedTiers.length ≤ 1)
    {changeInMaps : AList (fun _ : String => SetCounts)} {pkt : Packet Addr} {d : XdpIfaceData}
    (hd : (s.processHostEndpointChange ifaceName oldData newHepID (some hep) changeInMaps).1.ifaceNameToData.lookup
      ifaceName = some d)
    (hb : d.blocks env nameForIPSet pkt.srcAddr = true) :
    untrackedIngress env nameForIPSet policies pkt hep.untrackedTiers = .deny := by
  obtain ⟨tier, htier, name, rule, rest, hhead, hrules, hdeny, hdec⟩ :=
    deniedByFirstRule_of_blocks policies htr hd hb
  have hts : hep.untrackedTiers = [tier] := by
    rcases hl : hep.untrackedTiers with _ | ⟨t, _ | ⟨t', ts⟩⟩
    · rw [hl] at htier
      exact absurd htier List.not_mem_nil
    · rw [hl, List.mem_singleton] at htier
      rw [htier]
    · rw [hl] at hone
      simp at hone
  obtain ⟨names, hnames⟩ := List.head?_eq_some_iff.mp hhead
  -- the tier's rules start with the selected policy's first rule, which decides
  have hfirst : firstDecision env nameForIPSet pkt
      (tier.ingressPolicies.flatMap fun name => (policies ⟨tier.name, name⟩).inboundRules) =
        some .deny := by
    rw [hnames, List.flatMap_cons, hrules, List.cons_append, firstDecision_cons_of_ruleDecides _ hdec,
      hdeny]
  simp [hts, untrackedIngress, hfirst]

/-- With a single untracked tier, XDP only drops packets that the untracked policy denies. -/
theorem xdp_blocks_only_denied_of_one_tier (policies : PolicyID → ProtoPolicy) {s : XdpIPState}
    (htr : s.Tracks policies) (ifaceName : String) (oldData : XdpIfaceData) (newHepID : String)
    (tier : TierInfo) (changeInMaps : AList (fun _ : String => SetCounts)) (pkt : Packet Addr)
    {d : XdpIfaceData}
    (hd : (s.processHostEndpointChange ifaceName oldData newHepID (some ⟨[tier]⟩) changeInMaps).1.ifaceNameToData.lookup
      ifaceName = some d)
    (hb : d.blocks env nameForIPSet pkt.srcAddr = true) :
    untrackedIngress env nameForIPSet policies pkt [tier] = .deny :=
  untrackedIngress_eq_deny_of_blocks env nameForIPSet policies htr (by simp) hd hb

end OneTier

/-- The state's latest rules are those of `tieredPolicies`, and with only the tier of `s`, the
untracked policy denies the packet from `s`. -/
theorem xdp_second_tier_alone_denies :
    tieredState.Tracks tieredPolicies ∧
      untrackedIngress tieredEnv id tieredPolicies tieredPacket [⟨"t2", ["p2"], []⟩] = .deny :=
  ⟨tracks_tieredState, xdp_blocks_only_denied_of_one_tier tieredEnv id tieredPolicies tracks_tieredState
    "eth0" ⟨"", ∅⟩ "hep" ⟨"t2", ["p2"], []⟩ ∅ tieredPacket rfl (by decide)⟩

/-- Interface `eth0` gets the host endpoint: XDP is installed there, with the IP set of `t2`'s
policy; it drops the packet from `s`, which the untracked policy allows in tier `t1`. -/
theorem xdp_drops_packet_allowed_by_earlier_tier :
    ∃ s d, (tieredState.processHostEndpointChange "eth0" ⟨"", ∅⟩ "hep" (some tieredHep) ∅).1 = s ∧
      s.ifaceNameToData.lookup "eth0" = some d ∧ "eth0" ∈ s.bpfActions.installXDP ∧
      d.blocks tieredEnv id tieredPacket.srcAddr = true ∧
      untrackedIngress tieredEnv id tieredPolicies tieredPacket tieredHep.untrackedTiers = .allow :=
  ⟨_, _, rfl, rfl, by decide, by decide, by decide⟩

end Felix.Dataplane
