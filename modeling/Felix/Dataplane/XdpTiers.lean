import Felix.Calc.PolicyResolver
import Felix.Dataplane.XdpState
import Mathlib

/-!
# The untracked tiers of the host endpoints the calculation graph sends

The XDP state reads a host endpoint's untracked tiers, which the event sequencer builds from
the tiers the policy resolver last sent for the endpoint (`tierInfoToProtoTierInfo`,
`calc/event_sequencer.go`): each filtered tier gives at most one untracked tier, holding its
`DoNotTrack` policies. The policy resolver sends at most one tier, the sorted tier filtered to
the endpoint's policies (`PolicyResolver.sendEndpointUpdate`). So every host endpoint the
calculation graph sends has at most one untracked tier (`length_untrackedTiers_sendEndpointUpdate`),
and for those XDP only drops packets that the untracked policy denies
(`xdp_blocks_only_denied_of_sent_endpoint`). An endpoint with two untracked tiers, for which
that fails (`xdp_drops_packet_allowed_by_earlier_tier`), is never sent.

## Main definitions

* `PolKV.governsType`, `addPolicyToTierInfo`, `tierInfoToProtoTierInfo`
* `modelHostEndpointToProto`: the host endpoint, with the field the XDP state reads

## Main results

* `length_untrackedTiers_tierInfoToProtoTierInfo`: at most one untracked tier per filtered tier
* `xdp_blocks_only_denied_of_sent_endpoint`
-/

namespace Felix.Calc

variable {EK Ep O X : Type}

/-! ## Proto tiers -/

/-- `PolKV.governsType`: a policy without types governs both directions, and otherwise the
directions its types name. `equalFold` is `strings.EqualFold`. -/
def PolKV.governsType (equalFold : String → String → Bool) (p : PolKV O X) (wanted : String) :
    Bool :=
  (p.value.types.getD []).isEmpty || (p.value.types.getD []).any fun t => equalFold t wanted

/-- `addPolicyToTierInfo`: the policy joins the tier's ingress policies if it governs ingress,
and its egress policies if egress is allowed and it governs egress. -/
def addPolicyToTierInfo (equalFold : String → String → Bool) (pol : PolKV O X)
    (tierInfo : Felix.Dataplane.TierInfo) (egressAllowed : Bool) : Felix.Dataplane.TierInfo :=
  let tierInfo := if pol.governsType equalFold "ingress" then
      { tierInfo with ingressPolicies := tierInfo.ingressPolicies ++ [pol.key.name] }
    else tierInfo
  if egressAllowed && pol.governsType equalFold "egress" then
    { tierInfo with egressPolicies := tierInfo.egressPolicies ++ [pol.key.name] }
  else tierInfo

/-- The four lists of tiers `tierInfoToProtoTierInfo` returns. -/
structure ProtoTiers where
  normalTiers : List Felix.Dataplane.TierInfo
  untrackedTiers : List Felix.Dataplane.TierInfo
  preDNATTiers : List Felix.Dataplane.TierInfo
  forwardTiers : List Felix.Dataplane.TierInfo

/-- The untracked, pre-DNAT, forward and normal tiers of one filtered tier, as the loop over
its policies fills them: a `DoNotTrack` policy is untracked, a `PreDNAT` one pre-DNAT (ingress
only), and any other is normal, and forward too when it applies on forward. -/
def splitTier (equalFold : String → String → Bool) (ti : TierInfo O X) :
    Felix.Dataplane.TierInfo × Felix.Dataplane.TierInfo × Felix.Dataplane.TierInfo ×
      Felix.Dataplane.TierInfo :=
  ti.orderedPolicies.foldl (fun (untracked, preDNAT, forward, normal) pol =>
    if pol.value.doNotTrack then
      (addPolicyToTierInfo equalFold pol untracked true, preDNAT, forward, normal)
    else if pol.value.preDNAT then
      (untracked, addPolicyToTierInfo equalFold pol preDNAT false, forward, normal)
    else
      (untracked, preDNAT,
        if pol.value.applyOnForward then addPolicyToTierInfo equalFold pol forward true else forward,
        addPolicyToTierInfo equalFold pol normal true))
    (⟨ti.name, [], []⟩, ⟨ti.name, [], []⟩, ⟨ti.name, [], []⟩, ⟨ti.name, [], []⟩)

/-- A tier is sent when it has a policy either way. -/
def keepTier (tierInfo : Felix.Dataplane.TierInfo) : Bool :=
  !tierInfo.ingressPolicies.isEmpty || !tierInfo.egressPolicies.isEmpty

/-- A turn of `tierInfoToProtoTierInfo`'s loop: the filtered tier, split by its policies'
flags, adds each of its four tiers that has a policy to the list of its kind. -/
def addProtoTiers (equalFold : String → String → Bool) (tiers : ProtoTiers) (ti : TierInfo O X) :
    ProtoTiers :=
  let (untracked, preDNAT, forward, normal) := splitTier equalFold ti
  { untrackedTiers := if keepTier untracked then tiers.untrackedTiers ++ [untracked]
      else tiers.untrackedTiers
    preDNATTiers := if keepTier preDNAT then tiers.preDNATTiers ++ [preDNAT] else tiers.preDNATTiers
    forwardTiers := if keepTier forward then tiers.forwardTiers ++ [forward] else tiers.forwardTiers
    normalTiers := if keepTier normal then tiers.normalTiers ++ [normal] else tiers.normalTiers }

/-- `tierInfoToProtoTierInfo`. -/
def tierInfoToProtoTierInfo (equalFold : String → String → Bool) (filteredTiers : List (TierInfo O X)) :
    ProtoTiers :=
  filteredTiers.foldl (addProtoTiers equalFold) ⟨[], [], [], []⟩

/-- `ModelHostEndpointToProto`, with the field the XDP state reads: the untracked tiers. -/
def modelHostEndpointToProto (tiers : ProtoTiers) : Felix.Dataplane.HostEndpoint :=
  ⟨tiers.untrackedTiers⟩

/-- A filtered tier adds at most one untracked tier. -/
theorem length_untrackedTiers_addProtoTiers (equalFold : String → String → Bool) (tiers : ProtoTiers)
    (ti : TierInfo O X) :
    (addProtoTiers equalFold tiers ti).untrackedTiers.length ≤ tiers.untrackedTiers.length + 1 := by
  unfold addProtoTiers
  rcases splitTier equalFold ti with ⟨untracked, preDNAT, forward, normal⟩
  dsimp only
  split_ifs <;> simp

/-- Each filtered tier adds at most one untracked tier. -/
theorem length_untrackedTiers_tierInfoToProtoTierInfo (equalFold : String → String → Bool)
    (filteredTiers : List (TierInfo O X)) :
    (tierInfoToProtoTierInfo equalFold filteredTiers).untrackedTiers.length ≤ filteredTiers.length := by
  -- the loop adds at most one tier per turn, whatever it started from
  suffices h : ∀ (l : List (TierInfo O X)) (tiers : ProtoTiers),
      (l.foldl (addProtoTiers equalFold) tiers).untrackedTiers.length ≤
        tiers.untrackedTiers.length + l.length by
    simpa [tierInfoToProtoTierInfo] using h filteredTiers ⟨[], [], [], []⟩
  intro l
  induction l with
  | nil => simp
  | cons ti l ih =>
    intro tiers
    have hstep := length_untrackedTiers_addProtoTiers equalFold tiers ti
    calc (List.foldl (addProtoTiers equalFold) tiers (ti :: l)).untrackedTiers.length
        ≤ (addProtoTiers equalFold tiers ti).untrackedTiers.length + l.length := ih _
      _ ≤ tiers.untrackedTiers.length + (ti :: l).length := by
        rw [List.length_cons]
        omega

variable [DecidableEq EK]

/-- The policy resolver sends an endpoint at most one tier. -/
theorem length_filteredTiers_sendEndpointUpdate (pr : PolicyResolver EK Ep O X) (e : EK) :
    (pr.sendEndpointUpdate e).filteredTiers.length ≤ 1 := by
  unfold PolicyResolver.sendEndpointUpdate
  split
  · simp
  · dsimp only
    split_ifs <;> simp

/-- Every host endpoint the calculation graph sends has at most one untracked tier. -/
theorem length_untrackedTiers_sendEndpointUpdate (equalFold : String → String → Bool)
    (pr : PolicyResolver EK Ep O X) (e : EK) :
    (modelHostEndpointToProto
      (tierInfoToProtoTierInfo equalFold (pr.sendEndpointUpdate e).filteredTiers)).untrackedTiers.length ≤ 1 :=
  (length_untrackedTiers_tierInfoToProtoTierInfo equalFold _).trans
    (length_filteredTiers_sendEndpointUpdate pr e)

end Felix.Calc

namespace Felix.Dataplane

open Felix.Calc Rules Iptables

variable {EK Ep O X : Type} [DecidableEq EK]
  {Addr : Type} (env : Env Addr) (nameForIPSet : String → String)

/-- **XDP only drops what the untracked policy denies, for the endpoints the calculation graph
sends.** The host endpoint built from the tiers the policy resolver sent an endpoint has at most
one untracked tier; when an interface gets it, with the state's latest rules those of the
policies, every packet XDP then drops on the interface is denied by the untracked ingress
evaluation of the endpoint's untracked tiers. -/
theorem xdp_blocks_only_denied_of_sent_endpoint (equalFold : String → String → Bool)
    (pr : PolicyResolver EK Ep O X) (e : EK) (policies : PolicyID → ProtoPolicy) {s : XdpIPState}
    (htr : s.Tracks policies) (ifaceName : String) (oldData : XdpIfaceData) (newHepID : String)
    (changeInMaps : AList (fun _ : String => SetCounts)) (pkt : Packet Addr) {d : XdpIfaceData}
    (hd : (s.processHostEndpointChange ifaceName oldData newHepID
      (some (modelHostEndpointToProto
        (tierInfoToProtoTierInfo equalFold (pr.sendEndpointUpdate e).filteredTiers)))
      changeInMaps).1.ifaceNameToData.lookup ifaceName = some d)
    (hb : d.blocks env nameForIPSet pkt.srcAddr = true) :
    untrackedIngress env nameForIPSet policies pkt
      (tierInfoToProtoTierInfo equalFold (pr.sendEndpointUpdate e).filteredTiers).untrackedTiers =
        .deny :=
  untrackedIngress_eq_deny_of_blocks env nameForIPSet policies htr
    (length_untrackedTiers_sendEndpointUpdate equalFold pr e) hd hb

/-- A resolver that matches host endpoint `hep` to the untracked policy `p2` of its tier. -/
def untrackedResolver : PolicyResolver String Unit ℕ Unit :=
  { (newPolicyResolver : PolicyResolver String Unit ℕ Unit) with
    endpoints := (∅ : AList fun _ : String => Unit).insert "hep" ()
    endpointIDToPolicyIDs := .put "hep" ⟨"p2"⟩ ∅
    sortedTierData := ⟨"default", [⟨⟨"p2"⟩, ⟨none, none, true, false, false, ()⟩⟩]⟩ }

/-- The state after the update of `p2`, whose first rule denies the packets from `s`. -/
def untrackedState : XdpIPState :=
  newXDPIPState.updatePolicy ⟨"default", "p2"⟩ ⟨[denyFromS], []⟩

/-- The policies of `untrackedState`. -/
def untrackedPolicies : PolicyID → ProtoPolicy :=
  Function.update (fun _ => ⟨[], []⟩) ⟨"default", "p2"⟩ ⟨[denyFromS], []⟩

/-- Interface `eth0` gets the host endpoint the resolver sends: XDP drops the packet from `s`,
which the untracked policy denies. -/
theorem xdp_blocks_only_denied_of_sent_endpoint_untracked :
    untrackedState.Tracks untrackedPolicies ∧
      (tierInfoToProtoTierInfo (· == ·)
        (untrackedResolver.sendEndpointUpdate "hep").filteredTiers).untrackedTiers =
          [⟨"default", ["p2"], ["p2"]⟩] ∧
      untrackedIngress tieredEnv id untrackedPolicies tieredPacket
        (tierInfoToProtoTierInfo (· == ·) (untrackedResolver.sendEndpointUpdate "hep").filteredTiers).untrackedTiers =
          .deny :=
  have htr : untrackedState.Tracks untrackedPolicies :=
    (XdpIPState.tracks_newXDPIPState _).updatePolicy _ _
  ⟨htr, rfl, xdp_blocks_only_denied_of_sent_endpoint tieredEnv id (· == ·) untrackedResolver "hep"
    untrackedPolicies htr "eth0" ⟨"", ∅⟩ "hep" ∅ tieredPacket rfl (by decide)⟩

end Felix.Dataplane
