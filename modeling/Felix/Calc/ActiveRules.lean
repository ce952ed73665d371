import Felix.Calc.RuleScanner
import Felix.LabelIndex.InheritIndex

/-!
# The active rules calculator

`ActiveRulesCalculator` (`calc/active_rules_calculator.go`) decides which policies and
profiles the rule scanner is to render. A policy is active while its selector matches a local
endpoint, and a profile while a local endpoint lists it among its profile IDs. The selectors
are matched by an `InheritIndex` whose items are the local endpoints and whose parents are the
profiles; the calculator counts the matched endpoints of each policy, and the endpoints of each
profile, in two multi-valued maps. When a policy or profile becomes active, or its rules change
while it is active, the rule scanner is sent it (`OnPolicyActive`, `OnProfileActive`); when it
becomes inactive, it is told so. An active profile whose rules are unknown is sent
`DummyDropRules`.

The index calls the calculator back from inside its operations. The callbacks read and write
the calculator's own maps and never the index, so here the index runs first and its callbacks
are then handled in order. A panic (`log.Panic`, or a `nil` dereference in the index) ends the
run as an error.

Policies and rules are stored and forwarded whole, so their types are parameters. The
calculator reads a policy only through `parseSelector` (`selector.Parse(policy.Selector)`), and
its rule type provides `denyRule` (`model.Rule{Action: "deny"}`).

## Main definitions

* `ActiveRulesCalculator`, `newActiveRulesCalculator`, `EndpointKeyToProfileIDMap.update`
* `sendPolicyUpdate`, `sendProfileUpdate`, `onMatchStarted`, `onMatchStopped`,
  `updateEndpointProfileIDs`
* `ArcUpdate`, `ActiveRulesCalculator.onUpdate`, `ActiveRulesCalculator.runFrom`
* `lastPolicyEvent`, `lastProfileEvent`: the last call the rule scanner received for a key
-/

namespace Felix.Calc

open Replication LabelIndex

deriving instance DecidableEq for ProfileRules

/-- The fields of a `model.WorkloadEndpoint` or `model.HostEndpoint` that the calculator and
its index read. -/
structure LocalEndpoint where
  labels : Labels
  profileIDs : List String

/-- The updates the calculator is registered for: the local endpoints, and every policy and
profile (its rules, labels and tags). -/
inductive ArcUpdate (EK PK Pol R : Type) where
  | endpoint (key : EK) (value : Option LocalEndpoint)
  | policy (key : PK) (value : Option Pol)
  | profileRules (name : String) (value : Option (ProfileRules R))
  | profileLabels (name : String) (value : Option Labels)
  | profileTags (name : String) (value : Option (List String))

/-- The calls the calculator makes: those of `RuleScanner`, whose profile key is
`ProfileRulesKey{Name}`, and those of `PolicyMatchListener`. -/
inductive ArcCallback (EK PK Pol R : Type) where
  | onPolicyActive (key : PK) (policy : Pol)
  | onPolicyInactive (key : PK)
  | onProfileActive (name : String) (rules : ProfileRules R)
  | onProfileInactive (name : String)
  | onPolicyMatch (key : PK) (endpointKey : EK)
  | onPolicyMatchStopped (key : PK) (endpointKey : EK)
  deriving DecidableEq

/-- `EndpointKeyToProfileIDMap`. -/
structure EndpointKeyToProfileIDMap (EK : Type) where
  endpointKeyToProfileIDs : AList fun _ : EK => List String

/-- `ActiveRulesCalculator`, with the fields that decide what it sends. -/
structure ActiveRulesCalculator (EK PK Sel Pol R : Type) where
  allPolicies : AList fun _ : PK => Pol
  allProfileRules : AList fun _ : String => ProfileRules R
  policyIDToEndpointKeys : SetMap PK EK
  profileIDToEndpointKeys : SetMap String EK
  labelIndex : InheritIndex EK PK Sel
  endpointKeyToProfileIDs : EndpointKeyToProfileIDMap EK

variable {EK PK Sel Pol R : Type} [DecidableEq EK] [DecidableEq PK]

/-- `NewEndpointKeyToProfileIDMap`. -/
def newEndpointKeyToProfileIDMap : EndpointKeyToProfileIDMap EK := ⟨∅⟩

/-- `NewActiveRulesCalculator`. -/
def newActiveRulesCalculator : ActiveRulesCalculator EK PK Sel Pol R :=
  ⟨∅, ∅, ∅, ∅, .new, newEndpointKeyToProfileIDMap⟩

/-- `DummyDropRules`: one deny rule each way. -/
def dummyDropRules (denyRule : R) : ProfileRules R := ⟨[denyRule], [denyRule]⟩

namespace EndpointKeyToProfileIDMap

/-- The profile IDs stored for an endpoint: none for one that is not stored. -/
def profileIDs (idx : EndpointKeyToProfileIDMap EK) (key : EK) : List String :=
  (idx.endpointKeyToProfileIDs.lookup key).getD []

/-- A turn of the second loop of `Update`: an ID that was to be removed stays, any other is
added. -/
def keepOrAdd (ids : IterSet String × IterSet String) (id : String) :
    IterSet String × IterSet String :=
  if id ∈ ids.1 then (ids.1.discard id, ids.2) else (ids.1, ids.2.add id)

/-- `Update`: store the endpoint's profile IDs, and return the IDs removed and the IDs added. -/
def update (key : EK) (profileIDs : List String) (idx : EndpointKeyToProfileIDMap EK) :
    EndpointKeyToProfileIDMap EK × IterSet String × IterSet String :=
  let removedIDs := (idx.profileIDs key).foldl (fun removed id => removed.add id) ∅
  let (removedIDs, addedIDs) := profileIDs.foldl keepOrAdd (removedIDs, ∅)
  -- no profiles is equivalent to deletion
  let idx : EndpointKeyToProfileIDMap EK :=
    if profileIDs.length > 0 then ⟨idx.endpointKeyToProfileIDs.insert key profileIDs⟩
    else ⟨idx.endpointKeyToProfileIDs.erase key⟩
  (idx, removedIDs, addedIDs)

end EndpointKeyToProfileIDMap

namespace ActiveRulesCalculator

/-! ## Sending policies and profiles -/

/-- `sendPolicyUpdate`: an active policy is sent whole, an inactive one as inactive; an active
policy that is not known panics. -/
def sendPolicyUpdate (policyKey : PK) (arc : ActiveRulesCalculator EK PK Sel Pol R) :
    Except String (List (ArcCallback EK PK Pol R)) :=
  if policyKey ∈ arc.policyIDToEndpointKeys then
    match arc.allPolicies.lookup policyKey with
    | some policy => .ok [.onPolicyActive policyKey policy]
    | none => .error "Unknown policy became active!"
  else .ok [.onPolicyInactive policyKey]

variable (denyRule : R)

/-- `sendProfileUpdate`: an active profile is sent its rules, or `DummyDropRules` when they are
not known; an inactive one is sent as inactive. -/
def sendProfileUpdate (profileID : String) (arc : ActiveRulesCalculator EK PK Sel Pol R) :
    List (ArcCallback EK PK Pol R) :=
  if profileID ∈ arc.profileIDToEndpointKeys then
    match arc.allProfileRules.lookup profileID with
    | some rules => [.onProfileActive profileID rules]
    | none => [.onProfileActive profileID (dummyDropRules denyRule)]
  else [.onProfileInactive profileID]

/-! ## The index's callbacks -/

/-- `onMatchStarted`: a policy's first match makes it active. -/
def onMatchStarted (selID : PK) (labelId : EK) (arc : ActiveRulesCalculator EK PK Sel Pol R) :
    Except String (ActiveRulesCalculator EK PK Sel Pol R × List (ArcCallback EK PK Pol R)) := do
  let policyWasActive := decide (selID ∈ arc.policyIDToEndpointKeys)
  let arc := { arc with policyIDToEndpointKeys := arc.policyIDToEndpointKeys.put selID labelId }
  let sent ← if policyWasActive then pure [] else arc.sendPolicyUpdate selID
  pure (arc, sent ++ [.onPolicyMatch selID labelId])

/-- `onMatchStopped`: a policy's last match makes it inactive. -/
def onMatchStopped (selID : PK) (labelId : EK) (arc : ActiveRulesCalculator EK PK Sel Pol R) :
    Except String (ActiveRulesCalculator EK PK Sel Pol R × List (ArcCallback EK PK Pol R)) := do
  let arc := { arc with policyIDToEndpointKeys := arc.policyIDToEndpointKeys.discard selID labelId }
  let sent ← if selID ∈ arc.policyIDToEndpointKeys then pure [] else arc.sendPolicyUpdate selID
  pure (arc, sent ++ [.onPolicyMatchStopped selID labelId])

/-- The callback the index makes for a reported change. -/
def onMatch (callback : MatchCallback PK EK) (arc : ActiveRulesCalculator EK PK Sel Pol R) :
    Except String (ActiveRulesCalculator EK PK Sel Pol R × List (ArcCallback EK PK Pol R)) :=
  match callback with
  | .started (selID, labelId) => arc.onMatchStarted selID labelId
  | .stopped (selID, labelId) => arc.onMatchStopped selID labelId

/-- An operation of the label index, then the callbacks it made. -/
def updateLabelIndex {UID : Type} [DecidableEq UID]
    (evaluateLabels : Sel → (String → Option String) → Bool) (uniqueID : Sel → UID)
    (op : Op EK PK Sel) (arc : ActiveRulesCalculator EK PK Sel Pol R) :
    Except String (ActiveRulesCalculator EK PK Sel Pol R × List (ArcCallback EK PK Pol R)) := do
  let (labelIndex, callbacks) ← arc.labelIndex.apply evaluateLabels uniqueID op
  forEach (fun callback arc => arc.onMatch callback) callbacks { arc with labelIndex }

/-! ## Profiles of an endpoint -/

/-- A turn of the first loop of `updateEndpointProfileIDs`: the endpoint joins the profile's
set, and a profile that was not active is sent. -/
def addProfileEndpoint (key : EK) (id : String) (arc : ActiveRulesCalculator EK PK Sel Pol R) :
    ActiveRulesCalculator EK PK Sel Pol R × List (ArcCallback EK PK Pol R) :=
  let wasActive := decide (id ∈ arc.profileIDToEndpointKeys)
  let arc := { arc with profileIDToEndpointKeys := arc.profileIDToEndpointKeys.put id key }
  (arc, if wasActive then [] else arc.sendProfileUpdate denyRule id)

/-- A turn of the second loop of `updateEndpointProfileIDs`: the endpoint leaves the profile's
set, and a profile left with no endpoint is sent. -/
def removeProfileEndpoint (key : EK) (id : String) (arc : ActiveRulesCalculator EK PK Sel Pol R) :
    ActiveRulesCalculator EK PK Sel Pol R × List (ArcCallback EK PK Pol R) :=
  let arc := { arc with profileIDToEndpointKeys := arc.profileIDToEndpointKeys.discard id key }
  (arc, if id ∈ arc.profileIDToEndpointKeys then [] else arc.sendProfileUpdate denyRule id)

/-- `updateEndpointProfileIDs`. The source ranges over the maps of added and removed IDs, in
an order Go leaves unspecified; here, in the order they were put in. -/
def updateEndpointProfileIDs (key : EK) (profileIDs : List String)
    (arc : ActiveRulesCalculator EK PK Sel Pol R) :
    ActiveRulesCalculator EK PK Sel Pol R × List (ArcCallback EK PK Pol R) :=
  let (endpointKeyToProfileIDs, removedIDs, addedIDs) :=
    arc.endpointKeyToProfileIDs.update key profileIDs
  let arc := { arc with endpointKeyToProfileIDs }
  let (arc, added) := forEachPure (addProfileEndpoint denyRule key) addedIDs.toList arc
  let (arc, removed) := forEachPure (removeProfileEndpoint denyRule key) removedIDs.toList arc
  (arc, added ++ removed)

/-! ## Updates -/

variable {UID : Type} [DecidableEq UID] [DecidableEq Pol] [DecidableEq R]
  (evaluateLabels : Sel → (String → Option String) → Bool) (uniqueID : Sel → UID)
  (parseSelector : Pol → Option Sel)

/-- The operation `InheritIndex.OnUpdate` makes of an endpoint update. -/
def endpointOp (key : EK) : Option LocalEndpoint → Op EK PK Sel
  | some endpoint => .updateLabels key endpoint.labels endpoint.profileIDs
  | none => .deleteLabels key

/-- `OnUpdate`. A policy or profile rules update that changes nothing is ignored, as
`reflect.DeepEqual` finds it equal to the one held. -/
def onUpdate (update : ArcUpdate EK PK Pol R) (arc : ActiveRulesCalculator EK PK Sel Pol R) :
    Except String (ActiveRulesCalculator EK PK Sel Pol R × List (ArcCallback EK PK Pol R)) :=
  match update with
  | .endpoint key value =>
    -- a deleted endpoint has no profiles
    let (arc, sent) :=
      arc.updateEndpointProfileIDs denyRule key ((value.map (·.profileIDs)).getD [])
    (fun r => (r.1, sent ++ r.2)) <$>
      arc.updateLabelIndex evaluateLabels uniqueID (endpointOp key value)
  | .profileLabels name (some labels) =>
    arc.updateLabelIndex evaluateLabels uniqueID (.updateParentLabels name labels)
  | .profileLabels name none => arc.updateLabelIndex evaluateLabels uniqueID (.deleteParentLabels name)
  | .profileTags name (some tags) =>
    arc.updateLabelIndex evaluateLabels uniqueID (.updateParentTags name tags)
  | .profileTags name none => arc.updateLabelIndex evaluateLabels uniqueID (.deleteParentTags name)
  | .profileRules name (some rules) =>
    if arc.allProfileRules.lookup name = some rules then .ok (arc, [])
    else
      let arc := { arc with allProfileRules := arc.allProfileRules.insert name rules }
      .ok (arc, if name ∈ arc.profileIDToEndpointKeys then arc.sendProfileUpdate denyRule name else [])
  | .profileRules name none =>
    let arc := { arc with allProfileRules := arc.allProfileRules.erase name }
    .ok (arc, if name ∈ arc.profileIDToEndpointKeys then arc.sendProfileUpdate denyRule name else [])
  | .policy key (some policy) =>
    if arc.allPolicies.lookup key = some policy then .ok (arc, [])
    else
      let arc := { arc with allPolicies := arc.allPolicies.insert key policy }
      match parseSelector policy with
      | none => .error "Failed to parse selector"
      | some sel => do
        -- the index calls back if the selector's matches change
        let (arc, callbacks) ← arc.updateLabelIndex evaluateLabels uniqueID (.updateSelector key sel)
        let sent ← if key ∈ arc.policyIDToEndpointKeys then arc.sendPolicyUpdate key else pure []
        pure (arc, callbacks ++ sent)
  | .policy key none =>
    -- the index's match-stopped callbacks make the policy inactive
    let arc := { arc with allPolicies := arc.allPolicies.erase key }
    arc.updateLabelIndex evaluateLabels uniqueID (.deleteSelector key)
attribute [grind] onUpdate

/-- A run of updates, with all the calls made in order. -/
def runFrom (updates : List (ArcUpdate EK PK Pol R)) (arc : ActiveRulesCalculator EK PK Sel Pol R) :
    Except String (ActiveRulesCalculator EK PK Sel Pol R × List (ArcCallback EK PK Pol R)) :=
  forEach (fun update arc => arc.onUpdate denyRule evaluateLabels uniqueID parseSelector update)
    updates arc

end ActiveRulesCalculator

/-! ## The last call for a policy or a profile -/

/-- The policy a call of the rule scanner is about. -/
def ArcCallback.policyKey? : ArcCallback EK PK Pol R → Option PK
  | .onPolicyActive key _ => some key
  | .onPolicyInactive key => some key
  | _ => none
attribute [grind] ArcCallback.policyKey?

/-- The profile a call of the rule scanner is about. -/
def ArcCallback.profileName? : ArcCallback EK PK Pol R → Option String
  | .onProfileActive name _ => some name
  | .onProfileInactive name => some name
  | _ => none
attribute [grind] ArcCallback.profileName?

/-- The last call the rule scanner received about the policy `key`. -/
def lastPolicyEvent (key : PK) (out : List (ArcCallback EK PK Pol R)) :
    Option (ArcCallback EK PK Pol R) :=
  (out.filter fun c => decide (c.policyKey? = some key)).getLast?
attribute [grind] lastPolicyEvent

/-- The last call the rule scanner received about the profile `name`. -/
def lastProfileEvent (name : String) (out : List (ArcCallback EK PK Pol R)) :
    Option (ArcCallback EK PK Pol R) :=
  (out.filter fun c => decide (c.profileName? = some name)).getLast?
attribute [grind] lastProfileEvent

end Felix.Calc
