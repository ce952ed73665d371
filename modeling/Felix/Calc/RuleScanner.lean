import Felix.Collections.SetMap
import Felix.Replication.Report

/-!
# The rule scanner

`RuleScanner` (`calc/rule_scanner.go`) receives the rules of the active policies and
profiles, converts each rule to a `ParsedRule` whose selectors and named ports are replaced
by the IP sets they stand for, and keeps count of which IP sets some active rule uses. An IP
set is known by its unique ID (UID); the scanner calls `OnIPSetActive` when a UID gains its
first user and `OnIPSetInactive` when it loses its last. The users are counted in two
multi-valued maps, from the key of a policy or profile to its UIDs and back.

The scanner only stores and forwards rules and IP sets, so their types are parameters: the
conversion `ruleToParsedRule` gives each rule its parsed form and the IP sets it uses, and
`uniqueID` gives an IP set its UID. A policy key and a profile key are the two sides of a
sum, as the source's `interface{}` keys of two types are never equal.

## Main definitions

* `RuleScanner`, `newRuleScanner`
* `updateRules`, its loops `addUID` and `removeUID`
* `onPolicyActive`, `onPolicyInactive`, `onProfileActive`, `onProfileInactive`
* `ScanOp`, `RuleScanner.apply`, `RuleScanner.runFrom`: a sequence of calls and their callbacks
-/

namespace Felix.Calc

open Replication

variable {PK QK R P D : Type}

/-- `model.Policy`, with the fields the scanner reads. -/
structure Policy (R : Type) where
  «namespace» : String
  inboundRules : List R
  outboundRules : List R
  doNotTrack : Bool
  preDNAT : Bool

/-- `model.ProfileRules`. -/
structure ProfileRules (R : Type) where
  inboundRules : List R
  outboundRules : List R

/-- `ParsedRules`: the parsed rules of a policy or profile, and the policy's settings. -/
structure ParsedRules (P : Type) where
  «namespace» : String
  inboundRules : List P
  outboundRules : List P
  untracked : Bool
  preDNAT : Bool

/-- The calls the scanner makes: `OnIPSetActive` and `OnIPSetInactive`, whose IP set is
absent (`nil`) when `ipSetsByUID` has no entry for the UID, and the rules update callbacks. -/
inductive ScanCallback (PK QK P D : Type) where
  | onIPSetActive (ipSet : D)
  | onIPSetInactive (ipSet : Option D)
  | onPolicyActive (key : PK) (parsedRules : ParsedRules P)
  | onPolicyInactive (key : PK)
  | onProfileActive (key : QK) (parsedRules : ParsedRules P)
  | onProfileInactive (key : QK)

/-- `RuleScanner`: the IP sets in use by UID, and the UIDs of each policy or profile both
ways round. -/
structure RuleScanner (PK QK D : Type) where
  ipSetsByUID : AList (fun _ : String => D)
  rulesIDToUIDs : SetMap (PK ⊕ QK) String
  uidsToRulesIDs : SetMap String (PK ⊕ QK)

/-- `NewRuleScanner`. -/
def newRuleScanner : RuleScanner PK QK D := ⟨∅, ∅, ∅⟩
attribute [grind] newRuleScanner

namespace RuleScanner

variable [DecidableEq PK] [DecidableEq QK] (ruleToParsedRule : R → P × List D)
  (uniqueID : D → String)

/-- The IP sets of the rules by UID, those of the inbound rules first. A UID that several
rules give keeps its last IP set, as the source's map assignment does; the source allows
that because equal UIDs stand for the same IP set. -/
def currentUIDToIPSet (inbound outbound : List R) : AList (fun _ : String => D) :=
  (inbound ++ outbound).foldl
    (fun m rule => (ruleToParsedRule rule).2.foldl (fun m ipSet => m.insert (uniqueID ipSet) ipSet) m) ∅

variable {ruleToParsedRule uniqueID}

/-- A turn of the loop over the new UIDs: the UID is recorded for the key, and if no other
policy or profile used it, its IP set is stored and becomes active. -/
def addUID (key : PK ⊕ QK) (uid : String) (ipSet : D) (rs : RuleScanner PK QK D) :
    RuleScanner PK QK D × List (ScanCallback PK QK P D) :=
  let rs := { rs with rulesIDToUIDs := rs.rulesIDToUIDs.put key uid }
  let (rs, cbs) :=
    if uid ∉ rs.uidsToRulesIDs then
      ({ rs with ipSetsByUID := rs.ipSetsByUID.insert uid ipSet }, [.onIPSetActive ipSet])
    else (rs, [])
  ({ rs with uidsToRulesIDs := rs.uidsToRulesIDs.put uid key }, cbs)
attribute [grind] addUID

/-- A turn of the loop over the UIDs no longer used: the UID is dropped for the key, and if
that was its last user, its IP set is dropped and becomes inactive. -/
def removeUID (key : PK ⊕ QK) (uid : String) (rs : RuleScanner PK QK D) :
    RuleScanner PK QK D × List (ScanCallback PK QK P D) :=
  let rs := { rs with
    rulesIDToUIDs := rs.rulesIDToUIDs.discard key uid
    uidsToRulesIDs := rs.uidsToRulesIDs.discard uid key }
  if uid ∉ rs.uidsToRulesIDs then
    ({ rs with ipSetsByUID := rs.ipSetsByUID.erase uid }, [.onIPSetInactive (rs.ipSetsByUID.lookup uid)])
  else (rs, [])
attribute [grind] removeUID

/-- The UIDs of `current` that the key did not have, with their IP sets. -/
def addedUids (key : PK ⊕ QK) (current : AList (fun _ : String => D)) (rs : RuleScanner PK QK D) :
    List (Σ _ : String, D) :=
  current.entries.filter fun e => ¬rs.rulesIDToUIDs.Mem key e.1

/-- The UIDs the key had that are not in `current`. -/
def removedUids (key : PK ⊕ QK) (current : AList (fun _ : String => D)) (rs : RuleScanner PK QK D) :
    List String :=
  ((rs.rulesIDToUIDs.lookup key).getD ∅).toList.filter fun uid => uid ∉ current

variable (ruleToParsedRule uniqueID)

/-- `updateRules`: the rules are parsed; the UIDs the key did not have are added and those it
no longer has are removed, both sets computed before either loop runs. -/
def updateRules (key : PK ⊕ QK) (inbound outbound : List R) (untracked preDNAT : Bool)
    (origNamespace : String) (rs : RuleScanner PK QK D) :
    (RuleScanner PK QK D × List (ScanCallback PK QK P D)) × ParsedRules P :=
  let current := currentUIDToIPSet ruleToParsedRule uniqueID inbound outbound
  let parsedRules : ParsedRules P :=
    ⟨origNamespace, inbound.map (ruleToParsedRule · |>.1), outbound.map (ruleToParsedRule · |>.1),
      untracked, preDNAT⟩
  let addedUids := rs.addedUids key current
  let removedUids := rs.removedUids key current
  let (rs, added) := forEachPure (fun e rs => addUID key e.1 e.2 rs) addedUids rs
  let (rs, removed) := forEachPure (removeUID key) removedUids rs
  ((rs, added ++ removed), parsedRules)

def onPolicyActive (key : PK) (policy : Policy R) (rs : RuleScanner PK QK D) :
    RuleScanner PK QK D × List (ScanCallback PK QK P D) :=
  let ((rs, cbs), parsedRules) := rs.updateRules ruleToParsedRule uniqueID (.inl key)
    policy.inboundRules policy.outboundRules policy.doNotTrack policy.preDNAT policy.«namespace»
  (rs, cbs ++ [.onPolicyActive key parsedRules])

def onPolicyInactive (key : PK) (rs : RuleScanner PK QK D) :
    RuleScanner PK QK D × List (ScanCallback PK QK P D) :=
  let ((rs, cbs), _) := rs.updateRules ruleToParsedRule uniqueID (.inl key) [] [] false false ""
  (rs, cbs ++ [.onPolicyInactive key])

def onProfileActive (key : QK) (profile : ProfileRules R) (rs : RuleScanner PK QK D) :
    RuleScanner PK QK D × List (ScanCallback PK QK P D) :=
  let ((rs, cbs), parsedRules) := rs.updateRules ruleToParsedRule uniqueID (.inr key)
    profile.inboundRules profile.outboundRules false false ""
  (rs, cbs ++ [.onProfileActive key parsedRules])

def onProfileInactive (key : QK) (rs : RuleScanner PK QK D) :
    RuleScanner PK QK D × List (ScanCallback PK QK P D) :=
  let ((rs, cbs), _) := rs.updateRules ruleToParsedRule uniqueID (.inr key) [] [] false false ""
  (rs, cbs ++ [.onProfileInactive key])

end RuleScanner

/-- A call of the scanner. -/
inductive ScanOp (PK QK R : Type) where
  | onPolicyActive (key : PK) (policy : Policy R)
  | onPolicyInactive (key : PK)
  | onProfileActive (key : QK) (profile : ProfileRules R)
  | onProfileInactive (key : QK)

namespace RuleScanner

variable [DecidableEq PK] [DecidableEq QK] (ruleToParsedRule : R → P × List D)
  (uniqueID : D → String)

def apply (rs : RuleScanner PK QK D) : ScanOp PK QK R → RuleScanner PK QK D × List (ScanCallback PK QK P D)
  | .onPolicyActive key policy => rs.onPolicyActive ruleToParsedRule uniqueID key policy
  | .onPolicyInactive key => rs.onPolicyInactive ruleToParsedRule uniqueID key
  | .onProfileActive key profile => rs.onProfileActive ruleToParsedRule uniqueID key profile
  | .onProfileInactive key => rs.onProfileInactive ruleToParsedRule uniqueID key

/-- A run of calls, with all the callbacks made in order. -/
def runFrom (ops : List (ScanOp PK QK R)) (rs : RuleScanner PK QK D) :
    RuleScanner PK QK D × List (ScanCallback PK QK P D) :=
  forEachPure (fun op rs => rs.apply ruleToParsedRule uniqueID op) ops rs

end RuleScanner

end Felix.Calc
