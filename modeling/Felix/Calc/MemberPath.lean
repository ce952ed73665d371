import Felix.LabelIndex.NamedPortSpec
import Felix.Calc.Dataplane

/-!
# The IP set member path of the calculation graph

`NewCalculationGraph` connects the IP set member index to the event sequencer. When the rule
scanner finds an IP set active it calls `OnIPSetAdded` and then the index's `UpdateIPSet`;
when it finds it inactive, the index's `DeleteIPSet` and then `OnIPSetRemoved`. The index's
`OnMemberAdded` and `OnMemberRemoved` are forwarded as `OnIPSetMemberAdded` and
`OnIPSetMemberRemoved`, and the datastore's endpoint, network set and profile updates reach
the index through its `OnUpdate`. The dataplane holds the IP sets that the messages of each
`Flush` leave.

This module models that path, from the rule scanner's activations and the datastore's
updates to the dataplane's IP sets. The view it ends in depends on the history, not only on
the datastore it leaves: an endpoint relabelled from `{a: ""}` to `{b: ""}` is missing from
an IP set selecting `has(b)`, where an endpoint created with `{b: ""}` is in it
(`memberPath_history_dependent`).

## Main definitions

* `memberPayloads`, `KVUpdate`, `onUpdate`, `Input`, `MemberPath`, `MemberPath.step`,
  `MemberPath.view`
-/

namespace Felix.Calc

open Replication LabelIndex

/-- The sequencer's payloads on the member path: IP sets by ID and type, with the members the
index reports. No policy, profile or endpoint travels on it. -/
def memberPayloads (SetID SetType CIDR : Type) [DecidableEq SetID] [DecidableEq CIDR] : Payloads where
  SetID := SetID
  SetType := SetType
  Member := IPSetMember CIDR
  PolicyKey := Unit
  ProfileKey := Unit
  Rules := Unit
  EndpointKey := Unit
  Endpoint := Unit
  Tiers := Unit

/-- A datastore update that the member index's `OnUpdate` handles: a workload endpoint, host
endpoint or network set with its labels, addresses, ports and profile IDs, or deleted; a
profile's labels or tags, or deleted. -/
inductive KVUpdate (EpID CIDR : Type) where
  | endpoint (key : EpID) (value : Option (Labels × List CIDR × List EndpointPort × List String))
  | profileLabels (name : String) (value : Option Labels)
  | profileTags (name : String) (value : Option (List String))

variable {EpID SetID SetType Sel CIDR : Type} [DecidableEq EpID] [DecidableEq SetID] [DecidableEq CIDR]

/-- `SelectorAndNamedPortIndex.OnUpdate`: the index operation an update calls. -/
def onUpdate (Sel : Type) : KVUpdate EpID CIDR → SelectorAndNamedPortIndex.Op EpID SetID Sel CIDR
  | .endpoint key (some (labels, nets, ports, profileIDs)) =>
    .updateEndpointOrSet key labels nets ports profileIDs
  | .endpoint key none => .deleteEndpoint key
  | .profileLabels name (some labels) => .updateParentLabels name (some labels)
  | .profileLabels name none => .deleteParentLabels name
  | .profileTags name (some tags) => .updateParentTags name (some tags)
  | .profileTags name none => .deleteParentTags name

/-- What reaches the member path: the rule scanner's `OnIPSetActive` for a selector IP set and
`OnIPSetInactive`, a datastore update, and `Flush`. -/
inductive Input (EpID SetID SetType Sel CIDR : Type) where
  | ipSetActive (id : SetID) (ipSetType : SetType) (sel : Sel)
      (namedPortProtocol : IPSetPortProtocol) (namedPort : String)
  | ipSetInactive (id : SetID)
  | update (kv : KVUpdate EpID CIDR)
  | flush

/-- The datastore updates of a history, in order. -/
def datastore (inputs : List (Input EpID SetID SetType Sel CIDR)) : List (KVUpdate EpID CIDR) :=
  inputs.filterMap fun
    | .update kv => some kv
    | _ => none

/-- The member index and the sequencer. -/
structure MemberPath (EpID SetID SetType Sel CIDR : Type) [DecidableEq SetID] [DecidableEq CIDR] where
  index : SelectorAndNamedPortIndex EpID SetID Sel CIDR
  sequencer : EventSequencer (memberPayloads SetID SetType CIDR)

namespace MemberPath

/-- The index's callbacks, forwarded to the sequencer in order. -/
def forward (callbacks : List (MemberCallback SetID CIDR))
    (buf : EventSequencer (memberPayloads SetID SetType CIDR)) :
    Except String (EventSequencer (memberPayloads SetID SetType CIDR)) :=
  callbacks.foldlM (fun buf callback =>
    match callback with
    | .started (s, m) => buf.onIPSetMemberAdded s m
    | .stopped (s, m) => buf.onIPSetMemberRemoved s m) buf

variable {UID : Type} [DecidableEq UID] (evaluateLabels : Sel → (String → Option String) → Bool)
  (uniqueID : Sel → UID)

/-- One input, and the messages it sends: only `Flush` sends any. -/
def step (p : MemberPath EpID SetID SetType Sel CIDR) :
    Input EpID SetID SetType Sel CIDR →
      Except String (MemberPath EpID SetID SetType Sel CIDR ×
        List (Message (memberPayloads SetID SetType CIDR)))
  | .ipSetActive id ipSetType sel namedPortProtocol namedPort => do
    let buf ← p.sequencer.onIPSetAdded id ipSetType
    let (index, callbacks) ←
      p.index.updateIPSet evaluateLabels uniqueID id sel namedPortProtocol namedPort
    let buf ← forward callbacks buf
    pure (⟨index, buf⟩, [])
  | .ipSetInactive id => do
    let (index, callbacks) := p.index.deleteIPSet id
    let buf ← forward callbacks p.sequencer
    let buf ← buf.onIPSetRemoved id
    pure (⟨index, buf⟩, [])
  | .update kv => do
    let (index, callbacks) ← p.index.apply evaluateLabels uniqueID (onUpdate Sel kv)
    let buf ← forward callbacks p.sequencer
    pure (⟨index, buf⟩, [])
  | .flush =>
    let (buf, messages) := p.sequencer.flush
    .ok (⟨p.index, buf⟩, messages)

/-- Nothing held, nothing sent. -/
def new : MemberPath EpID SetID SetType Sel CIDR := ⟨.new, .new⟩

/-- The dataplane's IP sets after a history: the messages of its flushes, applied in order. -/
def view (inputs : List (Input EpID SetID SetType Sel CIDR)) :
    Except String (Dataplane (memberPayloads SetID SetType CIDR)) := do
  let (_, messages) ← forEach (fun i p => p.step evaluateLabels uniqueID i) inputs new
  pure (messages.foldl Dataplane.apply .empty)

end MemberPath

/-! ## Two histories of one datastore -/

/-- An IP set selecting `has(b)` made active, and a network set with one address created with
the labels `{a: ""}` and relabelled `{b: ""}`, then a flush. -/
def relabelHistory : List (Input ℕ String Unit String String) :=
  [.ipSetActive "s" () "b" protocolNone "",
    .update (.endpoint 1 (some (emptyValued "a", ["10.0.0.1/32"], [], []))),
    .update (.endpoint 1 (some (emptyValued "b", ["10.0.0.1/32"], [], []))), .flush]

/-- The same, with the network set created with the labels `{b: ""}`. -/
def directHistory : List (Input ℕ String Unit String String) :=
  [.ipSetActive "s" () "b" protocolNone "",
    .update (.endpoint 1 (some (emptyValued "b", ["10.0.0.1/32"], [], []))), .flush]

/-- The two histories leave the same datastore, but the IP set reaches the dataplane empty
after the first and with the network set's address after the second. -/
theorem memberPath_history_dependent :
    (Told.run ((datastore relabelHistory).map (onUpdate String)) : Told ℕ String String String) =
        Told.run ((datastore directHistory).map (onUpdate String)) ∧
      ∃ dRelabel dDirect,
        MemberPath.view hasLabel (fun sel : String => sel) relabelHistory = .ok dRelabel ∧
        MemberPath.view hasLabel (fun sel : String => sel) directHistory = .ok dDirect ∧
        dRelabel.ipSets "s" = some ((), ∅) ∧ dDirect.ipSets "s" = some ((), {relabelMember}) :=
  ⟨rfl, _, _, rfl, rfl, rfl, rfl⟩

end Felix.Calc
