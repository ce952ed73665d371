import Felix.LabelIndex.NamedPortIndex

/-!
# What the IP set member index should count

An IP set's members should be what its selector and named port select from the endpoints as
they were last updated. `Told` is what the index has been told: the last update of each
endpoint, parent and IP set, as the records the index would build from it, and
`Told.members` the members each IP set should then have, one occurrence for each endpoint
contributing it. The index keeps `memberToRefCount` to count those occurrences.

`Equals` is the check by which `UpdateEndpointOrSet` skips an update that changes nothing.
It reads a label of the old endpoint missing from the new one as the empty value, so it
takes the labels `{a: ""}` and `{b: ""}` for equal. An endpoint relabelled from one to the
other is not rescanned: an IP set that selects `has(b)` never counts its address, and the
endpoint's cache still says it contributes nothing (`relabel_skipped`).

An endpoint joins each parent it lists and leaves each one again, but a parent's record holds
the endpoint in a set, and `DiscardEndpointID` makes an emptied set `nil`. An endpoint that
lists a profile twice is in the set once, and its deletion panics at the second discard
(`duplicate_parent_panics`).

## Main definitions

* `Told`, `Told.apply`, `Told.run`, `Told.label`, `Told.members`
-/

namespace Felix.LabelIndex

open Replication

/-- The last update of each endpoint, parent and IP set, as records with nothing cached and
nothing counted. -/
structure Told (EpID SetID Sel CIDR : Type) where
  endpoints : AList (fun _ : EpID => EndpointData CIDR SetID)
  parentLabels : AList (fun _ : String => Labels)
  parentTags : AList (fun _ : String => List String)
  ipSets : AList (fun _ : SetID => IPSetData Sel CIDR)

namespace Told

variable {EpID SetID Sel CIDR : Type} [DecidableEq EpID] [DecidableEq SetID] [DecidableEq CIDR]

/-- Nothing told. -/
def empty : Told EpID SetID Sel CIDR := ⟨∅, ∅, ∅, ∅⟩

/-- An update replaces what was told of its key; a deletion, or `nil` labels or tags,
forgets it. -/
def apply (t : Told EpID SetID Sel CIDR) : SelectorAndNamedPortIndex.Op EpID SetID Sel CIDR →
    Told EpID SetID Sel CIDR
  | .updateIPSet id sel proto namedPort =>
    { t with ipSets := t.ipSets.insert id ⟨sel, proto, namedPort, ∅⟩ }
  | .deleteIPSet id => { t with ipSets := t.ipSets.erase id }
  | .updateEndpointOrSet id labels nets ports parentIDs =>
    { t with endpoints := t.endpoints.insert id ⟨labels, nets, ports, parentIDs, ∅⟩ }
  | .deleteEndpoint id => { t with endpoints := t.endpoints.erase id }
  | .updateParentLabels p (some labels) => { t with parentLabels := t.parentLabels.insert p labels }
  | .updateParentLabels p none | .deleteParentLabels p =>
    { t with parentLabels := t.parentLabels.erase p }
  | .updateParentTags p (some tags) => { t with parentTags := t.parentTags.insert p tags }
  | .updateParentTags p none | .deleteParentTags p => { t with parentTags := t.parentTags.erase p }

/-- What a run of operations tells. -/
def run (ops : List (SelectorAndNamedPortIndex.Op EpID SetID Sel CIDR)) : Told EpID SetID Sel CIDR :=
  ops.foldl apply empty

/-- An endpoint's effective label: its own, else from the first parent that has the label,
or a tag of that name read as the empty value. -/
def label (t : Told EpID SetID Sel CIDR) (e : EndpointData CIDR SetID) (k : String) :
    Option String :=
  match e.labels.lookup k with
  | some v => some v
  | none => e.parents.findSome? fun p =>
    match (t.parentLabels.lookup p).bind (AList.lookup k) with
    | some v => some v
    | none => if k ∈ (t.parentTags.lookup p).getD [] then some "" else none

/-- The members IP set `s` should have, with one occurrence for each endpoint contributing
each: the contributions of the endpoints its selector matches, endpoint after endpoint. -/
def members (evaluateLabels : Sel → (String → Option String) → Bool) (t : Told EpID SetID Sel CIDR)
    (s : SetID) : List (IPSetMember CIDR) :=
  match t.ipSets.lookup s with
  | none => []
  | some ipSet => t.endpoints.entries.flatMap fun e =>
    if evaluateLabels ipSet.selector (t.label e.2) then
      ((calculateEndpointContribution e.2 ipSet).toOption).getD []
    else []

end Told

/-! ## An update that `Equals` skips -/

/-- The labels `{key: ""}`. -/
def emptyValued (key : String) : Labels := (∅ : Labels).insert key ""

/-- An IP set selecting `has(b)`, and an endpoint with one address, labelled `{a: ""}` and then
`{b: ""}`. -/
def relabelDemo : List (SelectorAndNamedPortIndex.Op ℕ String String String) :=
  [.updateIPSet "s" "b" protocolNone "", .updateEndpointOrSet 1 (emptyValued "a") ["10.0.0.1/32"] [] [],
    .updateEndpointOrSet 1 (emptyValued "b") ["10.0.0.1/32"] [] []]

/-- The endpoint's address, as a member of a set without a named port. -/
def relabelMember : IPSetMember String := ⟨"10.0.0.1/32", protocolNone, 0⟩

/-- The relabelled endpoint is selected by the IP set and contributes its address once, but
the index counts the address zero times and never reports it: `Equals` took the new labels
for the old ones, the index still holds `{a: ""}`, and the endpoint's cache is empty. -/
theorem relabel_skipped :
    ∃ idx o, SelectorAndNamedPortIndex.runFrom hasLabel (fun sel : String => sel) relabelDemo .new =
        .ok (idx, o) ∧
      ((Told.run relabelDemo).members hasLabel "s").count relabelMember = 1 ∧
      (idx.ipSetDataByID.lookup "s").map (·.refCount relabelMember) = some 0 ∧
      Change.started ("s", relabelMember) ∉ o ∧
      (idx.endpointDataByID.lookup 1).map (fun d => (d.labels.entries, d.cachedMatchingIPSetIDs.toList)) =
        some ((emptyValued "a").entries, []) :=
  ⟨_, _, rfl, by decide, by decide, by decide, by decide⟩

/-! ## A profile listed twice -/

/-- An endpoint that lists the profile `p` twice, and then its deletion. -/
def duplicateParentDemo : List (SelectorAndNamedPortIndex.Op ℕ String String String) :=
  [.updateEndpointOrSet 1 ∅ ["10.0.0.1/32"] [] ["p", "p"], .deleteEndpoint 1]

/-- The update succeeds and adds the endpoint to `p`'s set, once for each listing. The deletion
discards it once for each listing: the first discard empties the set, which becomes `nil`, and
drops `p`'s record; the second panics. -/
theorem duplicate_parent_panics :
    (∃ idx o, SelectorAndNamedPortIndex.runFrom hasLabel (fun sel : String => sel)
        (duplicateParentDemo.take 1) .new = .ok (idx, o) ∧
      ((idx.parentDataByParentID.lookup "p").bind ParentData.itemIDs).map IterSet.toList =
        some [1]) ∧
    SelectorAndNamedPortIndex.runFrom hasLabel (fun sel : String => sel) duplicateParentDemo .new =
      .error "discard of unknown ID" :=
  ⟨⟨_, _, rfl, by decide⟩, rfl⟩

end Felix.LabelIndex
