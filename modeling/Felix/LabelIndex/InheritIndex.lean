import Felix.Collections.SetMap
import Felix.Replication.Report

/-!
# The label inheritance index

`InheritIndex` keeps a set of items (endpoints) with their own labels and their parents
(profiles), each parent's labels and tags, and a set of selectors; it tracks which
selectors match which items and calls `OnMatchStarted` or `OnMatchStopped` for each pair
that starts or stops matching. The matches are stored twice, in `labelIdsBySelId` and in
`selIdsByLabelId`. An item's labels are its own, then each parent's labels followed by the
parent's tags as empty-valued labels, parent by parent in order (`itemData.Get`).

This module is the model of `label_inheritance_index.go`: each function under its own
name, from the index to the index and the callbacks it made, in `Except String` where the
source can panic. Items refer to their parents by ID, where the source holds pointers to
the parent records; the invariant `Consistent.tracked` (in `InheritMatch`) shows that a
record an item refers to is never dropped from `parentDataByParentID`, so the two agree.
A selector is a value of an abstract type with `evaluateLabels`, a pure function of the
label lookup, and `uniqueID`.

## Main definitions

* `InheritIndex`, `InheritIndex.new`, `InheritIndex.get`
* `storeMatch`, `deleteMatch`, `updateMatches`, `scanAllLabels`, `scanAllSelectors`,
  `flushUpdates`, `flushChildren`, `onItemParentsUpdate`
* the operations `updateSelector` to `deleteParentTags`, `Op`, `apply`, `runFrom`
-/

namespace Felix.LabelIndex

open Replication

/-- A label map, `map[string]string`. -/
abbrev Labels := AList (fun _ : String => String)

/-- `itemData`: an item's own labels and its parents' IDs, in order. -/
structure ItemData where
  labels : Labels
  parents : List String

/-- `parentData`: what is known of one parent; each field stays `nil` until it is set. -/
structure ParentData (ItemID : Type*) where
  labels : Option Labels
  tags : Option (List String)
  itemIDs : Option (IterSet ItemID)

/-- The record `getOrCreateParent` makes. -/
def ParentData.empty {ItemID : Type*} : ParentData ItemID := ⟨none, none, none⟩

/-- The parent's label `labelName`, else a tag of that name, read as the empty value. -/
def ParentData.get {ItemID : Type*} (parent : ParentData ItemID) (labelName : String) :
    Option String :=
  match parent.labels.bind (AList.lookup labelName) with
  | some value => some value
  | none => if labelName ∈ parent.tags.getD [] then some "" else none
attribute [grind] ParentData.get

/-- The selector `has(key)`: the label `key` is present. -/
def hasLabel (key : String) (labels : String → Option String) : Bool := (labels key).isSome

structure InheritIndex (ItemID SelID Sel : Type*) where
  itemDataByID : AList (fun _ : ItemID => ItemData)
  parentDataByParentID : AList (fun _ : String => ParentData ItemID)
  selectorsById : AList (fun _ : SelID => Sel)
  selIdsByLabelId : SetMap ItemID SelID
  labelIdsBySelId : SetMap SelID ItemID
  dirtyItemIDs : IterSet ItemID

/-- The panic of a method call on a `nil` set or record. -/
def nilDereference : String := "runtime error: invalid memory address or nil pointer dereference"

/-- A call of `OnMatchStarted` or `OnMatchStopped`, with the selector and the item. -/
abbrev MatchCallback (SelID ItemID : Type*) := Change (SelID × ItemID)

namespace InheritIndex

variable {ItemID SelID Sel : Type*} [DecidableEq ItemID] [DecidableEq SelID]

/-- `NewInheritIndex`. -/
def new : InheritIndex ItemID SelID Sel := ⟨∅, ∅, ∅, ∅, ∅, ∅⟩

/-- `itemData.Get` for the item `d`: its own label, else the first of its parents that has
the label or a tag of that name. -/
def get (idx : InheritIndex ItemID SelID Sel) (d : ItemData) (labelName : String) :
    Option String :=
  match d.labels.lookup labelName with
  | some value => some value
  | none => d.parents.findSome? fun p =>
      (idx.parentDataByParentID.lookup p).bind fun parent => parent.get labelName

/-! ## Matches -/

/-- `storeMatch`: record the pair, and report it if it is new. -/
def storeMatch (selId : SelID) (labelId : ItemID) (idx : InheritIndex ItemID SelID Sel) :
    InheritIndex ItemID SelID Sel × List (MatchCallback SelID ItemID) :=
  if idx.labelIdsBySelId.Mem selId labelId then (idx, [])
  else
    ({ idx with
        labelIdsBySelId := idx.labelIdsBySelId.put selId labelId
        selIdsByLabelId := idx.selIdsByLabelId.put labelId selId },
      [.started (selId, labelId)])

/-- `deleteMatch`: drop the pair, and report it if it was recorded. -/
def deleteMatch (selId : SelID) (labelId : ItemID) (idx : InheritIndex ItemID SelID Sel) :
    Except String (InheritIndex ItemID SelID Sel × List (MatchCallback SelID ItemID)) :=
  match idx.labelIdsBySelId.lookup selId with
  | none => .ok (idx, [])
  | some labelIds =>
    if labelId ∈ labelIds then
      -- `selIdsByLabelId[labelId].Discard(selId)` on a missing set dereferences `nil`
      if labelId ∈ idx.selIdsByLabelId then
        .ok ({ idx with
            labelIdsBySelId := idx.labelIdsBySelId.discard selId labelId
            selIdsByLabelId := idx.selIdsByLabelId.discard labelId selId },
          [.stopped (selId, labelId)])
      else .error nilDereference
    else .ok (idx, [])
attribute [grind] deleteMatch

variable (evaluateLabels : Sel → (String → Option String) → Bool)

/-- `updateMatches`: store or delete the pair as the selector evaluates on the item. -/
def updateMatches (selId : SelID) (sel : Sel) (labelId : ItemID) (labels : ItemData)
    (idx : InheritIndex ItemID SelID Sel) :
    Except String (InheritIndex ItemID SelID Sel × List (MatchCallback SelID ItemID)) :=
  if evaluateLabels sel (idx.get labels) then .ok (idx.storeMatch selId labelId)
  else idx.deleteMatch selId labelId

/-- `scanAllLabels`: evaluate one selector on every item. -/
def scanAllLabels (selId : SelID) (sel : Sel) (idx : InheritIndex ItemID SelID Sel) :
    Except String (InheritIndex ItemID SelID Sel × List (MatchCallback SelID ItemID)) :=
  forEach (fun e idx => idx.updateMatches evaluateLabels selId sel e.1 e.2)
    idx.itemDataByID.entries idx

/-- `scanAllSelectors`: evaluate every selector on one item. The source looks the item up
itself; its caller has just found it there, and passes it. -/
def scanAllSelectors (labelId : ItemID) (labels : ItemData) (idx : InheritIndex ItemID SelID Sel) :
    Except String (InheritIndex ItemID SelID Sel × List (MatchCallback SelID ItemID)) :=
  forEach (fun e idx => idx.updateMatches evaluateLabels e.1 e.2 labelId labels)
    idx.selectorsById.entries idx

/-- One turn of `flushUpdates`: an item that is gone loses its matches, any other is
evaluated against every selector. -/
def flushItem (itemID : ItemID) (idx : InheritIndex ItemID SelID Sel) :
    Except String (InheritIndex ItemID SelID Sel × List (MatchCallback SelID ItemID)) :=
  match idx.itemDataByID.lookup itemID with
  | none =>
    match idx.selIdsByLabelId.lookup itemID with
    | none => .ok (idx, [])
    | some matchSet => forEach (fun selId idx => idx.deleteMatch selId itemID) matchSet.toList idx
  | some labels => idx.scanAllSelectors evaluateLabels itemID labels

/-- `flushUpdates`: bring every dirty item's matches up to date, and clear the dirty set. -/
def flushUpdates (idx : InheritIndex ItemID SelID Sel) :
    Except String (InheritIndex ItemID SelID Sel × List (MatchCallback SelID ItemID)) := do
  let (idx, callbacks) ← forEach (fun itemID idx => idx.flushItem evaluateLabels itemID)
    idx.dirtyItemIDs.toList idx
  pure ({ idx with dirtyItemIDs := ∅ }, callbacks)

/-! ## Parents -/

/-- `getOrCreateParent`. -/
def getOrCreateParent (id : String) (idx : InheritIndex ItemID SelID Sel) :
    InheritIndex ItemID SelID Sel :=
  match idx.parentDataByParentID.lookup id with
  | some _ => idx
  | none => { idx with parentDataByParentID := idx.parentDataByParentID.insert id .empty }
attribute [grind] getOrCreateParent

/-- A write through the pointer to the parent's record. -/
def modifyParent (id : String) (f : ParentData ItemID → ParentData ItemID)
    (idx : InheritIndex ItemID SelID Sel) : InheritIndex ItemID SelID Sel :=
  match idx.parentDataByParentID.lookup id with
  | some parent => { idx with parentDataByParentID := idx.parentDataByParentID.insert id (f parent) }
  | none => idx

/-- `discardParentIfEmpty`: drop a record with no items, labels or tags. -/
def discardParentIfEmpty (id : String) (idx : InheritIndex ItemID SelID Sel) :
    InheritIndex ItemID SelID Sel :=
  match idx.parentDataByParentID.lookup id with
  | some ⟨none, none, none⟩ =>
    { idx with parentDataByParentID := idx.parentDataByParentID.erase id }
  | _ => idx
attribute [grind] discardParentIfEmpty

/-- A turn of the first loop of `onItemParentsUpdate`: the item leaves an old parent. A
parent without an item set (in particular one visited a second time after the item left
it) dereferences `nil`. -/
def leaveParent (id : ItemID) (parentID : String) (idx : InheritIndex ItemID SelID Sel) :
    Except String (InheritIndex ItemID SelID Sel) :=
  match idx.parentDataByParentID.lookup parentID with
  | some ⟨labels, tags, some itemIDs⟩ =>
    let itemIDs := itemIDs.discard id
    let idx := { idx with
      parentDataByParentID := idx.parentDataByParentID.insert parentID
        ⟨labels, tags, if itemIDs.toList = [] then none else some itemIDs⟩ }
    .ok (idx.discardParentIfEmpty parentID)
  | _ => .error nilDereference

/-- A turn of the second loop of `onItemParentsUpdate`: the item joins a new parent. -/
def joinParent (id : ItemID) (parentID : String) (idx : InheritIndex ItemID SelID Sel) :
    InheritIndex ItemID SelID Sel :=
  idx.modifyParent parentID fun parent =>
    { parent with itemIDs := some ((parent.itemIDs.getD ∅).add id) }

/-- `onItemParentsUpdate`: the item leaves the old parents that are not new ones, then
joins every new parent. -/
def onItemParentsUpdate (id : ItemID) (oldParents newParents : List String)
    (idx : InheritIndex ItemID SelID Sel) : Except String (InheritIndex ItemID SelID Sel) := do
  let idx ← oldParents.foldlM (fun idx parentID =>
    if parentID ∈ newParents then pure idx else idx.leaveParent id parentID) idx
  pure (newParents.foldl (fun idx parentID => idx.joinParent id parentID) idx)

/-- `flushChildren`: mark the parent's items dirty and flush. -/
def flushChildren (parentID : String) (idx : InheritIndex ItemID SelID Sel) :
    Except String (InheritIndex ItemID SelID Sel × List (MatchCallback SelID ItemID)) :=
  let idx := match idx.parentDataByParentID.lookup parentID with
    | some ⟨_, _, some itemIDs⟩ =>
      { idx with
        dirtyItemIDs := itemIDs.toList.foldl (fun dirty itemID => dirty.add itemID) idx.dirtyItemIDs }
    | _ => idx
  idx.flushUpdates evaluateLabels

/-! ## The operations -/

section Operations

variable {UID : Type*} [DecidableEq UID] (uniqueID : Sel → UID)

/-- `UpdateSelector`: nothing changes when the selector has the same unique ID as the one
held; otherwise the selector is evaluated on every item and stored. -/
def updateSelector (id : SelID) (sel : Sel) (idx : InheritIndex ItemID SelID Sel) :
    Except String (InheritIndex ItemID SelID Sel × List (MatchCallback SelID ItemID)) :=
  if (idx.selectorsById.lookup id).any fun oldSel => decide (uniqueID oldSel = uniqueID sel) then
    .ok (idx, [])
  else do
    let (idx, callbacks) ← idx.scanAllLabels evaluateLabels id sel
    pure ({ idx with selectorsById := idx.selectorsById.insert id sel }, callbacks)

end Operations

/-- `DeleteSelector`: drop the selector's matches, then the selector. -/
def deleteSelector (id : SelID) (idx : InheritIndex ItemID SelID Sel) :
    Except String (InheritIndex ItemID SelID Sel × List (MatchCallback SelID ItemID)) := do
  -- `matchSet.Iter` over the selector's matches; a `nil` set has none
  let matchSet := (idx.labelIdsBySelId.lookup id).getD ∅
  let (idx, callbacks) ← forEach (fun labelId idx => idx.deleteMatch id labelId) matchSet.toList idx
  pure ({ idx with selectorsById := idx.selectorsById.erase id }, callbacks)

/-- `UpdateLabels`. The source returns early when `reflect.DeepEqual(oldParents, parentIDs)`
holds and the labels are unchanged; `oldParents` is a `[]*parentData` and `parentIDs` a
`[]string`, and values of distinct types are never deeply equal, so it never does. -/
def updateLabels (id : ItemID) (labels : Labels) (parentIDs : List String)
    (idx : InheritIndex ItemID SelID Sel) :
    Except String (InheritIndex ItemID SelID Sel × List (MatchCallback SelID ItemID)) := do
  let oldParents := ((idx.itemDataByID.lookup id).map ItemData.parents).getD []
  let idx := parentIDs.foldl (fun idx parentID => idx.getOrCreateParent parentID) idx
  let idx := { idx with itemDataByID := idx.itemDataByID.insert id ⟨labels, parentIDs⟩ }
  let idx ← idx.onItemParentsUpdate id oldParents parentIDs
  flushUpdates evaluateLabels { idx with dirtyItemIDs := idx.dirtyItemIDs.add id }

/-- `DeleteLabels`. -/
def deleteLabels (id : ItemID) (idx : InheritIndex ItemID SelID Sel) :
    Except String (InheritIndex ItemID SelID Sel × List (MatchCallback SelID ItemID)) := do
  let oldParents := ((idx.itemDataByID.lookup id).map ItemData.parents).getD []
  let idx := { idx with itemDataByID := idx.itemDataByID.erase id }
  let idx ← idx.onItemParentsUpdate id oldParents []
  flushUpdates evaluateLabels { idx with dirtyItemIDs := idx.dirtyItemIDs.add id }

/-- `UpdateParentLabels` and `UpdateParentTags`: set one field of the parent's record,
creating the record if there is none, and flush the parent's items. -/
def updateParent (set : ParentData ItemID → ParentData ItemID) (parentID : String)
    (idx : InheritIndex ItemID SelID Sel) :
    Except String (InheritIndex ItemID SelID Sel × List (MatchCallback SelID ItemID)) :=
  ((idx.getOrCreateParent parentID).modifyParent parentID set).flushChildren evaluateLabels parentID

/-- `DeleteParentLabels` and `DeleteParentTags`: nothing happens for an unknown parent;
otherwise clear one field of its record, drop the record if it is left empty, and flush
the parent's items. -/
def deleteParent (clear : ParentData ItemID → ParentData ItemID) (parentID : String)
    (idx : InheritIndex ItemID SelID Sel) :
    Except String (InheritIndex ItemID SelID Sel × List (MatchCallback SelID ItemID)) :=
  match idx.parentDataByParentID.lookup parentID with
  | none => .ok (idx, [])
  | some _ =>
    ((idx.modifyParent parentID clear).discardParentIfEmpty parentID).flushChildren evaluateLabels
      parentID

/-- `UpdateParentLabels`. -/
def updateParentLabels (parentID : String) (labels : Labels) :
    InheritIndex ItemID SelID Sel →
      Except String (InheritIndex ItemID SelID Sel × List (MatchCallback SelID ItemID)) :=
  updateParent evaluateLabels (fun parent => { parent with labels := some labels }) parentID

/-- `DeleteParentLabels`. -/
def deleteParentLabels (parentID : String) :
    InheritIndex ItemID SelID Sel →
      Except String (InheritIndex ItemID SelID Sel × List (MatchCallback SelID ItemID)) :=
  deleteParent evaluateLabels (fun parent => { parent with labels := none }) parentID

/-- `UpdateParentTags`. -/
def updateParentTags (parentID : String) (tags : List String) :
    InheritIndex ItemID SelID Sel →
      Except String (InheritIndex ItemID SelID Sel × List (MatchCallback SelID ItemID)) :=
  updateParent evaluateLabels (fun parent => { parent with tags := some tags }) parentID

/-- `DeleteParentTags`. -/
def deleteParentTags (parentID : String) :
    InheritIndex ItemID SelID Sel →
      Except String (InheritIndex ItemID SelID Sel × List (MatchCallback SelID ItemID)) :=
  deleteParent evaluateLabels (fun parent => { parent with tags := none }) parentID

end InheritIndex

/-- The operations of the index. -/
inductive Op (ItemID SelID Sel : Type*) where
  | updateSelector (id : SelID) (sel : Sel)
  | deleteSelector (id : SelID)
  | updateLabels (id : ItemID) (labels : Labels) (parentIDs : List String)
  | deleteLabels (id : ItemID)
  | updateParentLabels (parentID : String) (labels : Labels)
  | deleteParentLabels (parentID : String)
  | updateParentTags (parentID : String) (tags : List String)
  | deleteParentTags (parentID : String)

namespace InheritIndex

variable {ItemID SelID Sel UID : Type*} [DecidableEq ItemID] [DecidableEq SelID] [DecidableEq UID]
  (evaluateLabels : Sel → (String → Option String) → Bool) (uniqueID : Sel → UID)

/-- One operation, and the callbacks it makes. -/
def apply (idx : InheritIndex ItemID SelID Sel) :
    Op ItemID SelID Sel →
      Except String (InheritIndex ItemID SelID Sel × List (MatchCallback SelID ItemID))
  | .updateSelector id sel => idx.updateSelector evaluateLabels uniqueID id sel
  | .deleteSelector id => idx.deleteSelector id
  | .updateLabels id labels parentIDs => idx.updateLabels evaluateLabels id labels parentIDs
  | .deleteLabels id => idx.deleteLabels evaluateLabels id
  | .updateParentLabels parentID labels => updateParentLabels evaluateLabels parentID labels idx
  | .deleteParentLabels parentID => deleteParentLabels evaluateLabels parentID idx
  | .updateParentTags parentID tags => updateParentTags evaluateLabels parentID tags idx
  | .deleteParentTags parentID => deleteParentTags evaluateLabels parentID idx

/-- A run of operations, with all the callbacks made in order. -/
def runFrom (ops : List (Op ItemID SelID Sel)) (idx : InheritIndex ItemID SelID Sel) :
    Except String (InheritIndex ItemID SelID Sel × List (MatchCallback SelID ItemID)) :=
  forEach (fun op idx => idx.apply evaluateLabels uniqueID op) ops idx

end InheritIndex

end Felix.LabelIndex
