import Felix.Collections.IterSet
import Mathlib

/-!
# The member cache of the XDP state

`ipsetIDsToMembers` (`dataplane/linux/xdp_state.go`) caches the members of the IP sets that XDP
programs block, and buffers the IP set callbacks until the dataplane's next cycle: a replace or
a removal of a set is kept as its new membership, and added and removed members are gathered in
two separate sets. `UpdateCache`, at the end of the cycle's member processing, applies the buffer
to the cache: a pending replacement replaces the cached set; otherwise the removed members are
discarded and then the added ones added. Sets that are not in the cache are not tracked, and
their callbacks are ignored.

Go's maps are `AList`s and its sets `IterSet`s. The source hands sets around by pointer and
changes them in place; each change here is a new value stored under the same key.

## Main definitions

* `IPSetIDsToMembers`, `safeAdd`
* `addMembers`, `removeMembers`, `delete`, `replace`, `updateCache`, `setCache`
* `MemberOp`, `applyOp`: the callbacks that reach the buffer
-/

namespace Felix.Dataplane

/-- A map from IP set ID to a set of members. -/
abbrev SetMap := AList (fun _ : String => IterSet String)

/-- `ipsetIDsToMembers`. -/
structure IPSetIDsToMembers where
  cache : SetMap
  pendingReplaces : SetMap
  pendingAdds : SetMap
  pendingDeletions : SetMap

/-- `safeAdd`: add the member to the set of `setID`, creating the set if there is none. -/
def safeAdd (m : SetMap) (setID member : String) : SetMap :=
  m.insert setID (((m.lookup setID).getD ∅).add member)

namespace IPSetIDsToMembers

/-- `newIPSetIDsToMembers`, and the state after `Clear`. -/
def new : IPSetIDsToMembers := ⟨∅, ∅, ∅, ∅⟩

/-- `GetCached`. -/
def getCached (i : IPSetIDsToMembers) (setID : String) : Option (IterSet String) :=
  i.cache.lookup setID

/-- `AddMembers`: into the pending replacement if there is one, else into the pending adds. -/
def addMembers (setID : String) (members : IterSet String) (i : IPSetIDsToMembers) :
    IPSetIDsToMembers :=
  if setID ∉ i.cache then i
  else
    match i.pendingReplaces.lookup setID with
    | some rs =>
      { i with pendingReplaces :=
          i.pendingReplaces.insert setID (members.toList.foldl (fun rs m => rs.add m) rs) }
    | none =>
      { i with pendingAdds :=
          members.toList.foldl (fun m member => safeAdd m setID member) i.pendingAdds }
attribute [grind] addMembers

/-- `RemoveMembers`: out of the pending replacement if there is one, else into the pending
deletions. -/
def removeMembers (setID : String) (members : IterSet String) (i : IPSetIDsToMembers) :
    IPSetIDsToMembers :=
  if setID ∉ i.cache then i
  else
    match i.pendingReplaces.lookup setID with
    | some rs =>
      { i with pendingReplaces :=
          i.pendingReplaces.insert setID (members.toList.foldl (fun rs m => rs.discard m) rs) }
    | none =>
      { i with pendingDeletions :=
          members.toList.foldl (fun m member => safeAdd m setID member) i.pendingDeletions }
attribute [grind] removeMembers

/-- `Replace`: the new members are the pending replacement, and the pending adds and deletions
of the set are dropped. -/
def replace (setID : String) (members : IterSet String) (i : IPSetIDsToMembers) :
    IPSetIDsToMembers :=
  if setID ∉ i.cache then i
  else
    { i with
      pendingReplaces := i.pendingReplaces.insert setID members
      pendingAdds := i.pendingAdds.erase setID
      pendingDeletions := i.pendingDeletions.erase setID }
attribute [grind] replace

/-- `Delete`: a replacement by the empty set. -/
def delete (setID : String) (i : IPSetIDsToMembers) : IPSetIDsToMembers :=
  if setID ∉ i.cache then i
  else
    { i with
      pendingReplaces := i.pendingReplaces.insert setID ∅
      pendingAdds := i.pendingAdds.erase setID
      pendingDeletions := i.pendingDeletions.erase setID }
attribute [grind] delete

/-- The cached members of one set after `UpdateCache`: the pending replacement if there is one;
otherwise the cached members, less the pending deletions, then with the pending adds. -/
def updatedMembers (i : IPSetIDsToMembers) (setID : String) (cached : IterSet String) :
    IterSet String :=
  match i.pendingReplaces.lookup setID with
  | some m => m
  | none =>
    let s := (((i.pendingDeletions.lookup setID).map IterSet.toList).getD []).foldl
      (fun s member => s.discard member) cached
    (((i.pendingAdds.lookup setID).map IterSet.toList).getD []).foldl
      (fun s member => s.add member) s
attribute [grind] updatedMembers

/-- One turn of the loop of `UpdateCache`, over the IDs of the cached sets. -/
def updateCachedSet (i : IPSetIDsToMembers) (cache : SetMap) (setID : String) : SetMap :=
  match cache.lookup setID with
  | some cached => cache.insert setID (i.updatedMembers setID cached)
  | none => cache

/-- `UpdateCache`: every cached set is updated from the buffer, which is then emptied. -/
def updateCache (i : IPSetIDsToMembers) : IPSetIDsToMembers :=
  { cache := i.cache.keys.foldl i.updateCachedSet i.cache
    pendingReplaces := ∅
    pendingAdds := ∅
    pendingDeletions := ∅ }

/-- `SetCache`: start tracking a set with the members read from the IP sets source. -/
def setCache (setID : String) (members : IterSet String) (i : IPSetIDsToMembers) :
    IPSetIDsToMembers :=
  { i with cache := i.cache.insert setID members }

end IPSetIDsToMembers

/-- The IP set callbacks the XDP state passes to its member cache: `addMembersIPSet`,
`removeMembersIPSet`, `replaceIPSet` and `removeIPSet`. -/
inductive MemberOp where
  | addMembers (setID : String) (members : IterSet String)
  | removeMembers (setID : String) (members : IterSet String)
  | replace (setID : String) (members : IterSet String)
  | delete (setID : String)

/-- One callback. -/
def IPSetIDsToMembers.applyOp (i : IPSetIDsToMembers) : MemberOp → IPSetIDsToMembers
  | .addMembers setID members => i.addMembers setID members
  | .removeMembers setID members => i.removeMembers setID members
  | .replace setID members => i.replace setID members
  | .delete setID => i.delete setID
attribute [grind] IPSetIDsToMembers.applyOp

end Felix.Dataplane
