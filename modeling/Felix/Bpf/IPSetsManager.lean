import Felix.Bpf.IPSets
import Felix.Collections.IterSet
import Felix.Idalloc.IDAllocator
import Mathlib

/-!
# The BPF IP sets manager

`bpfIPSets` (`bpf/ipsets/ipsets.go`) writes the IP sets of the calculation graph into one BPF
map, `cali_v4_ip_sets`, whose keys are the entries of every set's members, each carrying its
set's 64-bit ID (`IPSetEntry`). The string IDs of the sets get their 64-bit IDs from an
`IDAllocator`.

For each set the manager keeps the entries it wants (`DesiredEntries`) and two sets of pending
operations, the entries to add to the map and those to remove from it. Changing a set's members
only updates these (`AddMember` cancels a pending removal, `RemoveMember` a pending addition)
and marks the set dirty. `ApplyUpdates` then writes the pending operations of the dirty sets to
the map, and releases the ID of a removed set once its entries are gone. When a resync is
scheduled, as it is at start-up and after any failure, `ApplyUpdates` first rebuilds the
pending operations by scanning the map, and deletes the entries of IDs that no set has.

The map is the kernel's, with no other writer; the entries' values are all `DummyValue`, so it
is the set of its keys. Each of its calls may fail, as an `IPSetMapFailures` record says: the scan may
stop with an error after some of the entries, and each update and delete may fail. A panic of
the source is an error with its message.

Go's sets are `IterSet`s and its maps `AList`s; a loop over either is a fold over its list.

## Main definitions

* `BpfIPSet` and its methods `addMember`, `removeMember`, `removeAll`, `addMembers`,
  `replaceMembers`, `dirty`
* `BpfIPSets`, `BpfIPSets.new`, `getExistingIPSetString`, `getOrCreateIPSet`,
  `deleteIPSetAndReleaseID`
* `addOrReplaceIPSet`, `removeIPSet`, `addMembers`, `removeMembers`, `queueResync`
* `resync` and `flushIPSet`, the two parts of `applyUpdates`
* `IPSetsOp`, `BpfIPSets.runFrom`
-/

namespace Felix.Bpf

open Idalloc

/-- `bpfIPSet`: the state of one IP set. -/
structure BpfIPSet where
  originalID : String
  id : UInt64
  /-- The entries that should be in the map. -/
  desiredEntries : IterSet IPSetEntry
  /-- The entries to add to the map to bring it in line with `desiredEntries`. -/
  pendingAdds : IterSet IPSetEntry
  /-- The entries to remove from the map to bring it in line with `desiredEntries`. -/
  pendingRemoves : IterSet IPSetEntry
  deleted : Bool

namespace BpfIPSet

/-- `AddMember`: want an entry. An entry pending removal is in the map and now stays there;
another is to be added. -/
def addMember (m : BpfIPSet) (entry : IPSetEntry) : BpfIPSet :=
  if entry ∈ m.desiredEntries then m
  else if entry ∈ m.pendingRemoves then
    { m with desiredEntries := m.desiredEntries.add entry
             pendingRemoves := m.pendingRemoves.discard entry }
  else
    { m with desiredEntries := m.desiredEntries.add entry
             pendingAdds := m.pendingAdds.add entry }

/-- `RemoveMember`: stop wanting an entry. An entry pending addition is not in the map and now
stays out; another is to be removed. -/
def removeMember (m : BpfIPSet) (entry : IPSetEntry) : BpfIPSet :=
  if entry ∉ m.desiredEntries then m
  else if entry ∈ m.pendingAdds then
    { m with desiredEntries := m.desiredEntries.discard entry
             pendingAdds := m.pendingAdds.discard entry }
  else
    { m with desiredEntries := m.desiredEntries.discard entry
             pendingRemoves := m.pendingRemoves.add entry }

/-- `RemoveAll`: `RemoveMember` of every desired entry. -/
def removeAll (m : BpfIPSet) : BpfIPSet := m.desiredEntries.toList.foldl removeMember m

/-- The loop over members that `AddMembers` and the manager's `AddMembers` and `RemoveMembers`
share: the entry of each member, with the set's ID, passed to `op`; a member with no entry is
skipped, and one that does not parse panics. -/
def forEachMemberEntry (op : BpfIPSet → IPSetEntry → BpfIPSet) (m : BpfIPSet)
    (members : List String) : Except String BpfIPSet :=
  members.foldlM (fun acc member => do
    match ← protoIPSetMemberToBPFEntry m.id member with
    | some entry => pure (op acc entry)
    | none => pure acc) m
attribute [grind] forEachMemberEntry

/-- `AddMembers`. -/
def addMembers (m : BpfIPSet) (members : List String) : Except String BpfIPSet :=
  m.forEachMemberEntry addMember members

/-- `ReplaceMembers`. -/
def replaceMembers (m : BpfIPSet) (members : List String) : Except String BpfIPSet :=
  m.removeAll.addMembers members

/-- `Dirty`: something is pending, or the set is to be deleted. -/
def dirty (m : BpfIPSet) : Bool :=
  decide (0 < m.pendingRemoves.toList.length) || decide (0 < m.pendingAdds.toList.length) ||
    m.deleted

end BpfIPSet

/-- `bpfIPSets`: the sets by 64-bit ID, the allocator, the dirty sets and whether a resync is
scheduled. -/
structure BpfIPSets where
  ipSets : AList fun _ : UInt64 => BpfIPSet
  ipSetIDAllocator : IDAllocator
  dirtyIPSetIDs : IterSet UInt64
  resyncScheduled : Bool

/-- The failures of the map's calls in one `ApplyUpdates`: the scan of a resync may fail after
visiting some entries, and each `Update` and `Delete` of an entry may fail. A failed call
changes nothing. -/
structure IPSetMapFailures where
  /-- The scan fails after visiting this many entries. -/
  iterFailsAfter : Option ℕ
  update : IPSetEntry → Bool
  delete : IPSetEntry → Bool

/-- No call fails. -/
def IPSetMapFailures.none : IPSetMapFailures := ⟨.none, fun _ => false, fun _ => false⟩
attribute [grind] IPSetMapFailures.none

/-- The entries a scan of the map visits: all of them, or those before the error. -/
def IPSetMapFailures.visited (f : IPSetMapFailures) (dataplane : IterSet IPSetEntry) : List IPSetEntry :=
  match f.iterFailsAfter with
  | .none => dataplane.toList
  | some k => dataplane.toList.take k

namespace BpfIPSets

/-- `NewBPFIPSets`: no sets, and a resync scheduled. -/
def new (ipSetIDAllocator : IDAllocator) : BpfIPSets := ⟨∅, ipSetIDAllocator, ∅, true⟩

/-- `getExistingIPSetString`: the set of a string ID, never allocating an ID. -/
def getExistingIPSetString (m : BpfIPSets) (setID : String) : Option BpfIPSet :=
  let id := m.ipSetIDAllocator.getNoAlloc setID
  if id = 0 then none else m.ipSets.lookup id

/-- `getExistingIPSet`. -/
def getExistingIPSet (m : BpfIPSets) (setID : UInt64) : Option BpfIPSet := m.ipSets.lookup setID

/-- Store a set under its ID: the write through the pointer the Go code holds. -/
def putIPSet (m : BpfIPSets) (ipSet : BpfIPSet) : BpfIPSets :=
  { m with ipSets := m.ipSets.insert ipSet.id ipSet }

/-- `markIPSetDirty`. -/
def markIPSetDirty (m : BpfIPSets) (ipSet : BpfIPSet) : BpfIPSets :=
  { m with dirtyIPSetIDs := m.dirtyIPSetIDs.add ipSet.id }

/-- `getOrCreateIPSet`: the set of a string ID, allocating an ID and an empty set if needed;
a set queued for deletion is revived. -/
def getOrCreateIPSet (trialHash : String → UInt64 → UInt64) (m : BpfIPSets) (setID : String) :
    Except String (BpfIPSets × BpfIPSet) := do
  let (ipSetIDAllocator, id) ← m.ipSetIDAllocator.getOrAlloc trialHash setID
  let m := { m with ipSetIDAllocator }
  let ipSet : BpfIPSet :=
    match m.ipSets.lookup id with
    | .none => ⟨setID, id, ∅, ∅, ∅, false⟩
    | some ipSet => { ipSet with deleted := false }
  pure (m.putIPSet ipSet, ipSet)
attribute [grind] getOrCreateIPSet

/-- `deleteIPSetAndReleaseID`: forget the set and release its ID. -/
def deleteIPSetAndReleaseID (m : BpfIPSets) (ipSet : BpfIPSet) : Except String BpfIPSets :=
  match m.ipSetIDAllocator.releaseUintID ipSet.id with
  | .ok ipSetIDAllocator => .ok { m with ipSets := m.ipSets.erase ipSet.id, ipSetIDAllocator }
  | .error _ => .error "Failed to release IP set UID"

/-- `AddOrReplaceIPSet`: the set's members are now exactly `members`. -/
def addOrReplaceIPSet (trialHash : String → UInt64 → UInt64) (m : BpfIPSets) (setID : String)
    (members : List String) : Except String BpfIPSets := do
  let (m, ipSet) ← m.getOrCreateIPSet trialHash setID
  let ipSet ← ipSet.replaceMembers members
  pure ((m.putIPSet ipSet).markIPSetDirty ipSet)

/-- `RemoveIPSet`: remove every member and queue the set for deletion. -/
def removeIPSet (m : BpfIPSets) (setID : String) : Except String BpfIPSets :=
  match m.getExistingIPSetString setID with
  | .none => .error "Received deletion for unknown IP set"
  | some ipSet =>
    if ipSet.deleted then .error "Received deletion for already-deleted IP set"
    else
      let ipSet := { ipSet.removeAll with deleted := true }
      .ok ((m.putIPSet ipSet).markIPSetDirty ipSet)

/-- The body that the manager's `AddMembers` and `RemoveMembers` share: `op` on the entry of
each member of a live set. -/
def updateMembers (op : BpfIPSet → IPSetEntry → BpfIPSet) (m : BpfIPSets) (setID : String)
    (members : List String) : Except String BpfIPSets :=
  match m.getExistingIPSetString setID with
  | .none => .error "Received delta for unknown IP set"
  | some ipSet =>
    if ipSet.deleted then .error "Received delta for already-deleted IP set"
    else do
      let ipSet ← ipSet.forEachMemberEntry op members
      pure ((m.putIPSet ipSet).markIPSetDirty ipSet)

/-- `AddMembers`. -/
def addMembers (m : BpfIPSets) (setID : String) (newMembers : List String) :
    Except String BpfIPSets :=
  m.updateMembers BpfIPSet.addMember setID newMembers

/-- `RemoveMembers`. -/
def removeMembers (m : BpfIPSets) (setID : String) (removedMembers : List String) :
    Except String BpfIPSets :=
  m.updateMembers BpfIPSet.removeMember setID removedMembers

/-- `QueueResync`. -/
def queueResync (m : BpfIPSets) : BpfIPSets := { m with resyncScheduled := true }

/-! ## `ApplyUpdates` -/

/-- The first loop of a resync: every set is to add all its entries and remove none. -/
def resetPending (ipSets : AList fun _ : UInt64 => BpfIPSet) : AList fun _ : UInt64 => BpfIPSet :=
  ⟨ipSets.entries.map fun kv => ⟨kv.1, { kv.2 with pendingAdds := kv.2.desiredEntries
                                                   pendingRemoves := ∅ }⟩,
    by simpa [List.NodupKeys, List.keys, Function.comp_def] using ipSets.nodupKeys⟩

/-- The callback of the resync's scan, on one entry of the map: an entry of an unknown ID is
kept for deletion; for a known set, a wanted entry is no longer to be added and another is to
be removed. -/
def scanEntry (acc : (AList fun _ : UInt64 => BpfIPSet) × List IPSetEntry) (entry : IPSetEntry) :
    (AList fun _ : UInt64 => BpfIPSet) × List IPSetEntry :=
  let setID := IPSetEntry.setID entry
  match acc.1.lookup setID with
  | .none => (acc.1, acc.2 ++ [entry])
  | some ipSet =>
    if entry ∈ ipSet.desiredEntries then
      (acc.1.insert setID { ipSet with pendingAdds := ipSet.pendingAdds.discard entry }, acc.2)
    else
      (acc.1.insert setID { ipSet with pendingRemoves := ipSet.pendingRemoves.add entry }, acc.2)

/-- The resync of `ApplyUpdates`: rebuild the pending operations of every set from a scan of
the map, delete the entries of unknown IDs, and mark dirty the sets with work to do. A failed
call schedules another resync. -/
def resync (f : IPSetMapFailures) (m : BpfIPSets) (dataplane : IterSet IPSetEntry) :
    BpfIPSets × IterSet IPSetEntry :=
  let (ipSets, unknownEntries) := (f.visited dataplane).foldl scanEntry (resetPending m.ipSets, [])
  let (resyncScheduled, dataplane) := unknownEntries.foldl
    (fun (acc : Bool × IterSet IPSetEntry) entry =>
      if f.delete entry then (true, acc.2) else (acc.1, acc.2.discard entry))
    (f.iterFailsAfter.isSome, dataplane)
  let dirtyIPSetIDs := ipSets.entries.foldl
    (fun (dirty : IterSet UInt64) kv => if kv.2.dirty then dirty.add kv.2.id else dirty) ∅
  ({ m with ipSets, dirtyIPSetIDs, resyncScheduled }, dataplane)

/-- The loop of `ApplyUpdates` over one set's pending operations of one kind: `op` on the map
for each entry. An entry whose call fails stays pending and leaves the set dirty; the others
are done. -/
def flushPending (fails : IPSetEntry → Bool)
    (op : IPSetEntry → IterSet IPSetEntry → IterSet IPSetEntry) (pending : IterSet IPSetEntry)
    (dataplane : IterSet IPSetEntry) (leaveDirty : Bool) :
    IterSet IPSetEntry × IterSet IPSetEntry × Bool :=
  pending.toList.foldl
    (fun (acc : IterSet IPSetEntry × IterSet IPSetEntry × Bool) entry =>
      if fails entry then (acc.1, acc.2.1, true)
      else (acc.1.discard entry, op entry acc.2.1, acc.2.2))
    (pending, dataplane, leaveDirty)

/-- The body of the loop of `ApplyUpdates` over the dirty sets, for one ID: remove the pending
removals and add the pending additions; a set left with nothing pending is clean, and released
if it was to be deleted. -/
def flushIPSet (f : IPSetMapFailures) (st : BpfIPSets × IterSet IPSetEntry) (setID : UInt64) :
    Except String (BpfIPSets × IterSet IPSetEntry) :=
  let (m, dataplane) := st
  match m.getExistingIPSet setID with
  | .none =>
    .ok ({ m with resyncScheduled := true, dirtyIPSetIDs := m.dirtyIPSetIDs.discard setID },
      dataplane)
  | some ipSet =>
    let (pendingRemoves, dataplane, leaveDirty) :=
      flushPending f.delete IterSet.discard ipSet.pendingRemoves dataplane false
    let (pendingAdds, dataplane, leaveDirty) :=
      flushPending f.update IterSet.add ipSet.pendingAdds dataplane leaveDirty
    let ipSet := { ipSet with pendingRemoves, pendingAdds }
    let m := m.putIPSet ipSet
    if leaveDirty then .ok ({ m with resyncScheduled := true }, dataplane)
    else if ipSet.deleted then do
      let m ← m.deleteIPSetAndReleaseID ipSet
      pure ({ m with dirtyIPSetIDs := m.dirtyIPSetIDs.discard setID }, dataplane)
    else .ok ({ m with dirtyIPSetIDs := m.dirtyIPSetIDs.discard setID }, dataplane)

/-- `ApplyUpdates`: a resync if one is scheduled, then the work of every dirty set. -/
def applyUpdates (f : IPSetMapFailures) (m : BpfIPSets) (dataplane : IterSet IPSetEntry) :
    Except String (BpfIPSets × IterSet IPSetEntry) :=
  let st := if m.resyncScheduled then m.resync f dataplane else (m, dataplane)
  st.1.dirtyIPSetIDs.toList.foldlM (flushIPSet f) st

end BpfIPSets

/-- The calls the calculation graph makes on the manager, and `ApplyUpdates` with the failures
of its map calls. `AddOrReplaceIPSet` is given the set's ID from its metadata. -/
inductive IPSetsOp where
  | addOrReplaceIPSet (setID : String) (members : List String)
  | removeIPSet (setID : String)
  | addMembers (setID : String) (members : List String)
  | removeMembers (setID : String) (members : List String)
  | queueResync
  | applyUpdates (f : IPSetMapFailures)

namespace BpfIPSets

/-- One call on the manager and the map. -/
def apply (trialHash : String → UInt64 → UInt64) (st : BpfIPSets × IterSet IPSetEntry) :
    IPSetsOp → Except String (BpfIPSets × IterSet IPSetEntry)
  | .addOrReplaceIPSet setID members =>
    (fun m => (m, st.2)) <$> st.1.addOrReplaceIPSet trialHash setID members
  | .removeIPSet setID => (fun m => (m, st.2)) <$> st.1.removeIPSet setID
  | .addMembers setID members => (fun m => (m, st.2)) <$> st.1.addMembers setID members
  | .removeMembers setID members => (fun m => (m, st.2)) <$> st.1.removeMembers setID members
  | .queueResync => .ok (st.1.queueResync, st.2)
  | .applyUpdates f => st.1.applyUpdates f st.2

/-- A run of calls, from a manager and a map. -/
def runFrom (trialHash : String → UInt64 → UInt64) (ops : List IPSetsOp)
    (st : BpfIPSets × IterSet IPSetEntry) : Except String (BpfIPSets × IterSet IPSetEntry) :=
  ops.foldlM (apply trialHash) st

end BpfIPSets

end Felix.Bpf
