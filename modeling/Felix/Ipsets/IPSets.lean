import Felix.Ipsets.Defs

/-!
# The IP sets manager

`IPSets` keeps Felix's IP sets of one IP version in the kernel. Callers change the wanted
contents (`AddOrReplaceIPSet`, `AddMembers`, `RemoveMembers`, `RemoveIPSet`, `SetFilter`), and
`ApplyUpdates` writes the changes as one `ipset restore` session; `ApplyDeletions` then
destroys the sets that are no longer wanted.

Each IP set is in one of two modes. With a pending full rewrite (`pendingReplace`) its members
go into a temporary set that is then swapped in. Otherwise `members` is what Felix believes the
kernel holds, and `pendingAdds` and `pendingDeletions` are the deltas still to write. A resync
(`tryResync`) lists the kernel's sets and, for each listed set that Felix holds in delta mode,
takes the listing as the truth and recomputes the deltas; it then queues Felix's left-over
sets for deletion.

This module is the model of `ipsets.go`, each function under its own name, over the kernel of
`Felix.Ipsets.Defs`. A function that panics returns an error with the panic's message.

## Main definitions

* `IPSet`, `IPSets`, `newIPSets`
* `addOrReplaceIPSet`, `removeIPSet`, `addMembers`, `removeMembers`, `setFilter`, `getMembers`
* `tryResync`, `tryUpdates`, `applyUpdates`, `applyDeletions`
* `Event`, `Event.apply`, `runFrom`: the manager's calls interleaved with other processes'
  changes to the kernel
-/

namespace Felix.Ipsets

open LabelIndex

/-- `ipSet`. `mainIPSetNameToIPSet` points at the same records as `ipSetIDToIPSet`; the model
keeps the set ID in its place. -/
structure IPSet extends IPSetMetadata where
  mainIPSetName : String
  /-- What Felix believes the kernel holds, or `none` when it is about to rewrite the set. -/
  members : Option (IterSet String)
  pendingReplace : Option (IterSet String)
  pendingAdds : IterSet String
  pendingDeletions : IterSet String

/-- `IPSets`. -/
structure IPSets where
  ipVersionConfig : IPVersionConfig
  ipSetIDToIPSet : AList fun _ : String => IPSet
  /-- Each main IP set name, with the ID of the set it names. -/
  mainIPSetNameToIPSet : AList fun _ : String => String
  existingIPSetNames : IterSet String
  nextTempIPSetIdx : ℕ
  dirtyIPSetIDs : IterSet String
  resyncRequired : Bool
  pendingTempIPSetDeletions : IterSet String
  pendingIPSetDeletions : IterSet String
  neededIPSetNames : Option (IterSet String)

/-- `NewIPSets`. -/
def newIPSets (ipVersionConfig : IPVersionConfig) : IPSets where
  ipVersionConfig := ipVersionConfig
  ipSetIDToIPSet := ∅
  mainIPSetNameToIPSet := ∅
  existingIPSetNames := ∅
  nextTempIPSetIdx := 0
  dirtyIPSetIDs := ∅
  resyncRequired := true
  pendingTempIPSetDeletions := ∅
  pendingIPSetDeletions := ∅
  neededIPSetNames := none

/-! ## Member sets -/

/-- A set Go reads through an interface that may be nil: a nil set panics. -/
def deref : Option (IterSet String) → Except String (IterSet String)
  | some m => .ok m
  | none => .error nilDereference
attribute [grind] deref

/-- `members`, with the pending additions added and then the pending deletions removed. -/
def applyDeltas (members pendingAdds pendingDeletions : IterSet String) : IterSet String :=
  pendingDeletions.toList.foldl (fun r m => r.discard m) (pendingAdds.toList.foldl (fun r m => r.add m) members)

/-- The loops that fold the pending deltas into a set that may be nil, as `deleteIPSet` and
`tryUpdates` write them: on a nil set the first delta panics. -/
def withDeltas (members : Option (IterSet String)) (pendingAdds pendingDeletions : IterSet String) :
    Except String (Option (IterSet String)) :=
  match members with
  | some m => .ok (some (applyDeltas m pendingAdds pendingDeletions))
  | none => if pendingAdds.toList = [] ∧ pendingDeletions.toList = [] then .ok none else .error nilDereference

namespace IPSet

/-- `AddMembers`' turn for one member of a set in delta mode. -/
def addMemberDelta (ipSet : IPSet) (m : String) : Except String IPSet := do
  let members ← deref ipSet.members
  let ipSet := { ipSet with pendingDeletions := ipSet.pendingDeletions.discard m }
  if m ∈ members then pure ipSet else pure { ipSet with pendingAdds := ipSet.pendingAdds.add m }

/-- `RemoveMembers`' turn for one member of a set in delta mode. -/
def removeMemberDelta (ipSet : IPSet) (m : String) : Except String IPSet := do
  let members ← deref ipSet.members
  let ipSet := { ipSet with pendingAdds := ipSet.pendingAdds.discard m }
  if m ∈ members then pure { ipSet with pendingDeletions := ipSet.pendingDeletions.add m } else pure ipSet

/-- `AddMembers`' change to the set: into the pending rewrite, or as deltas. -/
def addMembers (ipSet : IPSet) (canonMembers : IterSet String) : Except String IPSet :=
  match ipSet.pendingReplace with
  | some r => .ok { ipSet with pendingReplace := some (canonMembers.toList.foldl (fun r m => r.add m) r) }
  | none => canonMembers.toList.foldlM addMemberDelta ipSet

/-- `RemoveMembers`' change to the set. -/
def removeMembers (ipSet : IPSet) (canonMembers : IterSet String) : Except String IPSet :=
  match ipSet.pendingReplace with
  | some r => .ok { ipSet with pendingReplace := some (canonMembers.toList.foldl (fun r m => r.discard m) r) }
  | none => canonMembers.toList.foldlM removeMemberDelta ipSet

/-- One turn of `tryResync`'s loop over the members Felix believes are programmed, with the
listing of the dataplane's members still unmatched and the dirty set. A member the dataplane
has is struck off the listing; one it lacks is dropped from `members`, and its pending
deletion is taken as done or it is queued to be added back. -/
def resyncMember (st : IPSet × IterSet String × IterSet String) (m : String) :
    IPSet × IterSet String × IterSet String :=
  match st with
  | (ipSet, dataplaneMembers, dirty) =>
    if m ∈ dataplaneMembers then (ipSet, dataplaneMembers.discard m, dirty)
    else if m ∈ ipSet.pendingDeletions then
      ({ ipSet with members := ipSet.members.map (IterSet.discard m),
                    pendingDeletions := ipSet.pendingDeletions.discard m }, dataplaneMembers, dirty)
    else
      ({ ipSet with members := ipSet.members.map (IterSet.discard m),
                    pendingAdds := ipSet.pendingAdds.add m }, dataplaneMembers, dirty.add ipSet.setID)

/-- One turn of `tryResync`'s loop over the members only the dataplane has: the member is
recorded as programmed, and its pending addition is taken as done or it is queued for
deletion. -/
def resyncExtraMember (st : IPSet × IterSet String) (m : String) : IPSet × IterSet String :=
  match st with
  | (ipSet, dirty) =>
    let ipSet := { ipSet with members := ipSet.members.map (IterSet.add m) }
    if m ∈ ipSet.pendingAdds then ({ ipSet with pendingAdds := ipSet.pendingAdds.discard m }, dirty)
    else ({ ipSet with pendingDeletions := ipSet.pendingDeletions.add m }, dirty.add ipSet.setID)

/-- `tryResync`'s comparison of a set held in delta mode, believed to hold `members`, with
the members the dataplane lists: the loop over `members`, then the loop over the listed
members left unmatched. -/
def resyncWith (ipSet : IPSet) (members dataplaneMembers dirty : IterSet String) :
    IPSet × IterSet String :=
  let (ipSet, extras, dirty) := members.toList.foldl resyncMember (ipSet, dataplaneMembers, dirty)
  extras.toList.foldl resyncExtraMember (ipSet, dirty)

/-- `GetMembers` for one set: the pending rewrite, or the programmed members with the deltas
applied. -/
def getMembers (ipSet : IPSet) : Except String (IterSet String) :=
  match ipSet.pendingReplace with
  | some r => .ok r
  | none => do
    let realMembers ← deref ipSet.members
    pure (applyDeltas realMembers ipSet.pendingAdds ipSet.pendingDeletions)
attribute [grind] getMembers

/-- `deleteIPSet`'s rebuild of a set that it destroyed while Felix still tracks it: unless a
rewrite is pending already, what was programmed with the pending deltas folded in becomes a
pending rewrite. -/
def rewriteAfterDeletion (ipSet : IPSet) : Except String IPSet :=
  match ipSet.pendingReplace with
  | some _ => .ok ipSet
  | none => do
    let pendingReplace ← withDeltas ipSet.members ipSet.pendingAdds ipSet.pendingDeletions
    pure { ipSet with pendingReplace := pendingReplace, members := none, pendingAdds := ∅,
                      pendingDeletions := ∅ }

/-- `writeDeltas`: the deletions, then the additions, to the main set. -/
def writeDeltas (ipSet : IPSet) : List RestoreLine :=
  ipSet.pendingDeletions.toList.map (.delExist ipSet.mainIPSetName ·) ++
    ipSet.pendingAdds.toList.map (.add ipSet.mainIPSetName ·)

/-- `tryUpdates`' bookkeeping for a set whose update went through: the rewrite becomes what is
programmed, or the deltas are folded into it. -/
def markProgrammed (ipSet : IPSet) : Except String IPSet :=
  match ipSet.pendingReplace with
  | some r => .ok { ipSet with members := some r, pendingReplace := none }
  | none => do
    let members ← withDeltas ipSet.members ipSet.pendingAdds ipSet.pendingDeletions
    pure { ipSet with members := members, pendingAdds := ∅, pendingDeletions := ∅ }

end IPSet

/-- The members of a listed set, each put in canonical form by the IP set's type. -/
def canonicaliseListing (t : IPSetType) (lines : List String) : Except String (IterSet String) :=
  lines.foldlM (fun dataplaneMembers line => do
    let canonMember ← t.canonicaliseMember line
    pure (dataplaneMembers.add canonMember)) ∅

/-- `nextFreeTempIPSetName`'s loop: the first temporary set name from index `idx` on that is
not an existing set's, and the index after it. Distinct indices give distinct names, so the
loop stops within one turn more than there are existing names, which is the fuel it is
given. -/
def nextFreeTempIPSetNameFrom (c : IPVersionConfig) (existing : IterSet String) :
    ℕ → ℕ → String × ℕ
  | 0, idx => (c.nameForTempIPSet idx, idx + 1)
  | fuel + 1, idx =>
    let candidateName := c.nameForTempIPSet idx
    if candidateName ∈ existing then nextFreeTempIPSetNameFrom c existing fuel (idx + 1)
    else (candidateName, idx + 1)

namespace IPSets

variable (s : IPSets)

/-- The IP set whose main set has the given name. -/
def ipSetByMainName (name : String) : Option (String × IPSet) :=
  (s.mainIPSetNameToIPSet.lookup name).bind fun setID =>
    (s.ipSetIDToIPSet.lookup setID).map fun ipSet => (setID, ipSet)

/-- The state with the IP set of the given ID replaced. -/
def setIPSet (setID : String) (ipSet : IPSet) : IPSets :=
  { s with ipSetIDToIPSet := s.ipSetIDToIPSet.insert setID ipSet }
attribute [grind] setIPSet

/-! ## The wanted contents -/

/-- `filterAndCanonicaliseMembers`: the members of this IP version, in canonical form. -/
def filterAndCanonicaliseMembers (ipSetType : IPSetType) (members : List String) :
    Except String (IterSet String) :=
  let wantIPV6 : Bool := s.ipVersionConfig.family == .inet6
  members.foldlM (fun filtered member =>
    if wantIPV6 != ipSetType.isMemberIPV6 member then pure filtered
    else do
      let canonMember ← ipSetType.canonicaliseMember member
      pure (filtered.add canonMember)) ∅

/-- `AddOrReplaceIPSet`. -/
def addOrReplaceIPSet (setMetadata : IPSetMetadata) (members : List String) :
    Except String IPSets := do
  let canonMembers ← s.filterAndCanonicaliseMembers setMetadata.type members
  let setID := setMetadata.setID
  let ipSet : IPSet :=
    { toIPSetMetadata := setMetadata
      mainIPSetName := s.ipVersionConfig.nameForMainIPSet setID
      members := none
      pendingReplace := some canonMembers
      pendingAdds := ∅
      pendingDeletions := ∅ }
  pure { s with
    ipSetIDToIPSet := s.ipSetIDToIPSet.insert setID ipSet
    mainIPSetNameToIPSet := s.mainIPSetNameToIPSet.insert ipSet.mainIPSetName setID
    dirtyIPSetIDs := s.dirtyIPSetIDs.add setID
    pendingIPSetDeletions := s.pendingIPSetDeletions.discard ipSet.mainIPSetName }

/-- `RemoveIPSet`. -/
def removeIPSet (setID : String) : IPSets :=
  let mainIPSetName := s.ipVersionConfig.nameForMainIPSet setID
  { s with
    ipSetIDToIPSet := s.ipSetIDToIPSet.erase setID
    mainIPSetNameToIPSet := s.mainIPSetNameToIPSet.erase mainIPSetName
    dirtyIPSetIDs := s.dirtyIPSetIDs.discard setID
    pendingIPSetDeletions := s.pendingIPSetDeletions.add mainIPSetName }

/-- `AddMembers`. The set must be known: Go reads its type through a nil pointer otherwise. -/
def addMembers (setID : String) (newMembers : List String) : Except String IPSets :=
  match s.ipSetIDToIPSet.lookup setID with
  | none => .error nilDereference
  | some ipSet => do
    let canonMembers ← s.filterAndCanonicaliseMembers ipSet.type newMembers
    if canonMembers.toList = [] then pure s
    else do
      let ipSet ← ipSet.addMembers canonMembers
      pure { s.setIPSet setID ipSet with dirtyIPSetIDs := s.dirtyIPSetIDs.add setID }

/-- `RemoveMembers`. -/
def removeMembers (setID : String) (removedMembers : List String) : Except String IPSets :=
  match s.ipSetIDToIPSet.lookup setID with
  | none => .error nilDereference
  | some ipSet => do
    let canonMembers ← s.filterAndCanonicaliseMembers ipSet.type removedMembers
    if canonMembers.toList = [] then pure s
    else do
      let ipSet ← ipSet.removeMembers canonMembers
      pure { s.setIPSet setID ipSet with dirtyIPSetIDs := s.dirtyIPSetIDs.add setID }

/-- `QueueResync`. -/
def queueResync : IPSets := { s with resyncRequired := true }

/-- `GetMembers`: the members the set is to have. -/
def getMembers (setID : String) : Except String (IterSet String) :=
  match s.ipSetIDToIPSet.lookup setID with
  | none => .error ("ipset " ++ setID ++ " not found")
  | some ipSet => ipSet.getMembers

/-- `SetFilter`'s `markDirty`. -/
def markDirty (dirty : IterSet String) (ipSetName : String) : IterSet String :=
  match s.mainIPSetNameToIPSet.lookup ipSetName with
  | some setID => dirty.add setID
  | none => dirty

/-- `SetFilter`: the sets that stop or start being needed are marked dirty. -/
def setFilter (ipSetNames : Option (IterSet String)) : IPSets :=
  let dirty := match s.neededIPSetNames, ipSetNames with
    | some needed, some names =>
      needed.toList.foldl (fun d item => if item ∉ names then s.markDirty d item else d)
        s.dirtyIPSetIDs
    | _, _ => s.dirtyIPSetIDs
  let dirty := match ipSetNames, s.neededIPSetNames with
    | some names, some needed =>
      names.toList.foldl (fun d item => if item ∉ needed then s.markDirty d item else d) dirty
    | _, _ => dirty
  { s with dirtyIPSetIDs := dirty, neededIPSetNames := ipSetNames }

/-- `ipSetNeeded`. -/
def ipSetNeeded (id : String) : Bool :=
  match s.neededIPSetNames with
  | none => true
  | some needed => s.ipVersionConfig.nameForMainIPSet id ∈ needed

/-! ## Resync -/

/-- `tryResync`'s handling of one set of the listing: its name is recorded as existing, and if
Felix holds it in delta mode, its members are compared with the listing's. -/
def resyncListedSet (listed : String × List String) : Except String IPSets :=
  let s := { s with existingIPSetNames := s.existingIPSetNames.add listed.1 }
  match s.ipSetByMainName listed.1 with
  | some (setID, ipSet) =>
    match ipSet.members with
    | some members => do
      let dataplaneMembers ← canonicaliseListing ipSet.type listed.2
      let (ipSet, dirty) := ipSet.resyncWith members dataplaneMembers s.dirtyIPSetIDs
      pure { s.setIPSet setID ipSet with dirtyIPSetIDs := dirty }
    | none => .ok s
  | none => .ok s
attribute [grind] resyncListedSet

/-- The names `tryResync` expects: the main sets of the needed IP sets, and the sets pending
deletion. -/
def expectedIPSets : List String :=
  (s.ipSetIDToIPSet.entries.filter fun e => s.ipSetNeeded e.2.setID).map (·.2.mainIPSetName) ++
    s.pendingIPSetDeletions.toList

/-- `tryResync`'s last loop, for one existing name: a name of Felix's that is not expected is
queued for deletion, and for early deletion if it names a temporary set. -/
def queueLeftOver (expected : List String) (s : IPSets) (setName : String) : IPSets :=
  if !s.ipVersionConfig.ownsIPSet setName then s
  else if setName ∈ expected then s
  else
    { s with
      pendingTempIPSetDeletions :=
        if s.ipVersionConfig.isTempIPSetName setName then s.pendingTempIPSetDeletions.add setName
        else s.pendingTempIPSetDeletions
      pendingIPSetDeletions := s.pendingIPSetDeletions.add setName }

/-- `tryResync`, over `ipset list`'s listing of the kernel. -/
def tryResync (k : Kernel) : Except String IPSets := do
  let s ← k.list.foldlM resyncListedSet { s with existingIPSetNames := ∅ }
  pure (s.existingIPSetNames.toList.foldl (queueLeftOver s.expectedIPSets) s)

/-! ## Deletions -/

/-- `deleteIPSet`: `ipset destroy`, then the bookkeeping. The flag says whether the destroy
went through. -/
def deleteIPSet (k : Kernel) (setName : String) : Except String (IPSets × Kernel × Bool) :=
  match k.destroy setName with
  | none => .ok (s, k, false)
  | some k' =>
    let s := { s with existingIPSetNames := s.existingIPSetNames.discard setName }
    match s.ipSetByMainName setName with
    | some (setID, ipSet) => do
      let ipSet ← ipSet.rewriteAfterDeletion
      pure (s.setIPSet setID ipSet, k', true)
    | none => .ok (s, k', true)

/-- One turn of `tryTempIPSetDeletions`. -/
def tryTempIPSetDeletion (st : IPSets × Kernel) (setName : String) :
    Except String (IPSets × Kernel) :=
  match st with
  | (s, k) =>
    if setName ∈ s.existingIPSetNames then do
      let (s, k, ok) ← s.deleteIPSet k setName
      pure (if ok then { s with pendingIPSetDeletions := s.pendingIPSetDeletions.discard setName }
        else s, k)
    else .ok (s, k)

/-- `tryTempIPSetDeletions`: every name is taken off the list, whether or not its deletion
went through. -/
def tryTempIPSetDeletions (k : Kernel) : Except String (IPSets × Kernel) := do
  let (s, k) ← s.pendingTempIPSetDeletions.toList.foldlM tryTempIPSetDeletion (s, k)
  pure ({ s with pendingTempIPSetDeletions := ∅ }, k)

/-- One turn of `ApplyDeletions`. -/
def applyDeletion (st : IPSets × Kernel) (setName : String) : Except String (IPSets × Kernel) :=
  match st with
  | (s, k) =>
    if setName ∈ s.existingIPSetNames then do
      let (s, k, _) ← s.deleteIPSet k setName
      pure (s, k)
    else .ok (s, k)

/-- `ApplyDeletions`: a deletion that fails is not retried until the next resync. -/
def applyDeletions (k : Kernel) : Except String (IPSets × Kernel) := do
  let (s, k) ← s.pendingIPSetDeletions.toList.foldlM applyDeletion (s, k)
  pure ({ s with pendingIPSetDeletions := ∅ }, k)

/-! ## Updates -/

/-- `nextFreeTempIPSetName`. -/
def nextFreeTempIPSetName : String × IPSets :=
  let (name, idx) := nextFreeTempIPSetNameFrom s.ipVersionConfig s.existingIPSetNames
    (s.existingIPSetNames.toList.length + 1) s.nextTempIPSetIdx
  (name, { s with nextTempIPSetIdx := idx })

/-- `writeFullRewrite`: the main set is created if it does not exist, the members go into a
fresh temporary set, which is swapped with the main set and then destroyed. -/
def writeFullRewrite (ipSet : IPSet) (pendingReplace : IterSet String) :
    List RestoreLine × IPSets :=
  let mainSetName := ipSet.mainIPSetName
  let family := s.ipVersionConfig.family
  let createMain :=
    if mainSetName ∈ s.existingIPSetNames then []
    else [RestoreLine.create mainSetName ipSet.type family ipSet.maxSize]
  let (tempSetName, s) := s.nextFreeTempIPSetName
  (createMain ++ RestoreLine.create tempSetName ipSet.type family ipSet.maxSize ::
      pendingReplace.toList.map (.add tempSetName ·) ++
      [.swap mainSetName tempSetName, .destroy tempSetName], s)

/-- `writeUpdates`. -/
def writeUpdates (ipSet : IPSet) : List RestoreLine × IPSets :=
  match ipSet.pendingReplace with
  | some r => s.writeFullRewrite ipSet r
  | none =>
    if ipSet.pendingAdds.toList = [] ∧ ipSet.pendingDeletions.toList = [] then ([], s)
    else (ipSet.writeDeltas, s)

/-- One turn of `tryUpdates`' loop that writes the dirty needed sets' updates. -/
def writeDirty (st : List RestoreLine × IPSets) (id : String) :
    Except String (List RestoreLine × IPSets) :=
  match st with
  | (lines, s) =>
    if !s.ipSetNeeded id then .ok (lines, s)
    else
      match s.ipSetIDToIPSet.lookup id with
      | none => .error nilDereference
      | some ipSet =>
        let (written, s) := s.writeUpdates ipSet
        .ok (lines ++ written, s)

/-- One turn of `tryUpdates`' loop after a restore that went through: a needed set's update
is recorded as programmed and the set is no longer dirty. -/
def markProgrammed (s : IPSets) (id : String) : Except String IPSets :=
  if !s.ipSetNeeded id then .ok s
  else
    match s.ipSetIDToIPSet.lookup id with
    | none => .error nilDereference
    | some ipSet => do
      let programmed ← ipSet.markProgrammed
      let existing :=
        if ipSet.pendingReplace.isSome then s.existingIPSetNames.add ipSet.mainIPSetName
        else s.existingIPSetNames
      pure { s.setIPSet id programmed with
        existingIPSetNames := existing
        dirtyIPSetIDs := s.dirtyIPSetIDs.discard id }

/-- `needUpdates`: some dirty set is needed. -/
def needUpdates : Bool :=
  match s.neededIPSetNames with
  | none => s.dirtyIPSetIDs.toList ≠ []
  | some _ => s.dirtyIPSetIDs.toList.any s.ipSetNeeded

/-- `tryUpdates`: one `ipset restore` session with the updates of every dirty needed set. The
flag says whether the session went through; if not, the kernel keeps what the lines before
the failing one did. -/
def tryUpdates (k : Kernel) : Except String (IPSets × Kernel × Bool) :=
  if !s.needUpdates then .ok (s, k, true)
  else do
    let (lines, s) ← s.dirtyIPSetIDs.toList.foldlM writeDirty ([], s)
    let (k, ok) := k.restore (lines ++ [.commit])
    if !ok then pure (s, k, false)
    else do
      let s ← s.dirtyIPSetIDs.toList.foldlM markProgrammed s
      pure (s, k, true)

/-- One attempt of `ApplyUpdates`' loop: a resync if one is required, the early deletion of
left-over temporary sets, and the updates; a failed update requires a resync. -/
def applyUpdatesAttempt (k : Kernel) : Except String (IPSets × Kernel × Bool) := do
  let s ← if s.resyncRequired then (fun s => { s with resyncRequired := false }) <$> s.tryResync k
    else pure s
  let (s, k) ← s.tryTempIPSetDeletions k
  let (s, k, ok) ← s.tryUpdates k
  pure (if ok then s else { s with resyncRequired := true }, k, ok)

/-- `ApplyUpdates`' loop with the given number of attempts left. -/
def applyUpdatesFrom : ℕ → IPSets → Kernel → Except String (IPSets × Kernel)
  | 0, _, _ => .error "Failed to update IP sets after multiple retries."
  | n + 1, s, k => do
    let (s, k, ok) ← s.applyUpdatesAttempt k
    if ok then pure (s, k) else applyUpdatesFrom n s k

/-- `ApplyUpdates`: up to ten attempts. -/
def applyUpdates (k : Kernel) : Except String (IPSets × Kernel) :=
  applyUpdatesFrom 10 s k

end IPSets

/-! ## Runs -/

/-- A call on the IP sets of one IP version, or a change another process makes to the
kernel. -/
inductive Event where
  | addOrReplaceIPSet (setMetadata : IPSetMetadata) (members : List String)
  | addMembers (setID : String) (members : List String)
  | removeMembers (setID : String) (members : List String)
  | removeIPSet (setID : String)
  | setFilter (ipSetNames : Option (IterSet String))
  | queueResync
  | applyUpdates
  | applyDeletions
  /-- Another process changes the kernel's IP sets. -/
  | kernelChanged (f : Kernel → Kernel)

/-- The effect of one event on the manager and the kernel. -/
def Event.apply : IPSets × Kernel → Event → Except String (IPSets × Kernel)
  | (s, k), .addOrReplaceIPSet m ms => (·, k) <$> s.addOrReplaceIPSet m ms
  | (s, k), .addMembers id ms => (·, k) <$> s.addMembers id ms
  | (s, k), .removeMembers id ms => (·, k) <$> s.removeMembers id ms
  | (s, k), .removeIPSet id => .ok (s.removeIPSet id, k)
  | (s, k), .setFilter names => .ok (s.setFilter names, k)
  | (s, k), .queueResync => .ok (s.queueResync, k)
  | (s, k), .applyUpdates => s.applyUpdates k
  | (s, k), .applyDeletions => s.applyDeletions k
  | (s, k), .kernelChanged f => .ok (s, f k)

/-- A run of events from a manager and a kernel. -/
def runFrom (st : IPSets × Kernel) (events : List Event) : Except String (IPSets × Kernel) :=
  events.foldlM Event.apply st

end Felix.Ipsets
