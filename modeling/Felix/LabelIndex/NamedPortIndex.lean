import Felix.LabelIndex.InheritIndex

/-!
# The IP set member index

`SelectorAndNamedPortIndex` computes the members of the IP sets that policy rules name. An
IP set is a selector, possibly with a named port. An endpoint (a workload or host endpoint,
or a network set) whose labels the selector matches contributes its addresses to the set,
each paired with the endpoint's ports of that name when the set is a named-port set. A
member shared by several endpoints is counted in `memberToRefCount`; `OnMemberAdded` and
`OnMemberRemoved` are called when a count leaves or reaches zero. Each endpoint caches the
IDs of the IP sets it contributes to, and when it changes its old contribution is computed
again from that cache.

This module is the model of `named_port_index.go`, in the shape of the model of the
inheritance index: each function under its own name, from the index to the index and the
callbacks made, in `Except String` where the source can panic. An endpoint's labels are
looked up as `InheritIndex.get` looks up an item's, and a profile's record `npParentData`
has the fields of the inheritance index's `parentData`, so it is a `ParentData`. Endpoints
refer to their parents by ID, as there.

## Main definitions

* `matchesModelProtocol`, `lookupNamedPorts`, `EndpointData.equals`, `EndpointData.get`
* `SelectorAndNamedPortIndex`, `calculateEndpointContribution`, `recalcCachedContributions`,
  `scanEndpointAgainstAllIPSets`
* the operations `updateIPSet` to `deleteParentTags`, `Op`, `apply`, `runFrom`
-/

namespace Felix.LabelIndex

open Replication

/-- `numorstring.Protocol`: a protocol given by number or by name. -/
inductive Protocol where
  | num (numVal : UInt8)
  | str (strVal : String)
  deriving DecidableEq

/-- `model.EndpointPort`: a named port of an endpoint. -/
structure EndpointPort where
  name : String
  protocol : Protocol
  port : UInt16
  deriving DecidableEq

/-- `IPSetPortProtocol`: the protocol of a named-port IP set, by its number. -/
abbrev IPSetPortProtocol := UInt8

def protocolNone : IPSetPortProtocol := 0
def protocolTCP : IPSetPortProtocol := 6
def protocolUDP : IPSetPortProtocol := 17
def protocolSCTP : IPSetPortProtocol := 132

/-- `IPSetPortProtocol.MatchesModelProtocol`. A port's protocol given by number matches by
number, `0` standing for TCP; one given by name matches by its lower-cased name, and then any
`p` but TCP, UDP and SCTP panics. -/
def matchesModelProtocol (p : IPSetPortProtocol) : Protocol → Except String Bool
  | .num numVal => .ok (if numVal = 0 then p == protocolTCP else numVal == p)
  | .str strVal =>
    if p = protocolTCP then .ok (strVal.toLower == "tcp")
    else if p = protocolUDP then .ok (strVal.toLower == "udp")
    else if p = protocolSCTP then .ok (strVal.toLower == "sctp")
    else .error "Unknown protocol"

/-- `endpointData.LookupNamedPorts` over the endpoint's ports: the numbers of the ports called
`name` whose protocol matches `proto`, in order. -/
def lookupNamedPorts (name : String) (proto : IPSetPortProtocol) :
    List EndpointPort → Except String (List UInt16)
  | [] => .ok []
  | p :: ps => do
    -- `p.Name == name && ...`: only a port of that name has its protocol looked at
    let found ← if p.name = name then matchesModelProtocol proto p.protocol else pure false
    let matchingPorts ← lookupNamedPorts name proto ps
    pure (if found then p.port :: matchingPorts else matchingPorts)

/-- `IPSetMember`: an address, with a protocol and port for a named-port set. -/
structure IPSetMember (CIDR : Type) where
  cidr : CIDR
  protocol : IPSetPortProtocol
  portNumber : UInt16
  deriving DecidableEq

/-- `endpointData`. A `nil` map, slice or set of the source is an empty one here: no path of
the source tells them apart. -/
structure EndpointData (CIDR SetID : Type) where
  labels : Labels
  nets : List CIDR
  ports : List EndpointPort
  parents : List String
  cachedMatchingIPSetIDs : IterSet SetID

namespace EndpointData

variable {CIDR SetID : Type}

/-- `AddMatchingIPSetID`. -/
def addMatchingIPSetID [DecidableEq SetID] (id : SetID) (d : EndpointData CIDR SetID) :
    EndpointData CIDR SetID :=
  { d with cachedMatchingIPSetIDs := d.cachedMatchingIPSetIDs.add id }

/-- `RemoveMatchingIPSetID`. -/
def removeMatchingIPSetID [DecidableEq SetID] (id : SetID) (d : EndpointData CIDR SetID) :
    EndpointData CIDR SetID :=
  { d with cachedMatchingIPSetIDs := d.cachedMatchingIPSetIDs.discard id }

/-- `Get`: the endpoint's own label, else the first of its parents that has the label or a
tag of that name. -/
def get {EpID : Type} (parentDataByParentID : AList (fun _ : String => ParentData EpID))
    (d : EndpointData CIDR SetID) (labelName : String) : Option String :=
  match d.labels.lookup labelName with
  | some value => some value
  | none => d.parents.findSome? fun p =>
      (parentDataByParentID.lookup p).bind fun parent => parent.get labelName

/-- `Equals`, as written: the labels, ports, nets and parents have the same lengths, every
label of `d` has its value in `other`, and the ports, nets and parents agree position by
position. The source reads the label as `other.labels[k]`, which is `""` for a missing key. -/
def equals [DecidableEq CIDR] (d other : EndpointData CIDR SetID) : Bool :=
  d.labels.entries.length == other.labels.entries.length &&
    d.ports.length == other.ports.length && d.nets.length == other.nets.length &&
    d.parents.length == other.parents.length &&
    d.labels.entries.all (fun e => (other.labels.lookup e.1).getD "" == e.2) &&
    (d.ports.zip other.ports).all (fun q => q.2 == q.1) &&
    (d.nets.zip other.nets).all (fun q => q.2 == q.1) &&
    (d.parents.zip other.parents).all (fun q => q.2 == q.1)

end EndpointData

/-- `ipSetData`: the selector and named port of an IP set, and its members' counts. -/
structure IPSetData (Sel CIDR : Type) where
  selector : Sel
  namedPortProtocol : IPSetPortProtocol
  namedPort : String
  memberToRefCount : AList (fun _ : IPSetMember CIDR => UInt64)

/-- `reflect.DeepEqual` on two `map[string]string`: both `nil`, or neither, with the same
length and the same value for every key of the first. -/
def deepEqualLabels : Option Labels → Option Labels → Bool
  | none, none => true
  | some a, some b =>
    a.entries.length == b.entries.length && a.entries.all fun e => b.lookup e.1 == some e.2
  | _, _ => false

structure SelectorAndNamedPortIndex (EpID SetID Sel CIDR : Type) where
  endpointDataByID : AList (fun _ : EpID => EndpointData CIDR SetID)
  parentDataByParentID : AList (fun _ : String => ParentData EpID)
  ipSetDataByID : AList (fun _ : SetID => IPSetData Sel CIDR)

/-- A call of `OnMemberAdded` or `OnMemberRemoved`, with the IP set and the member. -/
abbrev MemberCallback (SetID CIDR : Type) := Change (SetID × IPSetMember CIDR)

/-- The contributions of one endpoint, by IP set. -/
abbrev Contributions (SetID CIDR : Type) := AList (fun _ : SetID => List (IPSetMember CIDR))

/-- `CalculateEndpointContribution`: for a named-port set, every address with every matching
port; otherwise every address. -/
def calculateEndpointContribution {CIDR SetID Sel : Type} (d : EndpointData CIDR SetID)
    (ipSetData : IPSetData Sel CIDR) : Except String (List (IPSetMember CIDR)) :=
  if ipSetData.namedPortProtocol ≠ protocolNone then do
    let portNumbers ← lookupNamedPorts ipSetData.namedPort ipSetData.namedPortProtocol d.ports
    pure (portNumbers.flatMap fun namedPort =>
      d.nets.map fun addr => ⟨addr, ipSetData.namedPortProtocol, namedPort⟩)
  else pure (d.nets.map fun addr => ⟨addr, protocolNone, 0⟩)

namespace IPSetData

variable {SetID Sel CIDR : Type} [DecidableEq CIDR]

/-- The member's count, `0` when it has none. -/
def refCount (ipSetData : IPSetData Sel CIDR) (member : IPSetMember CIDR) : UInt64 :=
  (ipSetData.memberToRefCount.lookup member).getD 0

/-- The incref of a new member, reported when its count becomes one. -/
def incref (ipSetID : SetID) (newMember : IPSetMember CIDR) (ipSetData : IPSetData Sel CIDR) :
    IPSetData Sel CIDR × List (MemberCallback SetID CIDR) :=
  let newRefCount := ipSetData.refCount newMember + 1
  ({ ipSetData with memberToRefCount := ipSetData.memberToRefCount.insert newMember newRefCount },
    if newRefCount = 1 then [.started (ipSetID, newMember)] else [])

/-- The decref of an old member: at zero it is reported and its count deleted. -/
def decref (ipSetID : SetID) (oldMember : IPSetMember CIDR) (ipSetData : IPSetData Sel CIDR) :
    IPSetData Sel CIDR × List (MemberCallback SetID CIDR) :=
  let newRefCount := ipSetData.refCount oldMember - 1
  if newRefCount = 0 then
    ({ ipSetData with memberToRefCount := ipSetData.memberToRefCount.erase oldMember },
      [.stopped (ipSetID, oldMember)])
  else
    ({ ipSetData with memberToRefCount := ipSetData.memberToRefCount.insert oldMember newRefCount },
      [])

/-- The incref of every member of a contribution. -/
def increfAll (ipSetID : SetID) (members : List (IPSetMember CIDR)) (ipSetData : IPSetData Sel CIDR) :
    Except String (IPSetData Sel CIDR × List (MemberCallback SetID CIDR)) :=
  forEach (fun m d => pure (d.incref ipSetID m)) members ipSetData

/-- The decref of every member of a contribution. -/
def decrefAll (ipSetID : SetID) (members : List (IPSetMember CIDR)) (ipSetData : IPSetData Sel CIDR) :
    Except String (IPSetData Sel CIDR × List (MemberCallback SetID CIDR)) :=
  forEach (fun m d => pure (d.decref ipSetID m)) members ipSetData

end IPSetData

namespace SelectorAndNamedPortIndex

variable {EpID SetID Sel CIDR : Type} [DecidableEq EpID] [DecidableEq SetID] [DecidableEq CIDR]

/-- `NewSelectorAndNamedPortIndex`. -/
def new : SelectorAndNamedPortIndex EpID SetID Sel CIDR := ⟨∅, ∅, ∅⟩

/-- `RecalcCachedContributions`: the endpoint's contribution to each IP set of its cache. A
cached ID with no IP set dereferences `nil`. -/
def recalcCachedContributions (epData : EndpointData CIDR SetID)
    (idx : SelectorAndNamedPortIndex EpID SetID Sel CIDR) : Except String (Contributions SetID CIDR) :=
  epData.cachedMatchingIPSetIDs.toList.foldlM (fun contrib ipSetID =>
    match idx.ipSetDataByID.lookup ipSetID with
    | none => .error nilDereference
    | some ipSetData => do
      let c ← calculateEndpointContribution epData ipSetData
      pure (contrib.insert ipSetID c)) ∅

variable (evaluateLabels : Sel → (String → Option String) → Bool)

/-- A turn of `scanEndpointAgainstAllIPSets`: the endpoint's match with one IP set is
recomputed, its new members increfed, then its old members decrefed. -/
def scanEndpointAgainstIPSet (oldIPSetContributions : Contributions SetID CIDR) (ipSetID : SetID)
    (ipSetData : IPSetData Sel CIDR) (epData : EndpointData CIDR SetID)
    (idx : SelectorAndNamedPortIndex EpID SetID Sel CIDR) :
    Except String ((IPSetData Sel CIDR × EndpointData CIDR SetID) × List (MemberCallback SetID CIDR)) := do
  let epData := epData.removeMatchingIPSetID ipSetID
  let ((ipSetData, epData), added) ←
    if evaluateLabels ipSetData.selector (epData.get idx.parentDataByParentID) then do
      let newIPSetContribution ← calculateEndpointContribution epData ipSetData
      if newIPSetContribution = [] then pure ((ipSetData, epData), [])
      else do
        let (ipSetData, added) ← ipSetData.increfAll ipSetID newIPSetContribution
        pure ((ipSetData, epData.addMatchingIPSetID ipSetID), added)
    else pure ((ipSetData, epData), [])
  let (ipSetData, removed) ←
    ipSetData.decrefAll ipSetID ((oldIPSetContributions.lookup ipSetID).getD [])
  pure ((ipSetData, epData), added ++ removed)

/-- `scanEndpointAgainstAllIPSets`: every IP set in turn. The endpoint and the IP sets'
records are written through pointers in the source, and returned here. -/
def scanEndpointAgainstAllIPSets (epData : EndpointData CIDR SetID)
    (oldIPSetContributions : Contributions SetID CIDR)
    (idx : SelectorAndNamedPortIndex EpID SetID Sel CIDR) :
    Except String ((SelectorAndNamedPortIndex EpID SetID Sel CIDR × EndpointData CIDR SetID) ×
      List (MemberCallback SetID CIDR)) := do
  let ((ipSetDataByID, epData), callbacks) ← forEach (fun e acc => do
      let ((ipSetData, epData), callbacks) ←
        scanEndpointAgainstIPSet evaluateLabels oldIPSetContributions e.1 e.2 acc.2 idx
      pure ((acc.1.insert e.1 ipSetData, epData), callbacks))
    idx.ipSetDataByID.entries (idx.ipSetDataByID, epData)
  pure (({ idx with ipSetDataByID }, epData), callbacks)

/-- A turn of the scan of `UpdateIPSet`: an endpoint that matches the new selector and
contributes to the set caches its ID and increfs its members. -/
def scanEndpoint (ipSetID : SetID) (sel : Sel) (idx : SelectorAndNamedPortIndex EpID SetID Sel CIDR)
    (e : Σ _ : EpID, EndpointData CIDR SetID)
    (acc : AList (fun _ : EpID => EndpointData CIDR SetID) × IPSetData Sel CIDR) :
    Except String ((AList (fun _ : EpID => EndpointData CIDR SetID) × IPSetData Sel CIDR) ×
      List (MemberCallback SetID CIDR)) :=
  if evaluateLabels sel (e.2.get idx.parentDataByParentID) then do
    let contrib ← calculateEndpointContribution e.2 acc.2
    if contrib = [] then pure (acc, [])
    else do
      -- the source tests `refCount == 0` before the increment; in `uint64` that is the
      -- test of `incref` that the incremented count is `1`
      let (ipSetData, added) ← acc.2.increfAll ipSetID contrib
      pure ((acc.1.insert e.1 (e.2.addMatchingIPSetID ipSetID), ipSetData), added)
  else pure (acc, [])

/-! ## The operations -/

/-- `DeleteIPSet`: every member is reported removed, and the set leaves every endpoint's
cache. -/
def deleteIPSet (id : SetID) (idx : SelectorAndNamedPortIndex EpID SetID Sel CIDR) :
    SelectorAndNamedPortIndex EpID SetID Sel CIDR × List (MemberCallback SetID CIDR) :=
  match idx.ipSetDataByID.lookup id with
  | none => (idx, [])
  | some ipSetData =>
    ({ idx with
        endpointDataByID := idx.endpointDataByID.entries.foldl
          (fun m e => m.insert e.1 (e.2.removeMatchingIPSetID id)) idx.endpointDataByID
        ipSetDataByID := idx.ipSetDataByID.erase id },
      ipSetData.memberToRefCount.keys.map fun member => .stopped (id, member))

/-- The rest of `UpdateIPSet` once a spurious refresh is ruled out: the new IP set is stored
and every endpoint scanned against it. -/
def addIPSet (ipSetID : SetID) (sel : Sel) (namedPortProtocol : IPSetPortProtocol)
    (namedPort : String) (idx : SelectorAndNamedPortIndex EpID SetID Sel CIDR) :
    Except String (SelectorAndNamedPortIndex EpID SetID Sel CIDR × List (MemberCallback SetID CIDR)) := do
  let newIPSetData : IPSetData Sel CIDR := ⟨sel, namedPortProtocol, namedPort, ∅⟩
  let ((endpointDataByID, newIPSetData), added) ←
    forEach (scanEndpoint evaluateLabels ipSetID sel idx) idx.endpointDataByID.entries
      (idx.endpointDataByID, newIPSetData)
  pure ({ idx with endpointDataByID, ipSetDataByID := idx.ipSetDataByID.insert ipSetID newIPSetData },
    added)

section Operations

variable {UID : Type} [DecidableEq UID] (uniqueID : Sel → UID)

/-- `UpdateIPSet`: nothing changes for an IP set held with the same selector and named port.
Otherwise a held set is deleted first. -/
def updateIPSet (ipSetID : SetID) (sel : Sel) (namedPortProtocol : IPSetPortProtocol)
    (namedPort : String) (idx : SelectorAndNamedPortIndex EpID SetID Sel CIDR) :
    Except String (SelectorAndNamedPortIndex EpID SetID Sel CIDR × List (MemberCallback SetID CIDR)) :=
  match idx.ipSetDataByID.lookup ipSetID with
  | some oldIPSetData =>
    if uniqueID oldIPSetData.selector = uniqueID sel ∧
        oldIPSetData.namedPortProtocol = namedPortProtocol ∧ oldIPSetData.namedPort = namedPort then
      .ok (idx, [])
    else do
      let (idx, removed) := idx.deleteIPSet ipSetID
      let (idx, added) ← idx.addIPSet evaluateLabels ipSetID sel namedPortProtocol namedPort
      pure (idx, removed ++ added)
  | none => idx.addIPSet evaluateLabels ipSetID sel namedPortProtocol namedPort

end Operations

/-! ## Parents -/

/-- `getOrCreateParent`: the parent's record, created empty if there is none. -/
def getOrCreateParent (id : String) (idx : SelectorAndNamedPortIndex EpID SetID Sel CIDR) :
    ParentData EpID × SelectorAndNamedPortIndex EpID SetID Sel CIDR :=
  match idx.parentDataByParentID.lookup id with
  | some parent => (parent, idx)
  | none => (.empty, { idx with parentDataByParentID := idx.parentDataByParentID.insert id .empty })

/-- A write through the pointer to the parent's record. -/
def modifyParent (id : String) (f : ParentData EpID → ParentData EpID)
    (idx : SelectorAndNamedPortIndex EpID SetID Sel CIDR) : SelectorAndNamedPortIndex EpID SetID Sel CIDR :=
  match idx.parentDataByParentID.lookup id with
  | some parent => { idx with parentDataByParentID := idx.parentDataByParentID.insert id (f parent) }
  | none => idx

/-- `discardParentIfEmpty`: drop a record with no endpoints, labels or tags. -/
def discardParentIfEmpty (id : String) (idx : SelectorAndNamedPortIndex EpID SetID Sel CIDR) :
    SelectorAndNamedPortIndex EpID SetID Sel CIDR :=
  match idx.parentDataByParentID.lookup id with
  | some ⟨none, none, none⟩ => { idx with parentDataByParentID := idx.parentDataByParentID.erase id }
  | _ => idx

/-- `AddEndpointID` on the parent's record. -/
def addEndpointID (id : EpID) (parentID : String) (idx : SelectorAndNamedPortIndex EpID SetID Sel CIDR) :
    SelectorAndNamedPortIndex EpID SetID Sel CIDR :=
  idx.modifyParent parentID fun parent =>
    { parent with itemIDs := some ((parent.itemIDs.getD ∅).add id) }

/-- `DiscardEndpointID` on the parent's record, then `discardParentIfEmpty`. A record without
a set panics, and so does one no longer held: the source drops a record only once its set is
`nil`, and still holds a pointer to it. -/
def discardEndpointID (id : EpID) (parentID : String)
    (idx : SelectorAndNamedPortIndex EpID SetID Sel CIDR) :
    Except String (SelectorAndNamedPortIndex EpID SetID Sel CIDR) :=
  match idx.parentDataByParentID.lookup parentID with
  | some ⟨labels, tags, some endpointIDs⟩ =>
    let endpointIDs := endpointIDs.discard id
    let idx := { idx with
      parentDataByParentID := idx.parentDataByParentID.insert parentID
        ⟨labels, tags, if endpointIDs.toList = [] then none else some endpointIDs⟩ }
    .ok (idx.discardParentIfEmpty parentID)
  | _ => .error "discard of unknown ID"

/-! ## Endpoints -/

/-- The part of `UpdateEndpointOrSet` past the `Equals` check: the endpoint's new
contribution replaces its old one, computed from its cache; it is stored, joins its parents
and leaves the old parents it no longer has. -/
def replaceEndpoint (id : EpID) (newEndpointData : EndpointData CIDR SetID)
    (oldEndpointData : Option (EndpointData CIDR SetID))
    (idx : SelectorAndNamedPortIndex EpID SetID Sel CIDR) :
    Except String (SelectorAndNamedPortIndex EpID SetID Sel CIDR × List (MemberCallback SetID CIDR)) := do
  let oldIPSetContributions ← match oldEndpointData with
    | some old => idx.recalcCachedContributions old
    | none => pure ∅
  let ((idx, newEndpointData), callbacks) ←
    idx.scanEndpointAgainstAllIPSets evaluateLabels newEndpointData oldIPSetContributions
  let idx := { idx with endpointDataByID := idx.endpointDataByID.insert id newEndpointData }
  let idx := newEndpointData.parents.foldl (fun idx parentID => idx.addEndpointID id parentID) idx
  let idx ← ((oldEndpointData.map EndpointData.parents).getD []).foldlM (fun idx parentID =>
    if parentID ∈ newEndpointData.parents then pure idx else idx.discardEndpointID id parentID) idx
  pure (idx, callbacks)

/-- `UpdateEndpointOrSet`: the parents' records are created first, and an update that
`Equals` judges to change nothing is then skipped. -/
def updateEndpointOrSet (id : EpID) (labels : Labels) (nets : List CIDR) (ports : List EndpointPort)
    (parentIDs : List String) (idx : SelectorAndNamedPortIndex EpID SetID Sel CIDR) :
    Except String (SelectorAndNamedPortIndex EpID SetID Sel CIDR × List (MemberCallback SetID CIDR)) :=
  let idx := parentIDs.foldl (fun idx parentID => (idx.getOrCreateParent parentID).2) idx
  let newEndpointData : EndpointData CIDR SetID := ⟨labels, nets, ports, parentIDs, ∅⟩
  match idx.endpointDataByID.lookup id with
  | some oldEndpointData =>
    if oldEndpointData.equals newEndpointData then .ok (idx, [])
    else idx.replaceEndpoint evaluateLabels id newEndpointData (some oldEndpointData)
  | none => idx.replaceEndpoint evaluateLabels id newEndpointData none

/-- A turn of `DeleteEndpoint`: the decref of the endpoint's old contribution to one IP set.
The set is looked up again; a missing one dereferences `nil` at its first member. -/
def removeContribution (e : Σ _ : SetID, List (IPSetMember CIDR))
    (idx : SelectorAndNamedPortIndex EpID SetID Sel CIDR) :
    Except String (SelectorAndNamedPortIndex EpID SetID Sel CIDR × List (MemberCallback SetID CIDR)) :=
  match idx.ipSetDataByID.lookup e.1 with
  | some ipSetData => do
    let (ipSetData, removed) ← ipSetData.decrefAll e.1 e.2
    pure ({ idx with ipSetDataByID := idx.ipSetDataByID.insert e.1 ipSetData }, removed)
  | none => if e.2 = [] then .ok (idx, []) else .error nilDereference

/-- `DeleteEndpoint`: the endpoint's old contribution is decrefed, and it leaves its parents. -/
def deleteEndpoint (id : EpID) (idx : SelectorAndNamedPortIndex EpID SetID Sel CIDR) :
    Except String (SelectorAndNamedPortIndex EpID SetID Sel CIDR × List (MemberCallback SetID CIDR)) :=
  match idx.endpointDataByID.lookup id with
  | none => .ok (idx, [])
  | some oldEndpointData => do
    let oldIPSetContributions ← idx.recalcCachedContributions oldEndpointData
    let (idx, callbacks) ← forEach removeContribution oldIPSetContributions.entries idx
    let idx := { idx with endpointDataByID := idx.endpointDataByID.erase id }
    let idx ← oldEndpointData.parents.foldlM (fun idx parentID => idx.discardEndpointID id parentID) idx
    pure (idx, callbacks)

/-! ## Parents' labels and tags -/

/-- `updateParent`: each of the parent's endpoints has its old contribution computed with the
update backed out, and is scanned again with it applied; the update is left applied. -/
def updateParent (parentID : String) (applyUpdate revertUpdate : ParentData EpID → ParentData EpID)
    (idx : SelectorAndNamedPortIndex EpID SetID Sel CIDR) :
    Except String (SelectorAndNamedPortIndex EpID SetID Sel CIDR × List (MemberCallback SetID CIDR)) := do
  let endpointIDs := ((idx.parentDataByParentID.lookup parentID).bind ParentData.itemIDs).getD ∅
  let (idx, callbacks) ← forEach (fun id idx =>
      match idx.endpointDataByID.lookup id with
      | none => .error nilDereference
      | some epData => do
        let idx := idx.modifyParent parentID revertUpdate
        let oldIPSetContributions ← idx.recalcCachedContributions epData
        let idx := idx.modifyParent parentID applyUpdate
        let ((idx, epData), callbacks) ←
          idx.scanEndpointAgainstAllIPSets evaluateLabels epData oldIPSetContributions
        pure ({ idx with endpointDataByID := idx.endpointDataByID.insert id epData }, callbacks))
    endpointIDs.toList idx
  pure (idx.modifyParent parentID applyUpdate, callbacks)

/-- `UpdateParentLabels` and `UpdateParentTags`: the parent's record is created if there is
none; an update that leaves the field deeply equal is skipped, and any other is applied by
`updateParent`, which backs it out to the field's old value. -/
def updateParentField {α : Type} (deepEqual : α → α → Bool) (field : ParentData EpID → α)
    (setField : α → ParentData EpID → ParentData EpID) (parentID : String) (value : α)
    (idx : SelectorAndNamedPortIndex EpID SetID Sel CIDR) :
    Except String (SelectorAndNamedPortIndex EpID SetID Sel CIDR × List (MemberCallback SetID CIDR)) :=
  let (parentData, idx) := idx.getOrCreateParent parentID
  if deepEqual (field parentData) value then .ok (idx, [])
  else idx.updateParent evaluateLabels parentID (setField value) (setField (field parentData))

/-- `UpdateParentLabels`. -/
def updateParentLabels (parentID : String) (labels : Option Labels) :
    SelectorAndNamedPortIndex EpID SetID Sel CIDR →
      Except String (SelectorAndNamedPortIndex EpID SetID Sel CIDR × List (MemberCallback SetID CIDR)) :=
  updateParentField evaluateLabels deepEqualLabels ParentData.labels
    (fun labels parent => { parent with labels }) parentID labels

/-- `UpdateParentTags`. `reflect.DeepEqual` on two `[]string` is the equality of the two
optional lists. -/
def updateParentTags (parentID : String) (tags : Option (List String)) :
    SelectorAndNamedPortIndex EpID SetID Sel CIDR →
      Except String (SelectorAndNamedPortIndex EpID SetID Sel CIDR × List (MemberCallback SetID CIDR)) :=
  updateParentField evaluateLabels (fun a b => decide (a = b)) ParentData.tags
    (fun tags parent => { parent with tags }) parentID tags

/-- `DeleteParentLabels` and `DeleteParentTags`: the update of the field to `nil`, then
`discardParentIfEmpty`. -/
def deleteParentField
    (update : SelectorAndNamedPortIndex EpID SetID Sel CIDR →
      Except String (SelectorAndNamedPortIndex EpID SetID Sel CIDR × List (MemberCallback SetID CIDR)))
    (parentID : String) (idx : SelectorAndNamedPortIndex EpID SetID Sel CIDR) :
    Except String (SelectorAndNamedPortIndex EpID SetID Sel CIDR × List (MemberCallback SetID CIDR)) := do
  let (idx, callbacks) ← update idx
  pure (idx.discardParentIfEmpty parentID, callbacks)

/-- `DeleteParentLabels`. -/
def deleteParentLabels (parentID : String) :
    SelectorAndNamedPortIndex EpID SetID Sel CIDR →
      Except String (SelectorAndNamedPortIndex EpID SetID Sel CIDR × List (MemberCallback SetID CIDR)) :=
  deleteParentField (updateParentLabels evaluateLabels parentID none) parentID

/-- `DeleteParentTags`. -/
def deleteParentTags (parentID : String) :
    SelectorAndNamedPortIndex EpID SetID Sel CIDR →
      Except String (SelectorAndNamedPortIndex EpID SetID Sel CIDR × List (MemberCallback SetID CIDR)) :=
  deleteParentField (updateParentTags evaluateLabels parentID none) parentID

/-- The operations of the index, as `OnUpdate` and the rule scanner call them. -/
inductive Op (EpID SetID Sel CIDR : Type) where
  | updateIPSet (ipSetID : SetID) (sel : Sel) (namedPortProtocol : IPSetPortProtocol)
      (namedPort : String)
  | deleteIPSet (id : SetID)
  | updateEndpointOrSet (id : EpID) (labels : Labels) (nets : List CIDR)
      (ports : List EndpointPort) (parentIDs : List String)
  | deleteEndpoint (id : EpID)
  | updateParentLabels (parentID : String) (labels : Option Labels)
  | deleteParentLabels (parentID : String)
  | updateParentTags (parentID : String) (tags : Option (List String))
  | deleteParentTags (parentID : String)

section Run

variable {UID : Type} [DecidableEq UID] (uniqueID : Sel → UID)

/-- One operation, and the callbacks it makes. -/
def apply (idx : SelectorAndNamedPortIndex EpID SetID Sel CIDR) :
    Op EpID SetID Sel CIDR →
      Except String (SelectorAndNamedPortIndex EpID SetID Sel CIDR × List (MemberCallback SetID CIDR))
  | .updateIPSet ipSetID sel proto namedPort =>
    idx.updateIPSet evaluateLabels uniqueID ipSetID sel proto namedPort
  | .deleteIPSet id => .ok (idx.deleteIPSet id)
  | .updateEndpointOrSet id labels nets ports parentIDs =>
    idx.updateEndpointOrSet evaluateLabels id labels nets ports parentIDs
  | .deleteEndpoint id => idx.deleteEndpoint id
  | .updateParentLabels parentID labels => updateParentLabels evaluateLabels parentID labels idx
  | .deleteParentLabels parentID => deleteParentLabels evaluateLabels parentID idx
  | .updateParentTags parentID tags => updateParentTags evaluateLabels parentID tags idx
  | .deleteParentTags parentID => deleteParentTags evaluateLabels parentID idx

/-- A run of operations, with all the callbacks made in order. -/
def runFrom (ops : List (Op EpID SetID Sel CIDR)) (idx : SelectorAndNamedPortIndex EpID SetID Sel CIDR) :
    Except String (SelectorAndNamedPortIndex EpID SetID Sel CIDR × List (MemberCallback SetID CIDR)) :=
  forEach (fun op idx => idx.apply evaluateLabels uniqueID op) ops idx

end Run

end SelectorAndNamedPortIndex

end Felix.LabelIndex
