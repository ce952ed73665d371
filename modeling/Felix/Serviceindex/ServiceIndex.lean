import Felix.LabelIndex.NamedPortIndex

/-!
# The service index

`ServiceIndex` (`serviceindex/serviceindex.go`) computes the members of the IP sets that name a
Kubernetes service: every address of every endpoint of the service's endpoint slices, with every
numbered port of the slice. It caches every slice by namespace and name, and by service; an IP
set is active once `UpdateIPSet` names it, and from then on it counts each member's occurrences in
`memberToRefCount` and calls `OnMemberAdded` and `OnMemberRemoved` when a count leaves or reaches
zero.

An active IP set's record is shared by `activeIPSetsByID` and `activeIPSetsByService`, and the
source writes its counts through either pointer. Here the record is held once, in
`activeIPSetsByID`, and `activeIPSetsByService` holds its ID: every pointer the second map holds
is to a record the first holds under that ID, since both entries are made together and
`DeleteIPSet` deletes both. Go's maps are `AList`s, and a `range` over one visits its entries
in their order. `ip.ParseCIDROrIP` is the parameter `parseCIDROrIP`. The counts are `uint64`.

## Main definitions

* `EndpointSlice`, `serviceName`, `membersFromEndpointSlice`
* `ServiceIndex`, `IPSetData.incref`, `IPSetData.decref`
* `updateEndpointSlice`, `deleteEndpointSlice`, `updateIPSet`, `deleteIPSet`, `Op`, `runFrom`
-/

namespace Felix.Serviceindex

open Replication
open Felix.LabelIndex (IPSetMember IPSetPortProtocol protocolTCP protocolUDP protocolSCTP
  MemberCallback Labels)

/-- `discovery.EndpointPort`: the port number and protocol, both optional. -/
structure EndpointPort where
  port : Option Int32
  protocol : Option String

/-- `discovery.Endpoint`: its addresses. -/
structure Endpoint where
  addresses : List String

/-- `discovery.EndpointSlice`, as the index reads it. -/
structure EndpointSlice where
  «namespace» : String
  name : String
  labels : Labels
  endpoints : List Endpoint
  ports : List EndpointPort

/-- The key `<namespace>/<name>` the index files a slice under. -/
def sliceKey («namespace» name : String) : String := «namespace» ++ "/" ++ name

/-- `serviceName`: `<namespace>/<service name label>`, the label read as `""` when missing. -/
def serviceName (es : EndpointSlice) : String :=
  es.«namespace» ++ "/" ++ (es.labels.lookup "kubernetes.io/service-name").getD ""

/-- The protocol of a member: TCP unless the port says UDP or SCTP. -/
def memberProtocol (port : EndpointPort) : IPSetPortProtocol :=
  match port.protocol with
  | some "UDP" => protocolUDP
  | some "SCTP" => protocolSCTP
  | _ => protocolTCP

section Members

variable {CIDR : Type} (parseCIDROrIP : String → Option CIDR)

/-- `membersFromEndpointSlice`: for each endpoint and each port with a number, every address that
parses, with the port's protocol and its number as `uint16`. A `nil` slice has none. -/
def membersFromEndpointSlice : Option EndpointSlice → List (IPSetMember CIDR)
  | none => []
  | some es => es.endpoints.flatMap fun ep => es.ports.flatMap fun port =>
    match port.port with
    | some p => ep.addresses.filterMap fun addr =>
      (parseCIDROrIP addr).map fun cidr => ⟨cidr, memberProtocol port, p.toUInt32.toUInt16⟩
    | none => []

end Members

/-- `ipSetData`: an active IP set, its service, and its members' counts. -/
structure IPSetData (CIDR : Type) where
  serviceName : String
  id : String
  memberToRefCount : AList (fun _ : IPSetMember CIDR => UInt64)

/-- The index's caches. -/
structure ServiceIndex (CIDR : Type) where
  endpointSlices : AList (fun _ : String => EndpointSlice)
  endpointSlicesByService : AList (fun _ : String => AList (fun _ : String => EndpointSlice))
  activeIPSetsByID : AList (fun _ : String => IPSetData CIDR)
  /-- the ID of the record `activeIPSetsByID` holds -/
  activeIPSetsByService : AList (fun _ : String => String)

namespace IPSetData

variable {CIDR : Type} [DecidableEq CIDR]

/-- A member's count, `0` when it has none. -/
def refCount (ipSet : IPSetData CIDR) (member : IPSetMember CIDR) : UInt64 :=
  (ipSet.memberToRefCount.lookup member).getD 0

/-- The incref of `UpdateEndpointSlice`: a member whose count becomes one is reported added. -/
def incref (member : IPSetMember CIDR) (ipSet : IPSetData CIDR) :
    IPSetData CIDR × List (MemberCallback String CIDR) :=
  let refCount := ipSet.refCount member + 1
  ({ ipSet with memberToRefCount := ipSet.memberToRefCount.insert member refCount },
    if refCount = 1 then [.started (ipSet.id, member)] else [])

/-- The decref of an old member: at zero it is reported removed and its count deleted. -/
def decref (oldMember : IPSetMember CIDR) (ipSet : IPSetData CIDR) :
    IPSetData CIDR × List (MemberCallback String CIDR) :=
  let newRefCount := ipSet.refCount oldMember - 1
  if newRefCount = 0 then
    ({ ipSet with memberToRefCount := ipSet.memberToRefCount.erase oldMember },
      [.stopped (ipSet.id, oldMember)])
  else
    ({ ipSet with memberToRefCount := ipSet.memberToRefCount.insert oldMember newRefCount }, [])

/-- A turn of the scan of `UpdateIPSet`, which tests the count before it increments it. -/
def scanMember (id : String) (m : IPSetMember CIDR) (as : IPSetData CIDR) :
    IPSetData CIDR × List (MemberCallback String CIDR) :=
  let refCount := as.refCount m
  ({ as with memberToRefCount := as.memberToRefCount.insert m (refCount + 1) },
    if refCount = 0 then [.started (id, m)] else [])

end IPSetData

namespace ServiceIndex

variable {CIDR : Type} [DecidableEq CIDR] (parseCIDROrIP : String → Option CIDR)

/-- `NewServiceIndex`. -/
def new : ServiceIndex CIDR := ⟨∅, ∅, ∅, ∅⟩

/-- The active IP set of a service, with its ID. -/
def activeIPSet (idx : ServiceIndex CIDR) (svc : String) : Option (String × IPSetData CIDR) :=
  (idx.activeIPSetsByService.lookup svc).bind fun id =>
    (idx.activeIPSetsByID.lookup id).map fun ipSet => (id, ipSet)

/-- `UpdateEndpointSlice`. When the slice's service is active, the members of the new slice are
increfed, then those of the slice cached under the same namespace and name are decrefed, in the
IP set of the new slice's service. The slice is then cached, under its service and under its
key. -/
def updateEndpointSlice (es : EndpointSlice) (idx : ServiceIndex CIDR) :
    ServiceIndex CIDR × List (MemberCallback String CIDR) :=
  let svc := serviceName es
  let k := sliceKey es.«namespace» es.name
  let (activeIPSetsByID, callbacks) :=
    match idx.activeIPSet svc with
    | some (id, ipSet) =>
      let cached := idx.endpointSlices.lookup k
      let oldIPSetContributions := membersFromEndpointSlice parseCIDROrIP cached
      let newIPSetContribution := membersFromEndpointSlice parseCIDROrIP (some es)
      let (ipSet, added) := forEachPure IPSetData.incref newIPSetContribution ipSet
      let (ipSet, removed) := forEachPure IPSetData.decref oldIPSetContributions ipSet
      (idx.activeIPSetsByID.insert id ipSet, added ++ removed)
    | none => (idx.activeIPSetsByID, [])
  ({ idx with
      endpointSlicesByService := idx.endpointSlicesByService.insert svc
        (((idx.endpointSlicesByService.lookup svc).getD ∅).insert k es)
      endpointSlices := idx.endpointSlices.insert k es
      activeIPSetsByID }, callbacks)

/-- `DeleteEndpointSlice`: an unknown slice changes nothing. A known one has its members
decrefed in the IP set of its service, if that is active, and leaves the caches; a service left
with no slices leaves the cache by service. -/
def deleteEndpointSlice («namespace» name : String) (idx : ServiceIndex CIDR) :
    ServiceIndex CIDR × List (MemberCallback String CIDR) :=
  let k := sliceKey «namespace» name
  match idx.endpointSlices.lookup k with
  | none => (idx, [])
  | some es =>
    let svc := serviceName es
    let (activeIPSetsByID, callbacks) :=
      match idx.activeIPSet svc with
      | some (id, ipSet) =>
        let oldContributions := membersFromEndpointSlice parseCIDROrIP (some es)
        let (ipSet, removed) := forEachPure IPSetData.decref oldContributions ipSet
        (idx.activeIPSetsByID.insert id ipSet, removed)
      | none => (idx.activeIPSetsByID, [])
    let slices := ((idx.endpointSlicesByService.lookup svc).getD ∅).erase k
    ({ idx with
        endpointSlicesByService :=
          if slices.keys = [] then idx.endpointSlicesByService.erase svc
          else idx.endpointSlicesByService.insert svc slices
        endpointSlices := idx.endpointSlices.erase k
        activeIPSetsByID }, callbacks)

/-- `UpdateIPSet`: an ID already active for the same service changes nothing, and one active for
another service panics. A new IP set is active from now on, and counts the members of the slices
cached under its service. -/
def updateIPSet (id serviceName : String) (idx : ServiceIndex CIDR) :
    Except String (ServiceIndex CIDR × List (MemberCallback String CIDR)) :=
  match idx.activeIPSetsByID.lookup id with
  | some curr =>
    if curr.serviceName = serviceName then .ok (idx, [])
    else .error ("BUG: Same ID generated for two service names: " ++ curr.serviceName ++
      " and " ++ serviceName)
  | none =>
    let as : IPSetData CIDR := ⟨serviceName, id, ∅⟩
    let (as, added) := forEachPure (fun eps as =>
        forEachPure (IPSetData.scanMember id)
          (membersFromEndpointSlice parseCIDROrIP (some eps.2)) as)
      ((idx.endpointSlicesByService.lookup serviceName).getD ∅).entries as
    .ok ({ idx with
      activeIPSetsByID := idx.activeIPSetsByID.insert id as
      activeIPSetsByService := idx.activeIPSetsByService.insert serviceName id },
      added)

/-- `DeleteIPSet`: every counted member is reported removed, and the IP set is no longer active.
An unknown ID changes nothing. -/
def deleteIPSet (id : String) (idx : ServiceIndex CIDR) :
    ServiceIndex CIDR × List (MemberCallback String CIDR) :=
  match idx.activeIPSetsByID.lookup id with
  | none => (idx, [])
  | some as =>
    ({ idx with
        activeIPSetsByID := idx.activeIPSetsByID.erase id
        activeIPSetsByService := idx.activeIPSetsByService.erase as.serviceName },
      as.memberToRefCount.keys.map fun member => .stopped (id, member))

/-- The calls the index is driven by. -/
inductive Op where
  | updateEndpointSlice (es : EndpointSlice)
  | deleteEndpointSlice («namespace» name : String)
  | updateIPSet (id serviceName : String)
  | deleteIPSet (id : String)

/-- One call, and the callbacks it makes. -/
def apply (idx : ServiceIndex CIDR) :
    Op → Except String (ServiceIndex CIDR × List (MemberCallback String CIDR))
  | .updateEndpointSlice es => .ok (idx.updateEndpointSlice parseCIDROrIP es)
  | .deleteEndpointSlice «namespace» name =>
    .ok (idx.deleteEndpointSlice parseCIDROrIP «namespace» name)
  | .updateIPSet id serviceName => idx.updateIPSet parseCIDROrIP id serviceName
  | .deleteIPSet id => .ok (idx.deleteIPSet id)

/-- A run of calls, and the callbacks made, in order. -/
def runFrom (ops : List Op) (idx : ServiceIndex CIDR) :
    Except String (ServiceIndex CIDR × List (MemberCallback String CIDR)) :=
  forEach (fun op idx => idx.apply parseCIDROrIP op) ops idx

end ServiceIndex

end Felix.Serviceindex
