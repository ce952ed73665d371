import Felix.Bpf.IPSets
import Felix.Replication.Report
import Mathlib

/-!
# The L3 route resolver

`L3RouteResolver` (`calc/l3_route_resolver.go`) turns what the datastore says about nodes and
workloads into the routes the dataplane programs. It keeps a trie of CIDRs, each with what is
known about it (`RouteInfo`): the nodes whose own address it is, the workloads and tunnels
that use it. Every update changes some entries and marks them dirty; `flush` then sends, for
each dirty CIDR, the route that the entries on its trie path give, or withdraws a route that
is no longer valid.

A node update is skipped when the node's info is `Equal` to what the resolver holds. `Equal`
compares the node's address lists by length and then looks up each old address in the new
list, but not the other way round (`equal_iff`): a node whose address list goes from
`[A, A]` to `[A, B]` is taken as unchanged, so `B` never gets its host route, which a resolver
that saw only the second update sends (`routes_depend_on_address_history`).

Every entry that is not dirty has been sent and is a valid route (`RouteTrie.Settled`); each
update keeps that, and `flush` leaves no CIDR dirty, so after every update each CIDR with route
information has had its route sent (`routes_sent_after_every_update`).

This module models the node and workload paths of the resolver; IP pools and IPAM blocks are
left out, and a node resource comes with its addresses as libcalico-go's parsers give them.

## Main definitions

* `L3rrNodeInfo`, `L3rrNodeInfo.equal`, `RouteInfo`, `RouteTrie`
* `L3RouteResolver`, `onNodeUpdate`, `onWorkloadUpdate`, `flush`
* `L3RouteResolver.apply` (`OnResourceUpdate`, `OnHostIPUpdate`, `OnWorkloadUpdate`),
  `L3RouteResolver.runFrom`, `routeTable`
-/

namespace Felix.Calc

open Bpf Replication

/-! ## Node information -/

/-- `ip.Addr`: an IPv4 address, or an IPv6 one by the two halves of its 128 bits. -/
inductive Addr where
  | v4 (a : UInt32)
  | v6 (hi lo : UInt64)
  deriving DecidableEq

/-- `l3rrNodeInfo`. The tunnel addresses are IPv4: the resolver asserts as much when it makes
their CIDRs. -/
structure L3rrNodeInfo where
  addr : UInt32
  cidr : V4CIDR
  ipipAddr : Option UInt32
  vxlanAddr : Option UInt32
  wireguardAddr : Option UInt32
  addresses : List Addr
  deriving DecidableEq

namespace L3rrNodeInfo

/-- `Equal`: the same address, CIDR and tunnel addresses, and address lists of one length in
which each of `i`'s addresses is found in `b`'s, searching from its own index round. -/
def equal (i b : L3rrNodeInfo) : Bool :=
  if i.addr == b.addr && i.cidr == b.cidr && i.ipipAddr == b.ipipAddr &&
      i.vxlanAddr == b.vxlanAddr && i.wireguardAddr == b.wireguardAddr then
    if i.addresses.length != b.addresses.length then false
    else
      let l := i.addresses.length
      (List.range l).all fun ia =>
        (List.range l).any fun j => b.addresses[(ia + j) % l]? == i.addresses[ia]?
  else false

/-- `AddresesV4AsCIDRs`: the `/32`s of the node's address and of its IPv4 addresses, each
once. -/
def addresesV4AsCIDRs (i : L3rrNodeInfo) : List V4CIDR :=
  let addrs4 := i.addresses.foldl
    (fun s a => match a with
      | .v4 a => s.add a
      | .v6 .. => s)
    ((∅ : IterSet UInt32).add i.addr)
  addrs4.toList.map fun a => ⟨a, 32⟩

end L3rrNodeInfo

/-! ## The route trie -/

/-- `proto.IPPoolType`. -/
inductive IPPoolType where
  | none
  | noEncap
  | vxlan
  | ipip
  deriving DecidableEq

/-- `RefType`, in the order of its constants. -/
inductive RefType where
  | wep
  | wireguard
  | ipip
  | vxlan
  deriving DecidableEq

def RefType.toNat : RefType → ℕ
  | .wep => 0
  | .wireguard => 1
  | .ipip => 2
  | .vxlan => 3

/-- `Ref`: a workload or tunnel that uses a CIDR, with a count of its uses. -/
structure Ref where
  refCount : ℤ
  refType : RefType
  nodeName : String
  deriving DecidableEq

/-- The order `AddRef` sorts the refs in: by node, then by type. -/
def Ref.Le (a b : Ref) : Prop :=
  if a.nodeName = b.nodeName then a.refType.toNat ≤ b.refType.toNat else a.nodeName < b.nodeName

instance : DecidableRel Ref.Le := fun _ _ => inferInstanceAs (Decidable (ite _ _ _))

/-- `RouteInfo`, with the fields of its `Pool`, `Block` and `Host` parts flattened. -/
structure RouteInfo where
  poolType : IPPoolType := .none
  poolNATOutgoing : Bool := false
  poolCrossSubnet : Bool := false
  blockNodeName : String := ""
  hostNodeNames : List String := []
  refs : List Ref := []
  wasSent : Bool := false
  deriving DecidableEq

namespace RouteInfo

/-- `IsValidRoute`: something is known about the CIDR, so it has a route. -/
def isValidRoute (r : RouteInfo) : Bool :=
  r.poolType != .none || r.blockNodeName != "" || !r.hostNodeNames.isEmpty || r.poolNATOutgoing ||
    !r.refs.isEmpty

/-- `IsZero`: nothing is left to track about the CIDR. -/
def isZero (r : RouteInfo) : Bool := !r.wasSent && !r.isValidRoute
attribute [grind] isZero

end RouteInfo

/-- `RouteTrie`: the entries by CIDR, and the CIDRs that `flush` has to look at. -/
structure RouteTrie where
  t : AList (fun _ : V4CIDR => RouteInfo)
  dirtyCIDRs : IterSet V4CIDR

namespace RouteTrie

/-- `Get`: the entry of the CIDR, or the empty one. -/
def get (r : RouteTrie) (cidr : V4CIDR) : RouteInfo := (r.t.lookup cidr).getD {}
attribute [grind] get

/-- `MarkCIDRDirty`. -/
def markCIDRDirty (r : RouteTrie) (cidr : V4CIDR) : RouteTrie :=
  { r with dirtyCIDRs := r.dirtyCIDRs.add cidr }

/-- `updateCIDR`: a change to the entry marks the CIDR dirty, and an entry left with nothing
to track is deleted. Whether the entry changed is returned too. -/
def updateCIDR (r : RouteTrie) (cidr : V4CIDR) (updateFn : RouteInfo → RouteInfo) : RouteTrie × Bool :=
  let ri := updateFn (r.get cidr)
  if r.get cidr = ri then (r, false)
  else
    let r := r.markCIDRDirty cidr
    if ri.isZero then ({ r with t := r.t.erase cidr }, true)
    else ({ r with t := r.t.insert cidr ri }, true)

/-- `AddHost`: the node is one more whose own address the CIDR is; several are kept sorted. -/
def addHost (r : RouteTrie) (cidr : V4CIDR) (nodeName : String) : RouteTrie :=
  (r.updateCIDR cidr fun ri =>
    let names := ri.hostNodeNames ++ [nodeName]
    { ri with hostNodeNames := if names.length > 1 then names.insertionSort (· ≤ ·) else names }).1

/-- `RemoveHost`. -/
def removeHost (r : RouteTrie) (cidr : V4CIDR) (nodeName : String) : RouteTrie :=
  (r.updateCIDR cidr fun ri => { ri with hostNodeNames := ri.hostNodeNames.filter (· != nodeName) }).1

/-- The refs with the first ref of the node and type counted once more, if there is one. -/
def incRef (nodename : String) (rt : RefType) : List Ref → Option (List Ref)
  | [] => none
  | ref :: refs =>
    if ref.nodeName = nodename ∧ ref.refType = rt then some ({ ref with refCount := ref.refCount + 1 } :: refs)
    else (incRef nodename rt refs).map (ref :: ·)

/-- `AddRef`: count one more use of an existing ref, or add the ref and sort the refs by node
and type. -/
def addRef (r : RouteTrie) (cidr : V4CIDR) (nodename : String) (rt : RefType) : RouteTrie :=
  (r.updateCIDR cidr fun ri =>
    match incRef nodename rt ri.refs with
    | some refs => { ri with refs := refs }
    | none =>
      { ri with refs := (ri.refs ++ [Ref.mk 1 rt nodename]).insertionSort Ref.Le }).1

/-- The refs with one use fewer of the first ref of the node and type, which goes when its
count reaches zero; a panic when there is no such ref or its count is already zero. -/
def decRef (nodename : String) (rt : RefType) : List Ref → Except String (List Ref)
  | [] => .error "BUG: Asked to decref a workload that doesn't exist."
  | ref :: refs =>
    if ref.nodeName = nodename ∧ ref.refType = rt then
      let count := ref.refCount - 1
      if count < 0 then .error "BUG: Asked to decref a workload past 0."
      else if count = 0 then .ok refs
      else .ok ({ ref with refCount := count } :: refs)
    else (decRef nodename rt refs).map (ref :: ·)

/-- `RemoveRef`. -/
def removeRef (r : RouteTrie) (cidr : V4CIDR) (nodename : String) (rt : RefType) :
    Except String RouteTrie := do
  let refs ← decRef nodename rt (r.get cidr).refs
  pure (r.updateCIDR cidr fun ri => { ri with refs := refs }).1

/-- `SetRouteSent`. -/
def setRouteSent (r : RouteTrie) (cidr : V4CIDR) (sent : Bool) : RouteTrie :=
  (r.updateCIDR cidr fun ri => { ri with wasSent := sent }).1

/-- `LookupPath` of a CIDR in the trie: the entries whose CIDRs enclose it, shortest prefix
first, down to its own. -/
def lookupPath (r : RouteTrie) (cidr : V4CIDR) : List (V4CIDR × RouteInfo) :=
  ((r.t.entries.filter fun e => decide (e.1.prefixLen ≤ cidr.prefixLen) && e.1.containsV4 cidr.addr).map
    fun e => (e.1, e.2)).insertionSort fun a b => a.1.prefixLen ≤ b.1.prefixLen

end RouteTrie

/-! ## The resolver -/

/-- `proto.RouteType`. -/
inductive RouteType where
  | cidrInfo
  | remoteWorkload
  | remoteHost
  | localWorkload
  | localHost
  | remoteTunnel
  | localTunnel
  deriving DecidableEq

/-- `proto.TunnelType`. -/
structure TunnelType where
  ipip : Bool := false
  vxlan : Bool := false
  wireguard : Bool := false
  deriving DecidableEq

/-- `proto.RouteUpdate`. -/
structure RouteUpdate where
  type : RouteType
  ipPoolType : IPPoolType
  dst : String
  dstNodeName : String := ""
  dstNodeIp : String := ""
  sameSubnet : Bool := false
  natOutgoing : Bool := false
  localWorkload : Bool := false
  tunnelType : Option TunnelType := none
  deriving DecidableEq

/-- The resolver's calls downstream. -/
inductive RouteCallback where
  | onRouteUpdate (rt : RouteUpdate)
  | onRouteRemove (dst : String)
  deriving DecidableEq

/-- `model.WorkloadEndpointKey`. -/
structure WorkloadEndpointKey where
  hostname : String
  orchestratorID : String
  workloadID : String
  endpointID : String
  deriving DecidableEq

/-- `L3RouteResolver`, with the state its node and workload updates keep. -/
structure L3RouteResolver where
  myNodeName : String
  trie : RouteTrie
  nodeNameToNodeInfo : AList (fun _ : String => L3rrNodeInfo)
  nodeRoutes : AList (fun _ : String => AList (fun _ : V4CIDR => ℤ))
  workloadIDToCIDRs : AList (fun _ : WorkloadEndpointKey => List V4CIDR)

/-- `NewL3RouteResolver`. -/
def newL3RouteResolver (hostname : String) : L3RouteResolver := ⟨hostname, ⟨∅, ∅⟩, ∅, ∅, ∅⟩

namespace L3RouteResolver

/-- `nodeRoutes.Add`: one more use of the CIDR by the node. -/
def addNodeRoute (nodeName : String) (dst : V4CIDR) (c : L3RouteResolver) : L3RouteResolver :=
  let m := (c.nodeRoutes.lookup nodeName).getD ∅
  { c with nodeRoutes := c.nodeRoutes.insert nodeName (m.insert dst ((m.lookup dst).getD 0 + 1)) }

/-- `nodeRoutes.Remove`: one use fewer, with the entry and then the node removed at zero; a
panic for a node it does not know or a count that would go below zero. -/
def removeNodeRoute (nodeName : String) (dst : V4CIDR) (c : L3RouteResolver) :
    Except String L3RouteResolver :=
  match c.nodeRoutes.lookup nodeName with
  | none => .error "BUG: Asked to decref for node that doesn't exist"
  | some m =>
    let count := (m.lookup dst).getD 0 - 1
    if count < 0 then .error "BUG: Asked to decref a route past 0."
    else
      let m := if count = 0 then m.erase dst else m.insert dst count
      .ok { c with nodeRoutes := if m.entries = [] then c.nodeRoutes.erase nodeName else c.nodeRoutes.insert nodeName m }

/-- `markAllNodeRoutesDirty`. -/
def markAllNodeRoutesDirty (nodeName : String) (c : L3RouteResolver) : L3RouteResolver :=
  { c with trie := ((c.nodeRoutes.lookup nodeName).getD ∅).keys.foldl RouteTrie.markCIDRDirty c.trie }

/-- The node of a route, as `visitAllRoutes` finds it: of its first ref, or else of its block. -/
def routeNodeName (ri : RouteInfo) : Option String :=
  match ri.refs with
  | ref :: _ => some ref.nodeName
  | [] => if ri.blockNodeName ≠ "" then some ri.blockNodeName else none

/-- When this node's CIDR changes, the routes to other known nodes whose "same subnet" answer
changes are marked dirty. -/
def markSameSubnetDirty (oldCIDR : Option V4CIDR) (myNewCIDR : Option V4CIDR) (c : L3RouteResolver) :
    L3RouteResolver :=
  { c with trie := c.trie.t.entries.foldl (fun trie e =>
      match routeNodeName e.2 with
      | none => trie
      | some nodeName =>
        if nodeName = c.myNodeName then trie
        else match c.nodeNameToNodeInfo.lookup nodeName with
          | none => trie
          | some other =>
            let wasSameSubnet := oldCIDR.any (·.containsV4 other.addr)
            let nowSameSubnet := myNewCIDR.any (·.containsV4 other.addr)
            if wasSameSubnet ≠ nowSameSubnet then trie.markCIDRDirty e.1 else trie) c.trie }

/-- The ref of one tunnel address, if the node has it, added. -/
def addTunnelRef (nodeName : String) (rt : RefType) (trie : RouteTrie) : Option UInt32 → RouteTrie
  | some a => trie.addRef ⟨a, 32⟩ nodeName rt
  | none => trie

/-- The ref of one tunnel address, if the node has it, removed. -/
def removeTunnelRef (nodeName : String) (rt : RefType) (trie : RouteTrie) :
    Option UInt32 → Except String RouteTrie
  | some a => trie.removeRef ⟨a, 32⟩ nodeName rt
  | none => pure trie

/-- The refs of a node's tunnel addresses, added. -/
def addTunnelRefs (nodeName : String) (i : L3rrNodeInfo) (trie : RouteTrie) : RouteTrie :=
  let trie := addTunnelRef nodeName .ipip trie i.ipipAddr
  let trie := addTunnelRef nodeName .vxlan trie i.vxlanAddr
  addTunnelRef nodeName .wireguard trie i.wireguardAddr

/-- The refs of a node's tunnel addresses, removed. -/
def removeTunnelRefs (nodeName : String) (i : L3rrNodeInfo) (trie : RouteTrie) :
    Except String RouteTrie := do
  let trie ← removeTunnelRef nodeName .ipip trie i.ipipAddr
  let trie ← removeTunnelRef nodeName .vxlan trie i.vxlanAddr
  removeTunnelRef nodeName .wireguard trie i.wireguardAddr

/-- The part of `onNodeUpdate` after its "same subnet" check: the tunnel refs are added for
the new info and removed for the old; the host entries move from the old addresses to the new;
and the node's routes are marked dirty. -/
def replaceNodeInfo (nodeName : String) (oldNodeInfo newNodeInfo : Option L3rrNodeInfo)
    (c : L3RouteResolver) : Except String L3RouteResolver := do
  -- the tunnel refs are counted, so the new ones are added before the old are removed
  let trie := (newNodeInfo.map fun n => addTunnelRefs nodeName n c.trie).getD c.trie
  let trie ← (oldNodeInfo.map fun o => removeTunnelRefs nodeName o trie).getD (pure trie)
  let trie := (oldNodeInfo.map fun o =>
    o.addresesV4AsCIDRs.foldl (fun (t : RouteTrie) a => t.removeHost a nodeName) trie).getD trie
  let infos := if oldNodeInfo.isSome then c.nodeNameToNodeInfo.erase nodeName else c.nodeNameToNodeInfo
  let trie := (newNodeInfo.map fun n =>
    n.addresesV4AsCIDRs.foldl (fun (t : RouteTrie) a => t.addHost a nodeName) trie).getD trie
  let infos := (newNodeInfo.map fun n => infos.insert nodeName n).getD infos
  pure (markAllNodeRoutesDirty nodeName { c with trie := trie, nodeNameToNodeInfo := infos })

/-- `onNodeUpdate`: a node's info is replaced (`none` removes it), unless the update is `Equal`
to what is held, or removes a node that is not known. A change of this node's CIDR first
re-examines "same subnet". -/
def onNodeUpdate (nodeName : String) (newNodeInfo : Option L3rrNodeInfo) (c : L3RouteResolver) :
    Except String L3RouteResolver :=
  let oldNodeInfo := c.nodeNameToNodeInfo.lookup nodeName
  let noChange := match newNodeInfo, oldNodeInfo with
    | none, none => true
    | some n, some o => o.equal n
    | _, _ => false
  if noChange then pure c
  else
    let c := if nodeName = c.myNodeName ∧ (oldNodeInfo.map (·.cidr)).getD ⟨0, 0⟩ ≠
        (newNodeInfo.map (·.cidr)).getD ⟨0, 0⟩ then
        c.markSameSubnetDirty (oldNodeInfo.map (·.cidr)) (newNodeInfo.map (·.cidr))
      else c
    c.replaceNodeInfo nodeName oldNodeInfo newNodeInfo

/-- `onWorkloadUpdate` without its flush: the workload's CIDRs are replaced, their refs and
node routes counted for the new CIDRs and uncounted for the old. -/
def onWorkloadUpdate (key : WorkloadEndpointKey) (newCIDRs : List V4CIDR) (c : L3RouteResolver) :
    Except String L3RouteResolver := do
  let oldCIDRs := (c.workloadIDToCIDRs.lookup key).getD []
  if oldCIDRs = newCIDRs then pure c
  else
    let c := newCIDRs.foldl (fun c cidr =>
      addNodeRoute key.hostname cidr { c with trie := c.trie.addRef cidr key.hostname .wep }) c
    let c ← oldCIDRs.foldlM (fun c cidr => do
      let trie ← c.trie.removeRef cidr key.hostname .wep
      removeNodeRoute key.hostname cidr { c with trie := trie }) c
    pure { c with workloadIDToCIDRs :=
      if newCIDRs ≠ [] then c.workloadIDToCIDRs.insert key newCIDRs else c.workloadIDToCIDRs.erase key }

/-! ## Flushing routes -/

/-- `nodeInOurSubnet`: both nodes are known and this node's CIDR holds the other's address. -/
def nodeInOurSubnet (c : L3RouteResolver) (name : String) : Bool :=
  match c.nodeNameToNodeInfo.lookup c.myNodeName, c.nodeNameToNodeInfo.lookup name with
  | some localNodeInfo, some nodeInfo => localNodeInfo.cidr.containsV4 nodeInfo.addr
  | _, _ => false

/-- The tunnel types of the refs of the first ref's node. -/
def tunnelTypeOf (refs : List Ref) (nodeName : String) : TunnelType :=
  refs.foldl (fun tt ref =>
    if ref.nodeName ≠ nodeName then tt
    else match ref.refType with
      | .ipip => { tt with ipip := true }
      | .vxlan => { tt with vxlan := true }
      | .wireguard => { tt with wireguard := true }
      | .wep => tt) {}

/-- One entry of the lookup path, read into the route: the pool's type, NAT and cross-subnet
settings, then the block's node, the host's first node and the first ref's node, each later one
overriding the node and the type. -/
def routeStep (myNodeName : String) (acc : RouteUpdate × Bool) (ri : RouteInfo) : RouteUpdate × Bool :=
  let (rt, poolAllowsCrossSubnet) := acc
  let rt := if ri.poolType ≠ .none then { rt with ipPoolType := ri.poolType } else rt
  let rt := if ri.poolNATOutgoing then { rt with natOutgoing := true } else rt
  let rt := if ri.blockNodeName ≠ "" then
      { rt with dstNodeName := ri.blockNodeName,
                type := if ri.blockNodeName = myNodeName then .localWorkload else .remoteWorkload }
    else rt
  let rt := match ri.hostNodeNames with
    | n :: _ => { rt with dstNodeName := n, type := if n = myNodeName then .localHost else .remoteHost }
    | [] => rt
  let rt := match ri.refs with
    | ref :: _ =>
      let rt := { rt with dstNodeName := ref.nodeName }
      if ref.refType = .wep then
        if ref.nodeName = myNodeName then { rt with type := .localWorkload, localWorkload := true }
        else { rt with type := .remoteWorkload }
      else
        { rt with type := if ref.nodeName = myNodeName then .localTunnel else .remoteTunnel,
                  tunnelType := some (tunnelTypeOf ri.refs ref.nodeName) }
    | [] => rt
  (rt, poolAllowsCrossSubnet || ri.poolCrossSubnet)

/-- The route `flush` sends for a CIDR, from the entries on its lookup path. -/
def routeFromPath (c : L3RouteResolver) (cidr : V4CIDR) (buf : List (V4CIDR × RouteInfo)) :
    RouteUpdate :=
  let (rt, poolAllowsCrossSubnet) := buf.foldl (fun acc e => routeStep c.myNodeName acc e.2)
    ({ type := .cidrInfo, ipPoolType := .none, dst := cidr.toString }, false)
  let rt := if rt.dstNodeName ≠ "" then
      match c.nodeNameToNodeInfo.lookup rt.dstNodeName with
      | some dstNodeInfo => { rt with dstNodeIp := v4AddrString dstNodeInfo.addr }
      | none => rt
    else rt
  { rt with sameSubnet := poolAllowsCrossSubnet && c.nodeInOurSubnet rt.dstNodeName }

/-- One dirty CIDR of `flush`: nothing if it is not in the trie, a withdrawal if its route was
sent and is no longer valid, and otherwise its route. -/
def flushCIDR (c : L3RouteResolver) (cidr : V4CIDR) : L3RouteResolver × List RouteCallback :=
  match c.trie.t.lookup cidr with
  | none => (c, [])
  | some ri =>
    if ri.wasSent && !ri.isValidRoute then
      ({ c with trie := c.trie.setRouteSent cidr false }, [.onRouteRemove cidr.toString])
    else
      ({ c with trie := c.trie.setRouteSent cidr true },
        [.onRouteUpdate (c.routeFromPath cidr (c.trie.lookupPath cidr))])

/-- `flush`: each dirty CIDR is flushed and removed from the dirty set. -/
def flush (c : L3RouteResolver) : L3RouteResolver × List RouteCallback :=
  let (c, cbs) := forEachPure (fun cidr c => c.flushCIDR cidr) c.trie.dirtyCIDRs.toList c
  ({ c with trie := { c.trie with dirtyCIDRs := ∅ } }, cbs)

end L3RouteResolver

/-! ## Updates -/

/-- A node resource, with the fields `OnResourceUpdate` reads as libcalico-go's parsers give
them: the BGP address and its CIDR, or else the first internal or else external address found;
the tunnel addresses; and each of `Spec.Addresses`, `none` when it does not parse. -/
structure NodeResource where
  bgpIPv4Address : Option (UInt32 × V4CIDR) := none
  foundAddress : Option (UInt32 × V4CIDR) := none
  wireguardInterfaceIPv4Address : Option UInt32 := none
  bgpIPv4IPIPTunnelAddr : Option UInt32 := none
  ipv4VXLANTunnelAddr : Option UInt32 := none
  addresses : List (Option Addr) := []

/-- The node info `OnResourceUpdate` builds: none without an IPv4 address. -/
def NodeResource.nodeInfo (node : NodeResource) : Option L3rrNodeInfo :=
  (node.bgpIPv4Address.orElse fun _ => node.foundAddress).map fun (a, cidr) =>
    { addr := a, cidr := cidr, ipipAddr := node.bgpIPv4IPIPTunnelAddr,
      vxlanAddr := node.ipv4VXLANTunnelAddr, wireguardAddr := node.wireguardInterfaceIPv4Address,
      addresses := node.addresses.filterMap id }

/-- An update the resolver receives. -/
inductive L3Update where
  /-- `OnResourceUpdate` for a node: its resource, or `none` for a deletion. -/
  | resourceUpdate (nodeName : String) (node : Option NodeResource)
  /-- `OnHostIPUpdate`: the node's IP, or `none` for a deletion. -/
  | hostIPUpdate (nodeName : String) (ip : Option Addr)
  /-- `OnWorkloadUpdate`: the workload's IPv4 CIDRs, none for a deletion. -/
  | workloadUpdate (key : WorkloadEndpointKey) (ipv4Nets : List V4CIDR)

namespace L3RouteResolver

/-- An update and its deferred flush. `OnHostIPUpdate` does not know the node's CIDR and uses
the `/32` of its IP. -/
def apply (c : L3RouteResolver) : L3Update → Except String (L3RouteResolver × List RouteCallback)
  | .resourceUpdate nodeName node => do
    let c ← c.onNodeUpdate nodeName (node.bind NodeResource.nodeInfo)
    pure c.flush
  | .hostIPUpdate nodeName ip => do
    let newNodeInfo : Option L3rrNodeInfo := match ip with
      | some (.v4 a) => some ⟨a, ⟨a, 32⟩, none, none, none, []⟩
      | _ => none
    let c ← c.onNodeUpdate nodeName newNodeInfo
    pure c.flush
  | .workloadUpdate key ipv4Nets => do
    let c ← c.onWorkloadUpdate key ipv4Nets
    pure c.flush

/-- A run of updates, with all the routes sent and withdrawn in order. -/
def runFrom (updates : List L3Update) (c : L3RouteResolver) :
    Except String (L3RouteResolver × List RouteCallback) :=
  forEach (fun u c => c.apply u) updates c

end L3RouteResolver

/-- The route table downstream: the last route sent for each destination, unless it was
withdrawn after. -/
def routeTable (cbs : List RouteCallback) : AList (fun _ : String => RouteUpdate) :=
  cbs.foldl (fun table cb =>
    match cb with
    | .onRouteUpdate rt => table.insert rt.dst rt
    | .onRouteRemove dst => table.erase dst) ∅

/-! ## `Equal` looks one way

`Equal` searches for each address of the held info in the new one, round from its own index,
and so finds exactly the held addresses that the new info has. With lists of one length, the
new list may still hold an address the old one does not, when the old one holds another
twice. -/

/-- Searching `b` round from any index, over as many places as it has, finds exactly its
elements. -/
theorem exists_getElem?_rotate_iff {α : Type} {b : List α} {x : α} (ia : ℕ) :
    (∃ j < b.length, b[(ia + j) % b.length]? = some x) ↔ x ∈ b := by
  constructor
  · rintro ⟨j, -, hj⟩
    exact List.mem_of_getElem? hj
  · intro hx
    obtain ⟨k, hk, rfl⟩ := List.getElem_of_mem hx
    have hlt : ia % b.length < b.length := Nat.mod_lt _ (by omega)
    -- the place `k` is reached after going round to the start and on `k` places
    have hsum : ia + (k + b.length - ia % b.length) = k + b.length * (ia / b.length + 1) := by
      have := Nat.div_add_mod ia b.length
      rw [Nat.mul_add, Nat.mul_one]
      omega
    refine ⟨(k + b.length - ia % b.length) % b.length, Nat.mod_lt _ (by omega), ?_⟩
    rw [Nat.add_mod_mod, hsum, Nat.add_mul_mod_self_left, Nat.mod_eq_of_lt hk, List.getElem?_eq_getElem hk]

/-- `Equal`'s search: each element of `xs` is looked for in `ys`, a list of the same length,
round from its own index. It finds them all exactly when every element of `xs` is in `ys`. -/
theorem all_any_rotate_iff {α : Type} [DecidableEq α] {xs ys : List α}
    (hl : xs.length = ys.length) :
    ((List.range xs.length).all fun ia =>
        (List.range xs.length).any fun j => ys[(ia + j) % xs.length]? == xs[ia]?) = true ↔
      ∀ a ∈ xs, a ∈ ys := by
  simp only [List.all_eq_true, List.mem_range, List.any_eq_true, beq_iff_eq, hl]
  constructor
  · intro h a ha
    obtain ⟨ia, hia, rfl⟩ := List.getElem_of_mem ha
    exact (exists_getElem?_rotate_iff ia).mp (by simpa [List.getElem?_eq_getElem hia] using h ia (hl ▸ hia))
  · intro h ia hia
    have hia' : ia < xs.length := hl ▸ hia
    simpa [List.getElem?_eq_getElem hia'] using
      (exists_getElem?_rotate_iff ia).mpr (h _ (List.getElem_mem hia'))

namespace L3rrNodeInfo

/-- `Equal` holds of two infos with the same scalar fields exactly when their address lists
have one length and each of `i`'s addresses is one of `b`'s, whatever else `b` has. -/
theorem equal_iff {i b : L3rrNodeInfo} :
    i.equal b = true ↔ i.addr = b.addr ∧ i.cidr = b.cidr ∧ i.ipipAddr = b.ipipAddr ∧
      i.vxlanAddr = b.vxlanAddr ∧ i.wireguardAddr = b.wireguardAddr ∧
      i.addresses.length = b.addresses.length ∧ ∀ a ∈ i.addresses, a ∈ b.addresses := by
  unfold equal
  split_ifs with hA hB
  · -- the lengths differ
    simp only [bne_iff_ne, ne_eq] at hB
    simp only [false_iff]
    exact fun h => hB h.2.2.2.2.2.1
  · simp only [Bool.and_eq_true, beq_iff_eq] at hA
    have hl : i.addresses.length = b.addresses.length := by simpa using hB
    rw [all_any_rotate_iff hl]
    tauto
  · simp only [Bool.and_eq_true, beq_iff_eq] at hA
    simp only [false_iff]
    tauto

end L3rrNodeInfo

/-! ## Every update leaves its routes sent

Each trie operation goes through `updateCIDR`, which marks dirty what it changes and deletes
what has nothing left to track, or only marks CIDRs dirty; `flush` then settles every dirty
CIDR. So after every update, with its flush, every CIDR the trie holds has had its route sent. -/

/-- Whether a route is valid does not depend on whether it was sent. -/
theorem RouteInfo.isValidRoute_wasSent (r : RouteInfo) (sent : Bool) :
    ({ r with wasSent := sent } : RouteInfo).isValidRoute = r.isValidRoute := rfl

namespace RouteTrie

@[simp] theorem markCIDRDirty_t (r : RouteTrie) (cidr : V4CIDR) : (r.markCIDRDirty cidr).t = r.t := rfl

@[simp] theorem markCIDRDirty_dirtyCIDRs (r : RouteTrie) (cidr : V4CIDR) :
    (r.markCIDRDirty cidr).dirtyCIDRs = r.dirtyCIDRs.add cidr := rfl

/-- Every entry has something to track, and every entry outside the dirty set has had its
route sent and is a valid route. -/
structure Settled (r : RouteTrie) : Prop where
  nonzero : ∀ cidr ri, r.t.lookup cidr = some ri → ri.isZero = false
  sent : ∀ cidr ri, r.t.lookup cidr = some ri → cidr ∉ r.dirtyCIDRs →
    ri.wasSent = true ∧ ri.isValidRoute = true

variable {r r' : RouteTrie}

/-- A change keeps the trie settled when it leaves no empty entry and marks dirty each CIDR
whose entry it changes, keeping the dirty ones dirty. -/
theorem Settled.of_marked (h : r.Settled)
    (hnz : ∀ cidr ri, r'.t.lookup cidr = some ri → ri.isZero = false)
    (hmark : ∀ cidr, cidr ∉ r'.dirtyCIDRs → cidr ∉ r.dirtyCIDRs ∧ r'.t.lookup cidr = r.t.lookup cidr) :
    r'.Settled where
  nonzero := hnz
  sent cidr ri hl hd := by
    obtain ⟨hd', heq⟩ := hmark cidr hd
    exact h.sent cidr ri (heq ▸ hl) hd'

theorem Settled.markCIDRDirty (h : r.Settled) (cidr : V4CIDR) : (r.markCIDRDirty cidr).Settled :=
  h.of_marked h.nonzero fun c hc => by
    simp only [markCIDRDirty_dirtyCIDRs, IterSet.mem_add, not_or] at hc
    exact ⟨hc.2, rfl⟩

/-- What `updateCIDR` can do: nothing, or mark the CIDR dirty and erase its entry if it has
nothing left to track, or else store it. -/
theorem updateCIDR_cases (cidr : V4CIDR) (updateFn : RouteInfo → RouteInfo) :
    r.get cidr = updateFn (r.get cidr) ∧ (r.updateCIDR cidr updateFn).1 = r ∨
      (updateFn (r.get cidr)).isZero = true ∧
        (r.updateCIDR cidr updateFn).1 = { r.markCIDRDirty cidr with t := r.t.erase cidr } ∨
      (updateFn (r.get cidr)).isZero = false ∧
        (r.updateCIDR cidr updateFn).1 = { r.markCIDRDirty cidr with t := r.t.insert cidr (updateFn (r.get cidr)) } := by
  unfold updateCIDR
  dsimp only
  split_ifs with heq hz
  · exact .inl ⟨heq, rfl⟩
  · exact .inr (.inl ⟨hz, rfl⟩)
  · exact .inr (.inr ⟨by simpa using hz, rfl⟩)

theorem Settled.updateCIDR (h : r.Settled) (cidr : V4CIDR) (updateFn : RouteInfo → RouteInfo) :
    (r.updateCIDR cidr updateFn).1.Settled := by
  -- every other CIDR keeps its entry; this one is dirty
  have hmark : ∀ (t : AList (fun _ : V4CIDR => RouteInfo)), (∀ c, c ≠ cidr → t.lookup c = r.t.lookup c) →
      ∀ c, c ∉ ({ r.markCIDRDirty cidr with t := t } : RouteTrie).dirtyCIDRs →
        c ∉ r.dirtyCIDRs ∧ t.lookup c = r.t.lookup c := by
    intro t ht c hc
    simp only [markCIDRDirty_dirtyCIDRs, IterSet.mem_add, not_or] at hc
    exact ⟨hc.2, ht c hc.1⟩
  rcases updateCIDR_cases cidr updateFn with ⟨-, hu⟩ | ⟨-, hu⟩ | ⟨hz, hu⟩ <;> rw [hu]
  · exact h
  · refine h.of_marked (fun c ri hl => ?_) (hmark _ fun c hc => AList.lookup_erase_ne hc)
    by_cases hc : c = cidr
    · subst hc
      simp at hl
    · rw [AList.lookup_erase_ne hc] at hl
      exact h.nonzero c ri hl
  · refine h.of_marked (fun c ri hl => ?_) (hmark _ fun c hc => AList.lookup_insert_ne hc)
    by_cases hc : c = cidr
    · subst hc
      simp only [AList.lookup_insert, Option.some.injEq] at hl
      exact hl ▸ hz
    · rw [AList.lookup_insert_ne hc] at hl
      exact h.nonzero c ri hl

theorem updateCIDR_lookup_ne {cidr cidr' : V4CIDR} (updateFn : RouteInfo → RouteInfo)
    (hne : cidr' ≠ cidr) : (r.updateCIDR cidr updateFn).1.t.lookup cidr' = r.t.lookup cidr' := by
  rcases updateCIDR_cases cidr updateFn with ⟨-, hu⟩ | ⟨-, hu⟩ | ⟨-, hu⟩ <;> rw [hu]
  · exact AList.lookup_erase_ne hne
  · exact AList.lookup_insert_ne hne

theorem mem_dirtyCIDRs_updateCIDR {cidr cidr' : V4CIDR} (updateFn : RouteInfo → RouteInfo)
    (h : cidr' ∈ (r.updateCIDR cidr updateFn).1.dirtyCIDRs) : cidr' ∈ r.dirtyCIDRs ∨ cidr' = cidr := by
  rcases updateCIDR_cases cidr updateFn with ⟨-, hu⟩ | ⟨-, hu⟩ | ⟨-, hu⟩ <;> rw [hu] at h
  · exact .inl h
  all_goals
    simp only [markCIDRDirty_dirtyCIDRs, IterSet.mem_add] at h
    exact h.symm

/-- On a settled trie, the entry `updateCIDR` leaves is the updated one, unless that has
nothing to track. -/
theorem Settled.lookup_updateCIDR_self (h : r.Settled) (cidr : V4CIDR)
    (updateFn : RouteInfo → RouteInfo) :
    (r.updateCIDR cidr updateFn).1.t.lookup cidr =
      if (updateFn (r.get cidr)).isZero then none else some (updateFn (r.get cidr)) := by
  rcases updateCIDR_cases cidr updateFn with ⟨heq, hu⟩ | ⟨hz, hu⟩ | ⟨hz, hu⟩ <;> rw [hu]
  · -- unchanged: a stored entry is not empty, and a missing one reads as empty
    rw [← heq]
    cases hl : r.t.lookup cidr with
    | none => simp [get, hl, RouteInfo.isZero, RouteInfo.isValidRoute]
    | some ri =>
      have hri : r.get cidr = ri := by simp [get, hl]
      rw [hri, h.nonzero cidr ri hl]
      rfl
  · simp [hz]
  · simp [hz]

theorem Settled.removeRef (h : r.Settled) {cidr : V4CIDR} {nodename : String} {rt : RefType}
    (hr : r.removeRef cidr nodename rt = .ok r') : r'.Settled := by
  unfold RouteTrie.removeRef at hr
  obtain ⟨refs, -, hr⟩ := bind_eq_ok hr
  cases hr
  exact h.updateCIDR _ _

end RouteTrie

namespace L3RouteResolver

variable {c c' : L3RouteResolver}

theorem settled_markSameSubnetDirty (h : c.trie.Settled) (oldCIDR myNewCIDR : Option V4CIDR) :
    (c.markSameSubnetDirty oldCIDR myNewCIDR).trie.Settled := by
  unfold markSameSubnetDirty
  -- each entry's turn marks its CIDR dirty or does nothing
  refine List.foldlRecOn (motive := RouteTrie.Settled) _ _ h fun trie ht e _ => ?_
  dsimp only
  split
  · exact ht
  · split_ifs
    · exact ht
    · split
      · exact ht
      · split_ifs
        · exact ht.markCIDRDirty _
        · exact ht

theorem settled_markAllNodeRoutesDirty (h : c.trie.Settled) (nodeName : String) :
    (c.markAllNodeRoutesDirty nodeName).trie.Settled :=
  List.foldlRecOn (motive := RouteTrie.Settled) _ _ h fun _ ht _ _ => ht.markCIDRDirty _

theorem settled_addTunnelRefs {trie : RouteTrie} (h : trie.Settled) (nodeName : String)
    (i : L3rrNodeInfo) : (addTunnelRefs nodeName i trie).Settled := by
  -- each tunnel address adds its ref through `updateCIDR`
  have step : ∀ (t : RouteTrie) (rt : RefType) (a : Option UInt32), t.Settled →
      (addTunnelRef nodeName rt t a).Settled := by
    intro t rt a ht
    cases a with
    | none => exact ht
    | some a => exact ht.updateCIDR _ _
  exact step _ _ _ (step _ _ _ (step _ _ _ h))

theorem settled_removeTunnelRefs {trie trie' : RouteTrie} (h : trie.Settled) {nodeName : String}
    {i : L3rrNodeInfo} (hr : removeTunnelRefs nodeName i trie = .ok trie') : trie'.Settled := by
  -- each tunnel address removes its ref through `updateCIDR`, or panics
  have step : ∀ (t t' : RouteTrie) (rt : RefType) (a : Option UInt32), t.Settled →
      removeTunnelRef nodeName rt t a = .ok t' → t'.Settled := by
    intro t t' rt a ht hr
    cases a with
    | none =>
      cases hr
      exact ht
    | some a => exact ht.removeRef hr
  unfold removeTunnelRefs at hr
  obtain ⟨t₁, h₁, hr⟩ := bind_eq_ok hr
  obtain ⟨t₂, h₂, hr⟩ := bind_eq_ok hr
  exact step _ _ _ _ (step _ _ _ _ (step _ _ _ _ h h₁) h₂) hr

theorem settled_replaceNodeInfo (h : c.trie.Settled) {nodeName : String}
    {oldNodeInfo newNodeInfo : Option L3rrNodeInfo}
    (hr : c.replaceNodeInfo nodeName oldNodeInfo newNodeInfo = .ok c') : c'.trie.Settled := by
  unfold replaceNodeInfo at hr
  obtain ⟨trie, htrie, hr⟩ := bind_eq_ok hr
  cases hr
  -- the tunnel refs: added, then removed
  have h₁ : ((newNodeInfo.map fun n => addTunnelRefs nodeName n c.trie).getD c.trie).Settled := by
    cases newNodeInfo with
    | none => exact h
    | some n => exact settled_addTunnelRefs h nodeName n
  have h₂ : trie.Settled := by
    cases oldNodeInfo with
    | none =>
      cases htrie
      exact h₁
    | some o => exact settled_removeTunnelRefs h₁ htrie
  -- the host entries: removed, then added
  have h₃ : ((oldNodeInfo.map fun o =>
      o.addresesV4AsCIDRs.foldl (fun (t : RouteTrie) a => t.removeHost a nodeName) trie).getD trie).Settled := by
    cases oldNodeInfo with
    | none => exact h₂
    | some o => exact List.foldlRecOn (motive := RouteTrie.Settled) _ _ h₂ fun t ht _ _ => ht.updateCIDR _ _
  refine settled_markAllNodeRoutesDirty ?_ nodeName
  cases newNodeInfo with
  | none => exact h₃
  | some n => exact List.foldlRecOn (motive := RouteTrie.Settled) _ _ h₃ fun t ht _ _ => ht.updateCIDR _ _

theorem settled_onNodeUpdate (h : c.trie.Settled) {nodeName : String}
    {newNodeInfo : Option L3rrNodeInfo} (hu : c.onNodeUpdate nodeName newNodeInfo = .ok c') :
    c'.trie.Settled := by
  unfold onNodeUpdate at hu
  dsimp only at hu
  split_ifs at hu
  · cases hu
    exact h
  · exact settled_replaceNodeInfo (settled_markSameSubnetDirty h _ _) hu
  · exact settled_replaceNodeInfo h hu

theorem removeNodeRoute_trie {nodeName : String} {dst : V4CIDR}
    (h : c.removeNodeRoute nodeName dst = .ok c') : c'.trie = c.trie := by
  unfold removeNodeRoute at h
  split at h
  · cases h
  · -- every way through that does not panic only changes the node routes
    dsimp only at h
    split_ifs at h <;> cases h <;> rfl

theorem settled_onWorkloadUpdate (h : c.trie.Settled) {key : WorkloadEndpointKey}
    {newCIDRs : List V4CIDR} (hu : c.onWorkloadUpdate key newCIDRs = .ok c') : c'.trie.Settled := by
  unfold onWorkloadUpdate at hu
  dsimp only at hu
  by_cases hsame : (c.workloadIDToCIDRs.lookup key).getD [] = newCIDRs
  · rw [if_pos hsame] at hu
    cases hu
    exact h
  · rw [if_neg hsame] at hu
    obtain ⟨c₂, h₂, hu⟩ := bind_eq_ok hu
    cases hu
    show c₂.trie.Settled
    -- the new CIDRs' refs are added, then the old ones' removed
    have h₁ := List.foldlRecOn (motive := fun c : L3RouteResolver => c.trie.Settled) newCIDRs
      (fun c cidr => addNodeRoute key.hostname cidr { c with trie := c.trie.addRef cidr key.hostname .wep })
      h fun c hc _ _ => hc.updateCIDR _ _
    refine foldlM_ok_induction (fun c : L3RouteResolver => c.trie.Settled) (fun c cidr c' hc hstep => ?_) h₁ h₂
    obtain ⟨trie, htrie, hstep⟩ := bind_eq_ok hstep
    rw [removeNodeRoute_trie hstep]
    exact hc.removeRef htrie

/-- What flushing one CIDR does to a settled trie: the CIDR's entry is erased or sent and
valid, every other entry stays, and nothing else becomes dirty. -/
theorem flushCIDR_spec (h : c.trie.Settled) (cidr : V4CIDR) :
    (c.flushCIDR cidr).1.trie.Settled ∧
      (∀ ri, (c.flushCIDR cidr).1.trie.t.lookup cidr = some ri →
        ri.wasSent = true ∧ ri.isValidRoute = true) ∧
      (∀ y, y ≠ cidr → (c.flushCIDR cidr).1.trie.t.lookup y = c.trie.t.lookup y) ∧
      (∀ x ∈ (c.flushCIDR cidr).1.trie.dirtyCIDRs, x ∈ c.trie.dirtyCIDRs ∨ x = cidr) := by
  unfold flushCIDR
  cases hl : c.trie.t.lookup cidr with
  | none => exact ⟨h, fun ri h' => by simp [hl] at h', fun _ _ => rfl, fun x hx => .inl hx⟩
  | some ri =>
    have hget : c.trie.get cidr = ri := by simp [RouteTrie.get, hl]
    have hnz := h.nonzero cidr ri hl
    -- either way the flush only sets whether the route was sent
    have common : ∀ sent, ({ c with trie := c.trie.setRouteSent cidr sent } : L3RouteResolver).trie.Settled ∧
        (∀ y, y ≠ cidr → (c.trie.setRouteSent cidr sent).t.lookup y = c.trie.t.lookup y) ∧
        (∀ x ∈ (c.trie.setRouteSent cidr sent).dirtyCIDRs, x ∈ c.trie.dirtyCIDRs ∨ x = cidr) :=
      fun sent => ⟨h.updateCIDR _ _, fun y hy => RouteTrie.updateCIDR_lookup_ne _ hy,
        fun x hx => RouteTrie.mem_dirtyCIDRs_updateCIDR _ hx⟩
    dsimp only
    split_ifs with hwd
    · -- withdrawn: the entry has nothing left to track and goes
      obtain ⟨hs, hy, hd⟩ := common false
      refine ⟨hs, fun ri' hri' => ?_, hy, hd⟩
      simp only [Bool.and_eq_true, Bool.not_eq_true'] at hwd
      rw [RouteTrie.setRouteSent, h.lookup_updateCIDR_self, hget] at hri'
      simp [RouteInfo.isZero, RouteInfo.isValidRoute_wasSent, hwd.2] at hri'
    · -- sent: the entry is marked sent, and its route is valid as it was not withdrawn
      obtain ⟨hs, hy, hd⟩ := common true
      refine ⟨hs, fun ri' hri' => ?_, hy, hd⟩
      rw [RouteTrie.setRouteSent, h.lookup_updateCIDR_self, hget] at hri'
      simp only [RouteInfo.isZero, Bool.not_true, Bool.false_and, Bool.false_eq_true, if_false,
        Option.some.injEq] at hri'
      subst hri'
      simp only [RouteInfo.isZero, Bool.and_eq_false_iff, Bool.not_eq_false'] at hnz
      simp only [Bool.and_eq_true, Bool.not_eq_true', not_and, Bool.not_eq_false] at hwd
      refine ⟨rfl, ?_⟩
      show ri.isValidRoute = true
      rcases hnz with hsent | hvalid
      · exact hwd hsent
      · exact hvalid

/-- The flush loop over a list of CIDRs: the trie stays settled, each CIDR of the list has its
entry erased or sent and valid, the others keep theirs, and only CIDRs of the list can become
dirty. -/
theorem flushLoop_spec (cidrs : List V4CIDR) : ∀ {c c' : L3RouteResolver} {cbs : List RouteCallback},
    c.trie.Settled → forEachPure (fun cidr c => c.flushCIDR cidr) cidrs c = (c', cbs) →
    c'.trie.Settled ∧
      (∀ x ∈ cidrs, ∀ ri, c'.trie.t.lookup x = some ri → ri.wasSent = true ∧ ri.isValidRoute = true) ∧
      (∀ y, y ∉ cidrs → c'.trie.t.lookup y = c.trie.t.lookup y) ∧
      (∀ x ∈ c'.trie.dirtyCIDRs, x ∈ c.trie.dirtyCIDRs ∨ x ∈ cidrs) := by
  induction cidrs with
  | nil =>
    intro c c' cbs h hrun
    cases hrun
    exact ⟨h, by simp, fun _ _ => rfl, fun x hx => .inl hx⟩
  | cons cidr cidrs ih =>
    intro c c' cbs h hrun
    obtain ⟨c₁, o₁, o₂, h₁, h₂, -⟩ := forEachPure_cons_eq hrun
    have h₁' : c.flushCIDR cidr = (c₁, o₁) := h₁
    obtain ⟨hs₁, hsent₁, hy₁, hd₁⟩ := flushCIDR_spec h cidr
    simp only [h₁'] at hs₁ hsent₁ hy₁ hd₁
    obtain ⟨hs, hsent, hy, hd⟩ := ih hs₁ h₂
    refine ⟨hs, fun x hx ri hri => ?_, fun y hy' => ?_, fun x hx => ?_⟩
    · -- a CIDR flushed again later is settled by that flush; otherwise by this one
      by_cases hxl : x ∈ cidrs
      · exact hsent x hxl ri hri
      · obtain rfl : x = cidr := by simpa [hxl] using hx
        rw [hy x hxl] at hri
        exact hsent₁ ri hri
    · simp only [List.mem_cons, not_or] at hy'
      rw [hy y hy'.2, hy₁ y hy'.1]
    · rcases hd x hx with h' | h'
      · rcases hd₁ x h' with h'' | rfl
        · exact .inl h''
        · exact .inr List.mem_cons_self
      · exact .inr (List.mem_cons_of_mem _ h')

/-- Nothing is dirty, and every entry has been sent and is a valid route: the state after a
flush. -/
def Flushed (c : L3RouteResolver) : Prop :=
  c.trie.dirtyCIDRs = ∅ ∧
    ∀ cidr ri, c.trie.t.lookup cidr = some ri → ri.wasSent = true ∧ ri.isValidRoute = true

theorem Flushed.settled (h : c.Flushed) : c.trie.Settled where
  nonzero cidr ri hl := by simp [RouteInfo.isZero, (h.2 cidr ri hl).1]
  sent cidr ri hl _ := h.2 cidr ri hl

/-- A flush of a settled trie leaves it flushed. -/
theorem flushed_flush (h : c.trie.Settled) {cbs : List RouteCallback} (hf : c.flush = (c', cbs)) :
    c'.Flushed := by
  rcases hrun : forEachPure (fun cidr c => c.flushCIDR cidr) c.trie.dirtyCIDRs.toList c with ⟨c₁, cbs₁⟩
  rw [flush, hrun] at hf
  cases hf
  obtain ⟨hs, hsent, -, hd⟩ := flushLoop_spec _ h hrun
  refine ⟨rfl, fun cidr ri hri => ?_⟩
  -- a CIDR that was dirty has been flushed; any other was clean and is still settled
  by_cases hx : cidr ∈ c.trie.dirtyCIDRs.toList
  · exact hsent cidr hx ri hri
  · have hnd : cidr ∉ c₁.trie.dirtyCIDRs := fun hc => by
      rcases hd cidr hc with h' | h' <;> exact hx h'
    exact hs.sent cidr ri hri hnd

theorem Flushed.apply (h : c.Flushed) {u : L3Update} {cbs : List RouteCallback}
    (hu : c.apply u = .ok (c', cbs)) : c'.Flushed := by
  cases u with
  | resourceUpdate nodeName node =>
    obtain ⟨c₁, h₁, hu⟩ := bind_eq_ok hu
    exact flushed_flush (settled_onNodeUpdate h.settled h₁) (Except.ok.inj hu)
  | hostIPUpdate nodeName ip =>
    obtain ⟨c₁, h₁, hu⟩ := bind_eq_ok hu
    exact flushed_flush (settled_onNodeUpdate h.settled h₁) (Except.ok.inj hu)
  | workloadUpdate key ipv4Nets =>
    obtain ⟨c₁, h₁, hu⟩ := bind_eq_ok hu
    exact flushed_flush (settled_onWorkloadUpdate h.settled h₁) (Except.ok.inj hu)

theorem Flushed.runFrom : ∀ {updates : List L3Update} {c c' : L3RouteResolver} {cbs : List RouteCallback},
    c.Flushed → c.runFrom updates = .ok (c', cbs) → c'.Flushed
  | [], _, _, _, h, hrun => by
    cases hrun
    exact h
  | _ :: _, _, _, _, h, hrun => by
    obtain ⟨c₁, o₁, c₂, o₂, h₁, h₂, hr⟩ := forEach_cons_eq_ok hrun
    cases hr
    exact (h.apply h₁).runFrom h₂

end L3RouteResolver

/-- A node with BGP address `10.0.0.1/24` and the given addresses. -/
def nodeWithAddresses (addresses : List (Option Addr)) : NodeResource :=
  { bgpIPv4Address := some (0x0a000001, ⟨0x0a000000, 24⟩), addresses := addresses }

/-- Node `n1` is first written with the address `10.0.0.1` twice, then with `10.0.0.1` and
`10.0.0.2`. -/
def dupThenNew : List L3Update :=
  [.resourceUpdate "n1" (some (nodeWithAddresses [some (.v4 0x0a000001), some (.v4 0x0a000001)])),
   .resourceUpdate "n1" (some (nodeWithAddresses [some (.v4 0x0a000001), some (.v4 0x0a000002)]))]

/-- The resolver that saw both updates holds `n1` as unchanged by the second, as its two old
addresses are in the new list, and has no route for `10.0.0.2`; a resolver that saw only the
second update, with the same node now in the datastore, has the host route to `n1`. -/
theorem routes_depend_on_address_history :
    ∃ c₁ cbs₁ c₂ cbs₂,
      (newL3RouteResolver "me").runFrom dupThenNew = .ok (c₁, cbs₁) ∧
      (newL3RouteResolver "me").runFrom (dupThenNew.drop 1) = .ok (c₂, cbs₂) ∧
      (routeTable cbs₁).lookup "10.0.0.2/32" = none ∧
      (routeTable cbs₂).lookup "10.0.0.2/32" =
        some { type := .remoteHost, ipPoolType := .none, dst := "10.0.0.2/32",
               dstNodeName := "n1", dstNodeIp := "10.0.0.1" } :=
  ⟨_, _, _, _, rfl, rfl, by decide, by decide⟩

end Felix.Calc
