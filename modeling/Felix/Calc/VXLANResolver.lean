import Mathlib

/-!
# The VXLAN resolver

`VXLANResolver` (`calc/vxlan_resolver.go`) tells the dataplane the VXLAN tunnel endpoint (VTEP)
of every node: the node's own IPv4 address (its parent device address), its VXLAN tunnel
address and the MAC of its VXLAN device. It keeps the latest of each by node name and, on every
update, withdraws and resends the node's VTEP through the `OnVTEPUpdate` and `OnVTEPRemove`
callbacks when it has both addresses.

The node's address comes from `Node` resources, or from `HostIP` updates when the resolver is
not told about node resources; the tunnel address and the MAC come from host config. A node
resource whose BGP address does not parse is logged and dropped, so the node keeps the address
it had.

`ParseCIDROrIP` followed by `String()` is the parameter `parseCIDROrIP`, and the MAC the code
derives from the SHA-1 of the node name when none is configured is the parameter `defaultMAC`.

## Main definitions

* `VXLANResolver`, `VTEP`, `VTEPEvent`
* `onAddrUpdate`, `onAddrRemove` and their instances `onNodeIPUpdate`, `onRemoveNode` and
  `onTunnelAddrUpdate`; `onTunnelMACUpdate`
* `onResourceUpdate`, `onHostIPUpdate`, `onHostConfigUpdate`
* `VXLANResolver.apply`, `VXLANResolver.run`
-/

namespace Felix.Calc.Vxlan

/-- `proto.VXLANTunnelEndpointUpdate`. -/
structure VTEP where
  node : String
  parentDeviceIp : String
  mac : String
  ipv4Addr : String
  deriving DecidableEq

/-- A call of the resolver's callbacks. -/
inductive VTEPEvent where
  | onVTEPUpdate (vtep : VTEP)
  | onVTEPRemove (node : String)
  deriving DecidableEq

/-- The resolver's maps by node name; a missing entry is `none`. The node resources it stores
are read by nothing here. -/
structure VXLANResolver where
  nodeNameToVXLANTunnelAddr : String → Option String
  nodeNameToIPAddr : String → Option String
  nodeNameToVXLANMac : String → Option String

/-- `NewVXLANResolver`: every map empty. -/
def VXLANResolver.empty : VXLANResolver := ⟨fun _ => none, fun _ => none, fun _ => none⟩

/-- `Spec.BGP` of a `Node` resource. -/
structure NodeBGPSpec where
  ipv4Address : String

/-- A `Node` resource, as the resolver reads it. -/
structure Node where
  bgp : Option NodeBGPSpec

/-- The updates the resolver is registered for. -/
inductive Update where
  /-- a `Node` resource update; `none` is a deletion -/
  | nodeResource (name : String) (value : Option Node)
  /-- a `HostIP` update, with the address as its `String()`; `none` is a deletion -/
  | hostIP (hostname : String) (value : Option String)
  /-- a host config update, by name; `none` is a deletion -/
  | hostConfig (hostname name : String) (value : Option String)

namespace VXLANResolver

variable (defaultMAC : String → String) (c : VXLANResolver)

/-- `vtepSent`: both addresses of the node are known. -/
def vtepSent (node : String) : Bool :=
  (c.nodeNameToVXLANTunnelAddr node).isSome && (c.nodeNameToIPAddr node).isSome

/-- `vtepMACForHost`: the configured MAC, unless it is missing or empty. -/
def vtepMACForHost (nodename : String) : String :=
  let mac := (c.nodeNameToVXLANMac nodename).getD ""
  if mac ≠ "" then mac else defaultMAC nodename

/-- `sendVTEPUpdate`: the node's VTEP, when both its addresses are known. -/
def sendVTEPUpdate (node : String) : List VTEPEvent :=
  match c.nodeNameToVXLANTunnelAddr node, c.nodeNameToIPAddr node with
  | some tunlAddr, some parentDeviceIP =>
    [.onVTEPUpdate ⟨node, parentDeviceIP, c.vtepMACForHost defaultMAC node, tunlAddr⟩]
  | _, _ => []

/-- `sendVTEPRemove`. -/
def sendVTEPRemove (node : String) : List VTEPEvent := [.onVTEPRemove node]

/-- The two addresses a VTEP needs: the tunnel address and the node's own. -/
inductive AddrField where
  | tunnelAddr
  | ipAddr
  deriving DecidableEq

/-- The map of one of the addresses. -/
def addr : AddrField → String → Option String
  | .tunnelAddr => c.nodeNameToVXLANTunnelAddr
  | .ipAddr => c.nodeNameToIPAddr
attribute [grind] addr

/-- The resolver with the map of one of the addresses replaced. -/
def setAddr : AddrField → (String → Option String) → VXLANResolver
  | .tunnelAddr, m => { c with nodeNameToVXLANTunnelAddr := m }
  | .ipAddr, m => { c with nodeNameToIPAddr := m }

/-- What `onNodeIPUpdate` and the `IPv4VXLANTunnelAddr` case of `OnHostConfigUpdate` do with a
new address: one the sent VTEP already has is skipped, as they compare before they store; any
other withdraws the sent VTEP, is stored, and the VTEP is sent again if it can be. -/
def onAddrUpdate (f : AddrField) (nodeName newIP : String) : VXLANResolver × List VTEPEvent :=
  let currIP := (c.addr f nodeName).getD ""
  let c' := c.setAddr f (Function.update (c.addr f) nodeName (some newIP))
  if c.vtepSent nodeName then
    if currIP == newIP then (c, [])
    else (c', sendVTEPRemove nodeName ++ c'.sendVTEPUpdate defaultMAC nodeName)
  else (c', c'.sendVTEPUpdate defaultMAC nodeName)

/-- What `onRemoveNode` and a deleted tunnel address do: the address is forgotten and the VTEP
withdrawn. -/
def onAddrRemove (f : AddrField) (nodeName : String) : VXLANResolver × List VTEPEvent :=
  (c.setAddr f (Function.update (c.addr f) nodeName none), sendVTEPRemove nodeName)

/-- `onNodeIPUpdate`. -/
def onNodeIPUpdate (nodeName newIP : String) : VXLANResolver × List VTEPEvent :=
  c.onAddrUpdate defaultMAC .ipAddr nodeName newIP

/-- `onRemoveNode`. -/
def onRemoveNode (nodeName : String) : VXLANResolver × List VTEPEvent :=
  c.onAddrRemove .ipAddr nodeName

/-- `OnResourceUpdate` for a `Node`: a node with BGP information gives its address, unless it
does not parse, when the update is dropped; a node without, or a deletion, removes the node. -/
def onResourceUpdate (parseCIDROrIP : String → Option String) (nodeName : String)
    (value : Option Node) : VXLANResolver × List VTEPEvent :=
  match value.bind Node.bgp with
  | some bgp =>
    match parseCIDROrIP bgp.ipv4Address with
    | some ipv4 => c.onNodeIPUpdate defaultMAC nodeName ipv4
    | none => (c, [])
  | none => c.onRemoveNode nodeName

/-- `OnHostIPUpdate`. -/
def onHostIPUpdate (nodeName : String) (value : Option String) : VXLANResolver × List VTEPEvent :=
  match value with
  | some ip => c.onNodeIPUpdate defaultMAC nodeName ip
  | none => c.onRemoveNode nodeName

/-- The `IPv4VXLANTunnelAddr` case of `OnHostConfigUpdate`. -/
def onTunnelAddrUpdate (nodeName : String) (value : Option String) :
    VXLANResolver × List VTEPEvent :=
  match value with
  | some newIP => c.onAddrUpdate defaultMAC .tunnelAddr nodeName newIP
  | none => c.onAddrRemove .tunnelAddr nodeName

/-- The `VXLANTunnelMACAddr` case of `OnHostConfigUpdate`: it stores the new MAC before it
compares it with the one the sent VTEP has, and a deleted MAC resends the VTEP with the default
MAC. -/
def onTunnelMACUpdate (nodeName : String) (value : Option String) :
    VXLANResolver × List VTEPEvent :=
  match value with
  | some newMAC =>
    let currMAC := c.vtepMACForHost defaultMAC nodeName
    let c' := { c with
      nodeNameToVXLANMac := Function.update c.nodeNameToVXLANMac nodeName (some newMAC) }
    if c.vtepSent nodeName then
      if currMAC == newMAC then (c', []) else (c', c'.sendVTEPUpdate defaultMAC nodeName)
    else (c', [])
  | none =>
    let c' := { c with
      nodeNameToVXLANMac := Function.update c.nodeNameToVXLANMac nodeName none }
    (c', c'.sendVTEPUpdate defaultMAC nodeName)

/-- `OnHostConfigUpdate`: the tunnel address and the tunnel MAC; other names are ignored. -/
def onHostConfigUpdate (nodeName name : String) (value : Option String) :
    VXLANResolver × List VTEPEvent :=
  if name = "IPv4VXLANTunnelAddr" then c.onTunnelAddrUpdate defaultMAC nodeName value
  else if name = "VXLANTunnelMACAddr" then c.onTunnelMACUpdate defaultMAC nodeName value
  else (c, [])

/-- One update, as the dispatcher hands it to the resolver. -/
def apply (parseCIDROrIP : String → Option String) : Update → VXLANResolver × List VTEPEvent
  | .nodeResource name value => c.onResourceUpdate defaultMAC parseCIDROrIP name value
  | .hostIP hostname value => c.onHostIPUpdate defaultMAC hostname value
  | .hostConfig hostname name value => c.onHostConfigUpdate defaultMAC hostname name value

/-- A run of updates: the resolver after them and the callbacks it made, in order. -/
def run (parseCIDROrIP : String → Option String) :
    VXLANResolver → List Update → VXLANResolver × List VTEPEvent
  | c, [] => (c, [])
  | c, u :: us =>
    let (c₁, evs₁) := c.apply defaultMAC parseCIDROrIP u
    let (c₂, evs₂) := run parseCIDROrIP c₁ us
    (c₂, evs₁ ++ evs₂)

end VXLANResolver

/-- The dataplane's VTEPs by node after a callback: an update inserts or overwrites, a remove
deletes. -/
def applyVTEPEvent (m : String → Option VTEP) : VTEPEvent → String → Option VTEP
  | .onVTEPUpdate vtep => Function.update m vtep.node (some vtep)
  | .onVTEPRemove node => Function.update m node none
attribute [grind] applyVTEPEvent

end Felix.Calc.Vxlan
