import Felix.Calc.VXLANResolver
import Mathlib

/-!
# The VXLAN resolver keeps the dataplane's VTEPs exact

What the updates say of a node is its latest tunnel address, address and MAC (`NodeInfo`,
`nodeInfo`), and the VTEPs the dataplane should hold are those of the nodes that have both
addresses (`NodeInfo.vtep`). The resolver's maps hold that state for every node, and the
callbacks of each update take a client that applies them from the VTEPs of the old state to
those of the new (`apply_simulates`), so a client that starts empty holds the VTEPs of the
current node state after any run of updates (`run_vteps`).

A node resource whose address does not parse says nothing of the node: the resolver keeps the
address it had, and the node's VTEP stays (`run_keeps_unparsed_node`).

## Main results

* `apply_simulates`: one update changes the state of its own node only, and its callbacks
  move the client along
* `run_info`, `run_view`: the same for a run of updates
* `run_vteps`: the client's VTEPs after any run
-/

namespace Felix.Calc.Vxlan

/-! ## What the updates say of a node -/

/-- The latest tunnel address, address and MAC of a node; `none` where there is none. -/
structure NodeInfo where
  tunnelAddr : Option String
  ipv4 : Option String
  mac : Option String

namespace NodeInfo

/-- A node no update has named. -/
def unknown : NodeInfo := ⟨none, none, none⟩

/-- The VTEP of a node with both addresses: its MAC, or the default MAC of its name when it has
none or an empty one. -/
def vtep (defaultMAC : String → String) (n : String) (i : NodeInfo) : Option VTEP :=
  match i.tunnelAddr, i.ipv4 with
  | some t, some a =>
    some ⟨n, a, if i.mac.getD "" ≠ "" then i.mac.getD "" else defaultMAC n, t⟩
  | _, _ => none
attribute [grind] vtep

/-- The node `n` after an update. An update of another node says nothing of it. A node resource
gives the address if it has one that parses, removes it if the node has no BGP information, and
says nothing otherwise; a host IP gives or removes the address; host config gives or removes the
tunnel address or the MAC. -/
def apply (parseCIDROrIP : String → Option String) (n : String) (i : NodeInfo) :
    Update → NodeInfo
  | .nodeResource name value =>
    if name ≠ n then i
    else
      match value.bind Node.bgp with
      | some bgp =>
        match parseCIDROrIP bgp.ipv4Address with
        | some a => { i with ipv4 := some a }
        | none => i
      | none => { i with ipv4 := none }
  | .hostIP name value => if name ≠ n then i else { i with ipv4 := value }
  | .hostConfig name key value =>
    if name ≠ n then i
    else if key = "IPv4VXLANTunnelAddr" then { i with tunnelAddr := value }
    else if key = "VXLANTunnelMACAddr" then { i with mac := value }
    else i
attribute [grind] apply

/-- One of the two addresses replaced. -/
def setAddr (i : NodeInfo) : VXLANResolver.AddrField → Option String → NodeInfo
  | .tunnelAddr, v => { i with tunnelAddr := v }
  | .ipAddr, v => { i with ipv4 := v }

theorem vtep_isSome (defaultMAC : String → String) (n : String) (i : NodeInfo) :
    (i.vtep defaultMAC n).isSome = (i.tunnelAddr.isSome && i.ipv4.isSome) := by
  obtain ⟨t, a, m⟩ := i
  cases t <;> cases a <;> rfl

theorem node_of_vtep_eq_some {defaultMAC : String → String} {n : String} {i : NodeInfo}
    {v : VTEP} (h : i.vtep defaultMAC n = some v) : v.node = n := by
  obtain ⟨t, a, m⟩ := i
  cases t <;> cases a <;> simp_all [vtep]
  exact h ▸ rfl

@[simp]
theorem vtep_setAddr_none (defaultMAC : String → String) (n : String) (i : NodeInfo)
    (f : VXLANResolver.AddrField) : (i.setAddr f none).vtep defaultMAC n = none := by
  obtain ⟨t, a, m⟩ := i
  cases f <;> cases t <;> rfl

end NodeInfo

/-- The node of an update. -/
def Update.node : Update → String
  | .nodeResource name _ => name
  | .hostIP hostname _ => hostname
  | .hostConfig hostname _ _ => hostname
attribute [grind] Update.node

theorem NodeInfo.apply_of_ne (parseCIDROrIP : String → Option String) {n : String}
    (i : NodeInfo) {u : Update} (h : u.node ≠ n) : i.apply parseCIDROrIP n u = i := by
  cases u <;> simp_all [Update.node, NodeInfo.apply]

/-- What the updates `us` say of the node `n`. -/
def nodeInfo (parseCIDROrIP : String → Option String) (us : List Update) (n : String) :
    NodeInfo :=
  us.foldl (NodeInfo.apply parseCIDROrIP n) NodeInfo.unknown

/-! ## The VTEPs the resolver's maps stand for -/

namespace VXLANResolver

variable (defaultMAC : String → String) (c : VXLANResolver)

/-- What the resolver holds of the node `n`. -/
def info (n : String) : NodeInfo :=
  ⟨c.nodeNameToVXLANTunnelAddr n, c.nodeNameToIPAddr n, c.nodeNameToVXLANMac n⟩
attribute [grind] info

/-- The VTEPs the resolver's maps stand for. -/
def view (n : String) : Option VTEP := (c.info n).vtep defaultMAC n
attribute [grind] view

theorem view_isSome (n : String) : (c.view defaultMAC n).isSome = c.vtepSent n :=
  NodeInfo.vtep_isSome defaultMAC n (c.info n)

theorem view_eq_none_iff (n : String) : c.view defaultMAC n = none ↔ c.vtepSent n = false := by
  rw [← view_isSome]
  cases c.view defaultMAC n <;> simp

/-- `sendVTEPUpdate` sends exactly the VTEP the maps stand for. -/
theorem sendVTEPUpdate_eq (n : String) :
    c.sendVTEPUpdate defaultMAC n = (c.view defaultMAC n).toList.map .onVTEPUpdate := by
  unfold sendVTEPUpdate view info NodeInfo.vtep vtepMACForHost
  split <;> simp_all

theorem info_setAddr_update (f : AddrField) (n : String) (v : Option String) :
    (c.setAddr f (Function.update (c.addr f) n v)).info =
      Function.update c.info n ((c.info n).setAddr f v) := by
  funext m
  by_cases hm : m = n
  · subst hm
    cases f <;> simp [info, setAddr, addr, NodeInfo.setAddr]
  · cases f <;> simp [info, setAddr, addr, hm]

theorem setAddr_addr (f : AddrField) (n : String) :
    (c.info n).setAddr f (c.addr f n) = c.info n := by
  cases f <;> rfl

theorem addr_isSome_of_vtepSent (f : AddrField) {n : String} (h : c.vtepSent n = true) :
    (c.addr f n).isSome := by
  unfold vtepSent at h
  cases f <;> simp_all [addr]

variable {defaultMAC}

/-- The VTEPs of a state that differs from `c` only at `n`. -/
theorem view_of_info_eq_update {c c' : VXLANResolver} {n : String} {i : NodeInfo}
    (h : c'.info = Function.update c.info n i) :
    c'.view defaultMAC = Function.update (c.view defaultMAC) n (i.vtep defaultMAC n) := by
  funext m
  by_cases hm : m = n
  · subst hm
    simp [view, h]
  · simp [view, h, hm]

/-- Withdrawing a node's VTEP and sending it again takes the client to the new state. -/
theorem foldl_remove_send {c c' : VXLANResolver} {n : String} {i : NodeInfo}
    (h : c'.info = Function.update c.info n i) :
    (sendVTEPRemove n ++ c'.sendVTEPUpdate defaultMAC n).foldl applyVTEPEvent
      (c.view defaultMAC) = c'.view defaultMAC := by
  have hn : c'.view defaultMAC n = i.vtep defaultMAC n := by simp [view, h]
  rw [view_of_info_eq_update h, List.foldl_append, sendVTEPUpdate_eq, hn]
  cases hi : i.vtep defaultMAC n with
  | some v => simp [sendVTEPRemove, applyVTEPEvent, NodeInfo.node_of_vtep_eq_some hi]
  | none => simp [sendVTEPRemove, applyVTEPEvent]

/-- Sending a node's VTEP without withdrawing it takes the client to the new state, unless the
node had a VTEP and has none now. -/
theorem foldl_send {c c' : VXLANResolver} {n : String} {i : NodeInfo}
    (h : c'.info = Function.update c.info n i)
    (hs : c'.vtepSent n = false → c.vtepSent n = false) :
    (c'.sendVTEPUpdate defaultMAC n).foldl applyVTEPEvent (c.view defaultMAC) =
      c'.view defaultMAC := by
  have hn : c'.view defaultMAC n = i.vtep defaultMAC n := by simp [view, h]
  rw [view_of_info_eq_update h, sendVTEPUpdate_eq, hn]
  cases hi : i.vtep defaultMAC n with
  | some v => simp [applyVTEPEvent, NodeInfo.node_of_vtep_eq_some hi]
  | none =>
    -- no VTEP now, so none before either, and the client is left as it was
    have hc' : c'.vtepSent n = false := by
      rw [← view_eq_none_iff, hn, hi]
    have hc : c.view defaultMAC n = none := (view_eq_none_iff defaultMAC c n).mpr (hs hc')
    rw [Option.toList_none, List.map_nil, List.foldl_nil, ← hc, Function.update_eq_self]

/-- A state that differs from `c` only at `n`, where it stands for the same VTEP. -/
theorem view_eq_of_vtep_eq {c c' : VXLANResolver} {n : String} {i : NodeInfo}
    (h : c'.info = Function.update c.info n i) (hv : i.vtep defaultMAC n = c.view defaultMAC n) :
    c'.view defaultMAC = c.view defaultMAC := by
  rw [view_of_info_eq_update h, hv, Function.update_eq_self]

/-! ## Each handler moves the client along -/

variable (defaultMAC)

/-- What the result `r` of a handler on `c` does: it changes the state of the node `n` only, to
`i`, and its callbacks take a client from the VTEPs of `c` to those of `r.1`. -/
structure Simulates (r : VXLANResolver × List VTEPEvent) (n : String) (i : NodeInfo) : Prop where
  info_eq : r.1.info = Function.update c.info n i
  view_eq : r.2.foldl applyVTEPEvent (c.view defaultMAC) = r.1.view defaultMAC

theorem simulates_self (n : String) : Simulates defaultMAC c (c, []) n (c.info n) :=
  ⟨(Function.update_eq_self n c.info).symm, rfl⟩

theorem onAddrUpdate_simulates (f : AddrField) (n newIP : String) :
    Simulates defaultMAC c (c.onAddrUpdate defaultMAC f n newIP) n
      ((c.info n).setAddr f (some newIP)) := by
  have hinfo := info_setAddr_update c f n (some newIP)
  unfold onAddrUpdate
  dsimp only
  split_ifs with hsent hsame
  · -- a repeat of the address of the sent VTEP: nothing changes
    obtain ⟨a, ha⟩ := Option.isSome_iff_exists.mp (addr_isSome_of_vtepSent c f hsent)
    have hnew : a = newIP := by simpa [ha] using hsame
    subst hnew
    rw [← ha, setAddr_addr]
    exact simulates_self defaultMAC c n
  · exact ⟨hinfo, foldl_remove_send hinfo⟩
  · exact ⟨hinfo, foldl_send hinfo fun _ => by simpa using hsent⟩

theorem onAddrRemove_simulates (f : AddrField) (n : String) :
    Simulates defaultMAC c (c.onAddrRemove f n) n ((c.info n).setAddr f none) := by
  have hinfo := info_setAddr_update c f n none
  refine ⟨hinfo, ?_⟩
  -- the new state has no VTEP at `n`: withdrawing it is withdrawing it and sending nothing
  have hnone : (c.setAddr f (Function.update (c.addr f) n none)).view defaultMAC n = none := by
    simp [view, hinfo]
  show (sendVTEPRemove n).foldl applyVTEPEvent (c.view defaultMAC) =
    (c.setAddr f (Function.update (c.addr f) n none)).view defaultMAC
  rw [← foldl_remove_send hinfo, sendVTEPUpdate_eq, hnone, Option.toList_none, List.map_nil,
    List.append_nil]

theorem onTunnelMACUpdate_simulates (n : String) (value : Option String) :
    Simulates defaultMAC c (c.onTunnelMACUpdate defaultMAC n value) n
      { c.info n with mac := value } := by
  have hinfo : ∀ v, ({ c with nodeNameToVXLANMac := Function.update c.nodeNameToVXLANMac n v } :
      VXLANResolver).info = Function.update c.info n { c.info n with mac := v } := by
    intro v
    funext m
    by_cases hm : m = n
    · subst hm
      simp [info]
    · simp [info, hm]
  -- the MAC leaves both addresses, and so whether the VTEP is sent, as they were
  have hsent : ∀ v, ({ c with nodeNameToVXLANMac := Function.update c.nodeNameToVXLANMac n v } :
      VXLANResolver).vtepSent n = c.vtepSent n := fun _ => rfl
  unfold onTunnelMACUpdate
  cases value with
  | none => exact ⟨hinfo none, foldl_send (hinfo none) fun h => by rwa [hsent] at h⟩
  | some newMAC =>
    dsimp only
    split_ifs with hs hsame
    · -- the VTEP already has this MAC
      refine ⟨hinfo (some newMAC), (view_eq_of_vtep_eq (hinfo (some newMAC)) ?_).symm⟩
      have hcur : c.vtepMACForHost defaultMAC n = newMAC := by simpa using hsame
      unfold vtepMACForHost at hcur
      unfold view info NodeInfo.vtep
      by_cases hm : (c.nodeNameToVXLANMac n).getD "" = "" <;> simp_all
    · exact ⟨hinfo (some newMAC),
        foldl_send (hinfo (some newMAC)) fun h => by rwa [hsent] at h⟩
    · -- no VTEP before, and none now
      have hs' : c.vtepSent n = false := by simpa using hs
      have hc : c.view defaultMAC n = none := (view_eq_none_iff defaultMAC c n).mpr hs'
      have hc' := (view_eq_none_iff defaultMAC _ n).mpr ((hsent (some newMAC)).trans hs')
      refine ⟨hinfo (some newMAC), (view_eq_of_vtep_eq (hinfo (some newMAC)) ?_).symm⟩
      rw [hc]
      simpa [view, hinfo] using hc'

/-- One update: it changes the state of its own node only, as `NodeInfo.apply` says, and its
callbacks move the client along. -/
theorem apply_simulates (parseCIDROrIP : String → Option String) (u : Update) :
    Simulates defaultMAC c (c.apply defaultMAC parseCIDROrIP u) u.node
      ((c.info u.node).apply parseCIDROrIP u.node u) := by
  cases u with
  | nodeResource name value =>
    simp only [apply, onResourceUpdate, Update.node, NodeInfo.apply, ne_eq, not_true_eq_false,
      if_false]
    cases value.bind Node.bgp with
    | some bgp =>
      dsimp only
      cases parseCIDROrIP bgp.ipv4Address with
      | some a => exact onAddrUpdate_simulates defaultMAC c .ipAddr name a
      | none => exact simulates_self defaultMAC c name
    | none => exact onAddrRemove_simulates defaultMAC c .ipAddr name
  | hostIP name value =>
    simp only [apply, onHostIPUpdate, Update.node, NodeInfo.apply, ne_eq, not_true_eq_false,
      if_false]
    cases value with
    | some ip => exact onAddrUpdate_simulates defaultMAC c .ipAddr name ip
    | none => exact onAddrRemove_simulates defaultMAC c .ipAddr name
  | hostConfig name key value =>
    simp only [apply, onHostConfigUpdate, Update.node, NodeInfo.apply, ne_eq, not_true_eq_false,
      if_false]
    split_ifs
    · cases value with
      | some a => exact onAddrUpdate_simulates defaultMAC c .tunnelAddr name a
      | none => exact onAddrRemove_simulates defaultMAC c .tunnelAddr name
    · exact onTunnelMACUpdate_simulates defaultMAC c name value
    · exact simulates_self defaultMAC c name

theorem info_apply (parseCIDROrIP : String → Option String) (u : Update) (n : String) :
    (c.apply defaultMAC parseCIDROrIP u).1.info n = (c.info n).apply parseCIDROrIP n u := by
  rw [(apply_simulates defaultMAC c parseCIDROrIP u).info_eq]
  by_cases hn : n = u.node
  · subst hn
    simp
  · simp [hn, NodeInfo.apply_of_ne parseCIDROrIP _ (Ne.symm hn)]

/-! ## Runs of updates -/

variable (parseCIDROrIP : String → Option String)

theorem run_cons (u : Update) (us : List Update) :
    c.run defaultMAC parseCIDROrIP (u :: us) =
      (((c.apply defaultMAC parseCIDROrIP u).1.run defaultMAC parseCIDROrIP us).1,
        (c.apply defaultMAC parseCIDROrIP u).2 ++
          ((c.apply defaultMAC parseCIDROrIP u).1.run defaultMAC parseCIDROrIP us).2) :=
  rfl

/-- The resolver's maps after a run hold what the run says of every node. -/
theorem run_info (us : List Update) (n : String) :
    (c.run defaultMAC parseCIDROrIP us).1.info n =
      us.foldl (NodeInfo.apply parseCIDROrIP n) (c.info n) := by
  induction us generalizing c with
  | nil => rfl
  | cons u us ih => rw [run_cons, ih, info_apply, List.foldl_cons]

/-- The callbacks of a run take a client from the VTEPs of the first state to those of the
last. -/
theorem run_view (us : List Update) :
    (c.run defaultMAC parseCIDROrIP us).2.foldl applyVTEPEvent (c.view defaultMAC) =
      (c.run defaultMAC parseCIDROrIP us).1.view defaultMAC := by
  induction us generalizing c with
  | nil => rfl
  | cons u us ih =>
    rw [run_cons, List.foldl_append, (apply_simulates defaultMAC c parseCIDROrIP u).view_eq, ih]

end VXLANResolver

/-- A client that applies the resolver's callbacks to an empty map holds, after any run of
updates, the VTEP of every node that the run gives both addresses, and no other. -/
theorem run_vteps (defaultMAC : String → String) (parseCIDROrIP : String → Option String)
    (us : List Update) :
    (VXLANResolver.empty.run defaultMAC parseCIDROrIP us).2.foldl applyVTEPEvent (fun _ => none) =
      fun n => (nodeInfo parseCIDROrIP us n).vtep defaultMAC n := by
  have hempty : VXLANResolver.empty.view defaultMAC = fun _ => none := rfl
  rw [← hempty, VXLANResolver.run_view]
  funext n
  rw [VXLANResolver.view, VXLANResolver.run_info]
  rfl

/-- A node that moves: the client holds its VTEP at the new address. -/
theorem run_vteps_readdressed :
    (VXLANResolver.empty.run (fun _ => "m") some
      [.hostConfig "n" "IPv4VXLANTunnelAddr" (some "t"), .hostIP "n" (some "a"),
        .hostIP "n" (some "b")]).2.foldl applyVTEPEvent (fun _ => none) "n" =
      some ⟨"n", "b", "m", "t"⟩ := by
  rw [run_vteps]
  decide

/-- A node resource whose address does not parse leaves the node's VTEP in place. -/
theorem run_keeps_unparsed_node :
    (VXLANResolver.empty.run (fun _ => "m") (fun s => if s = "" then none else some s)
      [.hostConfig "n" "IPv4VXLANTunnelAddr" (some "t"),
        .nodeResource "n" (some ⟨some ⟨"10.0.0.1"⟩⟩),
        .nodeResource "n" (some ⟨some ⟨""⟩⟩)]).2.foldl applyVTEPEvent (fun _ => none) "n" =
      some ⟨"n", "10.0.0.1", "m", "t"⟩ := by
  decide

end Felix.Calc.Vxlan
