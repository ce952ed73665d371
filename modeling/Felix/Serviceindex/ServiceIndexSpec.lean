import Felix.Serviceindex.ServiceIndex

/-!
# What the service index should count

The slices current after a run of calls are the last update of each namespace and name that no
deletion followed (`currentSlices`), and an active IP set of a service should count each member
once for every occurrence in the members of the current slices of that service
(`expectedCount`).

`UpdateEndpointSlice` takes the old contribution of a slice from the slice cached under the same
namespace and name, but decrefs it in the IP set of the new slice's service. When the slice's
service-name label changes, the IP set of the old service keeps counting the old members, the
IP set of the new service decrefs members it never counted, and a `uint64` count of zero wraps
to `2^64 - 1` instead of being deleted (`relabel_miscounts`).

## Main definitions

* `currentSlices`, `expectedCount`
-/

namespace Felix.Serviceindex

open Replication
open Felix.LabelIndex (IPSetMember protocolTCP Labels)

namespace ServiceIndex

variable {CIDR : Type} [DecidableEq CIDR] (parseCIDROrIP : String → Option CIDR)

/-- The slices current after the calls `ops`: the last update of each namespace and name that
no deletion followed. -/
def currentSlices (ops : List Op) : AList (fun _ : String => EndpointSlice) :=
  ops.foldl (fun cur op =>
    match op with
    | .updateEndpointSlice es => cur.insert (sliceKey es.«namespace» es.name) es
    | .deleteEndpointSlice «namespace» name => cur.erase (sliceKey «namespace» name)
    | .updateIPSet _ _ | .deleteIPSet _ => cur) ∅

/-- The occurrences of `m` that the IP set of the service `svc` should count after `ops`: its
occurrences in the members of every current slice of that service. -/
def expectedCount (ops : List Op) (svc : String) (m : IPSetMember CIDR) : ℕ :=
  (((currentSlices ops).entries.filter fun e => serviceName e.2 = svc).map fun e =>
    (membersFromEndpointSlice parseCIDROrIP (some e.2)).count m).sum

/-! ## A slice that changes service -/

/-- The slice `ns/e` with one endpoint at `addr`, port 80, labelled as a slice of the service
`svc`. -/
def demoSlice (svc addr : String) : EndpointSlice :=
  ⟨"ns", "e", (∅ : Labels).insert "kubernetes.io/service-name" svc, [⟨[addr]⟩],
    [⟨some 80, none⟩]⟩

/-- The IP sets `s1` of `ns/a` and `s2` of `ns/b`, and the slice `ns/e` updated from service `a`
at 10.0.0.1 to service `b` at 10.0.0.2. -/
def relabelDemo : List Op :=
  [.updateIPSet "s1" "ns/a", .updateIPSet "s2" "ns/b",
    .updateEndpointSlice (demoSlice "a" "10.0.0.1"),
    .updateEndpointSlice (demoSlice "b" "10.0.0.2")]

/-- A member of the demo: an address on TCP port 80. -/
def demoMember (addr : String) : IPSetMember String := ⟨addr, protocolTCP, 80⟩

/-- After the relabelling no current slice belongs to `ns/a` and 10.0.0.1 occurs in no current
slice, yet `s1` still counts 10.0.0.1 once, and `s2` counts it `2^64 - 1` times: its decref
wrapped. The callbacks added 10.0.0.1 to `s1` and 10.0.0.2 to `s2`, and never removed
10.0.0.1 from `s1`. -/
theorem relabel_miscounts :
    ∃ idx o, ServiceIndex.runFrom some relabelDemo new = .ok (idx, o) ∧
      expectedCount some relabelDemo "ns/a" (demoMember "10.0.0.1") = 0 ∧
      expectedCount some relabelDemo "ns/b" (demoMember "10.0.0.1") = 0 ∧
      (idx.activeIPSetsByID.lookup "s1").map (·.refCount (demoMember "10.0.0.1")) = some 1 ∧
      (idx.activeIPSetsByID.lookup "s2").map (·.refCount (demoMember "10.0.0.1")) =
        some 18446744073709551615 ∧
      o = [.started ("s1", demoMember "10.0.0.1"), .started ("s2", demoMember "10.0.0.2")] :=
  ⟨_, _, rfl, by decide +kernel, by decide +kernel, by decide +kernel, by decide +kernel,
    by decide +kernel⟩

end ServiceIndex

end Felix.Serviceindex
