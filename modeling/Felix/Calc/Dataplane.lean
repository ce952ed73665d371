import Felix.Calc.EventSequencer
import Mathlib

/-!
# What the sequencer's messages mean downstream

A dataplane holds the active IP sets with their types and members, the active policies and
profiles, and the endpoints with their tiers. The same record, `Dataplane`, describes the
state that the calculation graph's calls on the sequencer imply upstream.

Downstream, `Dataplane.apply` reads a message as `MockDataplane.OnEvent`
(`dataplane/mock/mock_dataplane.go`) does: an `IPSetUpdate` replaces a set, an
`IPSetDeltaUpdate` adds its members and then removes its removed members, an update of a
policy, profile or endpoint overwrites it and a removal deletes it. `Dataplane.take` is the
same reading with the checks a consumer makes: those of the mock dataplane on IP set deltas
(the set exists, each added member is absent, each removed member present) and IP set
removals (the set exists), and a removal of a policy, profile or endpoint must name one the
dataplane holds.

Upstream, `upstreamStep` is the state change a call describes, and `Allowed` the
calculation graph's side of the protocol: a set is added only when it is not active and
removed only when it is, and a member is added only when absent from an active set and
removed only when present.

`Closed` says that a state is referentially closed: active policies and profiles name only
active IP sets, and endpoints name only active policies and profiles. Which IDs a payload
names is a parameter.
-/

namespace Felix.Calc

variable (P : Payloads)

/-- The active IP sets, policies, profiles and endpoints, held downstream or implied
upstream. -/
@[ext]
structure Dataplane where
  ipSets : P.SetID → Option (P.SetType × Finset P.Member)
  policies : P.PolicyKey → Option P.Rules
  profiles : P.ProfileKey → Option P.Rules
  endpoints : P.EndpointKey → Option (P.Endpoint × P.Tiers)

namespace Dataplane

variable {P}

/-- Nothing active. -/
def empty : Dataplane P := ⟨fun _ => none, fun _ => none, fun _ => none, fun _ => none⟩

/-- A message read as `MockDataplane.OnEvent` reads it, without its checks. -/
def apply (d : Dataplane P) : Message P → Dataplane P
  | .ipSetUpdate id members type =>
    { d with ipSets := Function.update d.ipSets id (some (type, members.toFinset)) }
  | .ipSetDeltaUpdate id added removed =>
    { d with
      ipSets := Function.update d.ipSets id
        ((d.ipSets id).map fun e => (e.1, (e.2 ∪ added.toFinset) \ removed.toFinset)) }
  | .ipSetRemove id => { d with ipSets := Function.update d.ipSets id none }
  | .activePolicyUpdate id pol => { d with policies := Function.update d.policies id (some pol) }
  | .activePolicyRemove id => { d with policies := Function.update d.policies id none }
  | .activeProfileUpdate id prof =>
    { d with profiles := Function.update d.profiles id (some prof) }
  | .activeProfileRemove id => { d with profiles := Function.update d.profiles id none }
  | .endpointUpdate id ep tiers =>
    { d with endpoints := Function.update d.endpoints id (some (ep, tiers)) }
  | .endpointRemove id => { d with endpoints := Function.update d.endpoints id none }
attribute [grind] apply

/-- Add members one at a time, refusing one already present. -/
def addMembers (ms : Finset P.Member) : List P.Member → Option (Finset P.Member)
  | [] => some ms
  | m :: rest => if m ∈ ms then none else addMembers (insert m ms) rest
attribute [grind] addMembers

/-- Remove members one at a time, refusing one not present. -/
def removeMembers (ms : Finset P.Member) : List P.Member → Option (Finset P.Member)
  | [] => some ms
  | m :: rest => if m ∈ ms then removeMembers (ms.erase m) rest else none
attribute [grind] removeMembers

/-- Adding distinct members, none of them present, succeeds with their union. -/
theorem addMembers_eq {ms : Finset P.Member} {l : List P.Member} (hl : l.Nodup)
    (habsent : ∀ m ∈ l, m ∉ ms) : addMembers ms l = some (ms ∪ l.toFinset) := by
  induction l generalizing ms with
  | nil => simp [addMembers]
  | cons m l ih =>
    obtain ⟨hm, hl⟩ := List.nodup_cons.mp hl
    have hms : m ∉ ms := habsent m List.mem_cons_self
    -- the rest are absent from `ms` and distinct from `m`
    have habsent' : ∀ m' ∈ l, m' ∉ insert m ms := by
      intro m' hm'
      rw [Finset.mem_insert, not_or]
      exact ⟨fun h => hm (h ▸ hm'), habsent m' (List.mem_cons_of_mem m hm')⟩
    rw [addMembers, if_neg hms, ih hl habsent']
    congr 1
    ext x
    simp only [Finset.mem_union, Finset.mem_insert, List.mem_toFinset, List.mem_cons]
    tauto

/-- Removing distinct members, all of them present, succeeds with the difference. -/
theorem removeMembers_eq {ms : Finset P.Member} {l : List P.Member} (hl : l.Nodup)
    (hpresent : ∀ m ∈ l, m ∈ ms) : removeMembers ms l = some (ms \ l.toFinset) := by
  induction l generalizing ms with
  | nil => simp [removeMembers]
  | cons m l ih =>
    obtain ⟨hm, hl⟩ := List.nodup_cons.mp hl
    have hms : m ∈ ms := hpresent m List.mem_cons_self
    have hpresent' : ∀ m' ∈ l, m' ∈ ms.erase m := by
      intro m' hm'
      exact Finset.mem_erase.mpr ⟨fun h => hm (h ▸ hm'), hpresent m' (List.mem_cons_of_mem m hm')⟩
    rw [removeMembers, if_pos hms, ih hl hpresent']
    congr 1
    ext x
    simp only [Finset.mem_sdiff, Finset.mem_erase, List.mem_toFinset, List.mem_cons]
    tauto

/-- A message taken with a consumer's checks; `none` is a failed check. -/
def take (d : Dataplane P) : Message P → Option (Dataplane P)
  | .ipSetDeltaUpdate id added removed =>
    match d.ipSets id with
    | none => none
    | some (t, ms) =>
      (addMembers ms added).bind fun ms' =>
        (removeMembers ms' removed).map fun ms'' =>
          { d with ipSets := Function.update d.ipSets id (some (t, ms'')) }
  | .ipSetRemove id => if (d.ipSets id).isSome then some (d.apply (.ipSetRemove id)) else none
  | .activePolicyRemove id =>
    if (d.policies id).isSome then some (d.apply (.activePolicyRemove id)) else none
  | .activeProfileRemove id =>
    if (d.profiles id).isSome then some (d.apply (.activeProfileRemove id)) else none
  | .endpointRemove id =>
    if (d.endpoints id).isSome then some (d.apply (.endpointRemove id)) else none
  | m => some (d.apply m)
attribute [grind] take

/-- A delta to a held set, adding distinct absent members and removing distinct present
ones, is taken. -/
theorem take_ipSetDeltaUpdate {d : Dataplane P} {s : P.SetID} {t : P.SetType}
    {ms : Finset P.Member} (hs : d.ipSets s = some (t, ms)) {added removed : List P.Member}
    (ha : added.Nodup) (hr : removed.Nodup) (habsent : ∀ m ∈ added, m ∉ ms)
    (hpresent : ∀ m ∈ removed, m ∈ ms ∪ added.toFinset) :
    d.take (.ipSetDeltaUpdate s added removed) =
      some { d with
        ipSets := Function.update d.ipSets s (some (t, (ms ∪ added.toFinset) \ removed.toFinset)) } := by
  simp only [take, hs, addMembers_eq ha habsent, Option.bind_some, removeMembers_eq hr hpresent,
    Option.map_some]

/-- When adding members succeeds, the result is the union. -/
theorem addMembers_eq_some {ms ms' : Finset P.Member} {l : List P.Member}
    (h : addMembers ms l = some ms') : ms' = ms ∪ l.toFinset := by
  induction l generalizing ms with
  | nil => simpa [addMembers, eq_comm] using h
  | cons m l ih =>
    simp only [addMembers] at h
    split at h
    · cases h
    · rw [ih h]
      ext x
      simp only [Finset.mem_union, Finset.mem_insert, List.mem_toFinset, List.mem_cons]
      tauto

/-- When removing members succeeds, the result is the difference. -/
theorem removeMembers_eq_some {ms ms' : Finset P.Member} {l : List P.Member}
    (h : removeMembers ms l = some ms') : ms' = ms \ l.toFinset := by
  induction l generalizing ms with
  | nil => simpa [removeMembers, eq_comm] using h
  | cons m l ih =>
    simp only [removeMembers] at h
    split at h
    · rw [ih h]
      ext x
      simp only [Finset.mem_sdiff, Finset.mem_erase, List.mem_toFinset, List.mem_cons]
      tauto
    · cases h

/-- A message the consumer takes, it reads as `apply` does: the checks only refuse. -/
theorem take_eq_some {d d' : Dataplane P} {m : Message P} (h : d.take m = some d') :
    d' = d.apply m := by
  cases m with
  | ipSetDeltaUpdate id added removed =>
    simp only [take] at h
    split at h
    · cases h
    rename_i t ms hs
    obtain ⟨ms', hadd, h⟩ := Option.bind_eq_some_iff.mp h
    obtain ⟨ms'', hrem, rfl⟩ := Option.map_eq_some_iff.mp h
    rw [removeMembers_eq_some hrem, addMembers_eq_some hadd]
    simp [apply, hs]
  | ipSetRemove id =>
    simp only [take] at h
    split at h <;> first | exact (Option.some.inj h).symm | cases h
  | activePolicyRemove id =>
    simp only [take] at h
    split at h <;> first | exact (Option.some.inj h).symm | cases h
  | activeProfileRemove id =>
    simp only [take] at h
    split at h <;> first | exact (Option.some.inj h).symm | cases h
  | endpointRemove id =>
    simp only [take] at h
    split at h <;> first | exact (Option.some.inj h).symm | cases h
  | _ => exact (Option.some.inj h).symm

/-- A sequence of messages taken in order; `none` if any check fails. -/
def takeAll (d : Dataplane P) (ms : List (Message P)) : Option (Dataplane P) :=
  ms.foldlM take d

/-- The state change a call describes upstream. -/
def upstreamStep (d : Dataplane P) : Call P → Dataplane P
  | .ipSetAdded s t => { d with ipSets := Function.update d.ipSets s (some (t, ∅)) }
  | .ipSetRemoved s => { d with ipSets := Function.update d.ipSets s none }
  | .ipSetMemberAdded s m =>
    { d with ipSets := Function.update d.ipSets s ((d.ipSets s).map fun e => (e.1, insert m e.2)) }
  | .ipSetMemberRemoved s m =>
    { d with ipSets := Function.update d.ipSets s ((d.ipSets s).map fun e => (e.1, e.2.erase m)) }
  | .policyActive k r => { d with policies := Function.update d.policies k (some r) }
  | .policyInactive k => { d with policies := Function.update d.policies k none }
  | .profileActive k r => { d with profiles := Function.update d.profiles k (some r) }
  | .profileInactive k => { d with profiles := Function.update d.profiles k none }
  | .endpointTierUpdate k none _ => { d with endpoints := Function.update d.endpoints k none }
  | .endpointTierUpdate k (some ep) tiers =>
    { d with endpoints := Function.update d.endpoints k (some (ep, tiers)) }
  | .flush => d
attribute [grind] upstreamStep

/-- The calculation graph's side of the IP set protocol, in the state `d`. -/
def Allowed (d : Dataplane P) : Call P → Prop
  | .ipSetAdded s _ => d.ipSets s = none
  | .ipSetRemoved s => (d.ipSets s).isSome
  | .ipSetMemberAdded s m => ∃ t ms, d.ipSets s = some (t, ms) ∧ m ∉ ms
  | .ipSetMemberRemoved s m => ∃ t ms, d.ipSets s = some (t, ms) ∧ m ∈ ms
  | _ => True
attribute [grind] Allowed

end Dataplane

open Felix.Calc.Dataplane

variable {P}

/-- The state the calls `calls` describe, from nothing active. -/
def upstream (calls : List (Call P)) : Dataplane P := calls.foldl upstreamStep empty

/-- Every call keeps to the protocol in the state the calls before it describe. -/
def FollowsProtocol : Dataplane P → List (Call P) → Prop
  | _, [] => True
  | d, c :: cs => Allowed d c ∧ FollowsProtocol (upstreamStep d c) cs

/-- A referentially closed state: each active policy and profile names only active IP sets
(by `ipSetsOf`), and each endpoint names only active policies (by its tiers) and active
profiles. -/
structure Closed (ipSetsOf : P.Rules → List P.SetID) (policiesOf : P.Tiers → List P.PolicyKey)
    (profilesOf : P.Endpoint → List P.ProfileKey) (d : Dataplane P) : Prop where
  policies : ∀ k r, d.policies k = some r → ∀ s ∈ ipSetsOf r, (d.ipSets s).isSome
  profiles : ∀ k r, d.profiles k = some r → ∀ s ∈ ipSetsOf r, (d.ipSets s).isSome
  endpointPolicies : ∀ k e, d.endpoints k = some e → ∀ p ∈ policiesOf e.2, (d.policies p).isSome
  endpointProfiles : ∀ k e, d.endpoints k = some e → ∀ p ∈ profilesOf e.1, (d.profiles p).isSome

section Closure

variable (ipSetsOf : P.Rules → List P.SetID) (policiesOf : P.Tiers → List P.PolicyKey)
  (profilesOf : P.Endpoint → List P.ProfileKey)

theorem closed_empty : Closed ipSetsOf policiesOf profilesOf (Dataplane.empty : Dataplane P) :=
  ⟨fun _ _ h => by simp [empty] at h, fun _ _ h => by simp [empty] at h,
    fun _ _ h => by simp [empty] at h, fun _ _ h => by simp [empty] at h⟩

/-- When taking `m` keeps `d` referentially closed: an update names only what `d` holds, and
a removal takes away nothing that `d` still names. These are the referential checks of
`MockDataplane.OnEvent`, with the IP sets that rules name added. -/
def SafeFor (d : Dataplane P) : Message P → Prop
  | .ipSetRemove s =>
    (∀ k r, d.policies k = some r → s ∉ ipSetsOf r) ∧ ∀ k r, d.profiles k = some r → s ∉ ipSetsOf r
  | .activePolicyUpdate _ r => ∀ s ∈ ipSetsOf r, (d.ipSets s).isSome
  | .activeProfileUpdate _ r => ∀ s ∈ ipSetsOf r, (d.ipSets s).isSome
  | .activePolicyRemove k => ∀ k' e, d.endpoints k' = some e → k ∉ policiesOf e.2
  | .activeProfileRemove k => ∀ k' e, d.endpoints k' = some e → k ∉ profilesOf e.1
  | .endpointUpdate _ ep tiers =>
    (∀ p ∈ policiesOf tiers, (d.policies p).isSome) ∧ ∀ p ∈ profilesOf ep, (d.profiles p).isSome
  | _ => True

variable {ipSetsOf policiesOf profilesOf}

/-- **One message keeps closure** when it is safe for the state it is taken in. -/
theorem Closed.apply {d : Dataplane P} (h : Closed ipSetsOf policiesOf profilesOf d)
    {m : Message P} (hm : SafeFor ipSetsOf policiesOf profilesOf d m) :
    Closed ipSetsOf policiesOf profilesOf (d.apply m) := by
  cases m with
  | ipSetUpdate s members type =>
    -- every set held before is held after
    have hset : ∀ s', (d.ipSets s').isSome →
        ((d.apply (.ipSetUpdate s members type)).ipSets s').isSome := by
      intro s' hs'
      by_cases hs : s' = s
      · simp [Dataplane.apply, hs]
      · simpa [Dataplane.apply, Function.update_of_ne hs] using hs'
    exact ⟨fun k r hr s' hs' => hset s' (h.policies k r hr s' hs'),
      fun k r hr s' hs' => hset s' (h.profiles k r hr s' hs'), h.endpointPolicies,
      h.endpointProfiles⟩
  | ipSetDeltaUpdate s added removed =>
    -- a delta changes members, not which sets are held
    have hset : ∀ s', ((d.apply (.ipSetDeltaUpdate s added removed)).ipSets s').isSome =
        (d.ipSets s').isSome := by
      intro s'
      by_cases hs : s' = s
      · simp [Dataplane.apply, hs]
      · simp [Dataplane.apply, Function.update_of_ne hs]
    exact ⟨fun k r hr s' hs' => (hset s').symm ▸ h.policies k r hr s' hs',
      fun k r hr s' hs' => (hset s').symm ▸ h.profiles k r hr s' hs', h.endpointPolicies,
      h.endpointProfiles⟩
  | ipSetRemove s =>
    obtain ⟨hpol, hprof⟩ := hm
    -- a set that a held policy or profile names is not the one removed
    have hset : ∀ s', s' ≠ s → ((d.apply (.ipSetRemove s)).ipSets s') = d.ipSets s' :=
      fun s' hs => by simp [Dataplane.apply, Function.update_of_ne hs]
    refine ⟨fun k r hr s' hs' => ?_, fun k r hr s' hs' => ?_, h.endpointPolicies,
      h.endpointProfiles⟩
    · have hne : s' ≠ s := fun hs => hpol k r hr (hs ▸ hs')
      rw [hset s' hne]
      exact h.policies k r hr s' hs'
    · have hne : s' ≠ s := fun hs => hprof k r hr (hs ▸ hs')
      rw [hset s' hne]
      exact h.profiles k r hr s' hs'
  | activePolicyUpdate k r =>
    refine ⟨fun k' r' hr s' hs' => ?_, h.profiles, fun k' e he p hp => ?_, h.endpointProfiles⟩
    · by_cases hk : k' = k
      · -- the new policy names only held sets
        subst hk
        obtain rfl : r = r' := by simpa [Dataplane.apply] using hr
        exact hm s' hs'
      · exact h.policies k' r' (by simpa [Dataplane.apply, Function.update_of_ne hk] using hr) s' hs'
    · by_cases hp' : p = k
      · simp [Dataplane.apply, hp']
      · simpa [Dataplane.apply, Function.update_of_ne hp'] using h.endpointPolicies k' e he p hp
  | activePolicyRemove k =>
    refine ⟨fun k' r' hr s' hs' => ?_, h.profiles, fun k' e he p hp => ?_, h.endpointProfiles⟩
    · by_cases hk : k' = k
      · simp [Dataplane.apply, hk] at hr
      · exact h.policies k' r' (by simpa [Dataplane.apply, Function.update_of_ne hk] using hr) s' hs'
    · -- no held endpoint names the removed policy
      have hne : p ≠ k := fun hpk => hm k' e he (hpk ▸ hp)
      simpa [Dataplane.apply, Function.update_of_ne hne] using h.endpointPolicies k' e he p hp
  | activeProfileUpdate k r =>
    refine ⟨h.policies, fun k' r' hr s' hs' => ?_, h.endpointPolicies, fun k' e he p hp => ?_⟩
    · by_cases hk : k' = k
      · subst hk
        obtain rfl : r = r' := by simpa [Dataplane.apply] using hr
        exact hm s' hs'
      · exact h.profiles k' r' (by simpa [Dataplane.apply, Function.update_of_ne hk] using hr) s' hs'
    · by_cases hp' : p = k
      · simp [Dataplane.apply, hp']
      · simpa [Dataplane.apply, Function.update_of_ne hp'] using h.endpointProfiles k' e he p hp
  | activeProfileRemove k =>
    refine ⟨h.policies, fun k' r' hr s' hs' => ?_, h.endpointPolicies, fun k' e he p hp => ?_⟩
    · by_cases hk : k' = k
      · simp [Dataplane.apply, hk] at hr
      · exact h.profiles k' r' (by simpa [Dataplane.apply, Function.update_of_ne hk] using hr) s' hs'
    · have hne : p ≠ k := fun hpk => hm k' e he (hpk ▸ hp)
      simpa [Dataplane.apply, Function.update_of_ne hne] using h.endpointProfiles k' e he p hp
  | endpointUpdate k ep tiers =>
    obtain ⟨hpol, hprof⟩ := hm
    refine ⟨h.policies, h.profiles, fun k' e he p hp => ?_, fun k' e he p hp => ?_⟩
    · by_cases hk : k' = k
      · -- the new endpoint names only held policies
        subst hk
        obtain rfl : (ep, tiers) = e := by simpa [Dataplane.apply] using he
        exact hpol p hp
      · exact h.endpointPolicies k' e
          (by simpa [Dataplane.apply, Function.update_of_ne hk] using he) p hp
    · by_cases hk : k' = k
      · subst hk
        obtain rfl : (ep, tiers) = e := by simpa [Dataplane.apply] using he
        exact hprof p hp
      · exact h.endpointProfiles k' e
          (by simpa [Dataplane.apply, Function.update_of_ne hk] using he) p hp
  | endpointRemove k =>
    refine ⟨h.policies, h.profiles, fun k' e he p hp => ?_, fun k' e he p hp => ?_⟩
    · by_cases hk : k' = k
      · simp [Dataplane.apply, hk] at he
      · exact h.endpointPolicies k' e
          (by simpa [Dataplane.apply, Function.update_of_ne hk] using he) p hp
    · by_cases hk : k' = k
      · simp [Dataplane.apply, hk] at he
      · exact h.endpointProfiles k' e
          (by simpa [Dataplane.apply, Function.update_of_ne hk] using he) p hp

end Closure

end Felix.Calc
