import Felix.Calc.SequencerFlush

/-!
# The sequencer simulates the calculation graph's state downstream

A consumer that takes the sequencer's messages in order, with the mock dataplane's checks,
holds after every `Flush` exactly the state the calls so far describe upstream; the checks
never fail: every IP set delta names a set the consumer holds, adds only members it lacks
and removes only members it has, and every removal names something the consumer holds.
This holds for every sequence of calls that keeps to the calculation graph's IP set
protocol, and such a sequence never makes the sequencer panic.

The invariant `Simulates buf down up` relates the sequencer's state `buf`, the consumer's
state `down` and the upstream state `up`. For the three keyed kinds it is the buffer
invariant `Replicates`; for IP sets it is `SetAgrees`, stated set by set on the sequencer's
record of the set. A set's record is in one of four shapes: its addition is pending, its
removal is pending, or neither, with the set sent or not; in the last shape the upstream
members are the consumer's members less the pending removals plus the pending additions.

## Main definitions

* `SetAgrees v down up`, `Simulates buf down up`

## Main results

* `Simulates.step`: a call that keeps to the protocol succeeds and keeps the invariant
* `Simulates.flush`: the consumer takes every message of a flush and ends at `up`
* `eventSequencer_simulation`: the whole run, from `NewEventSequencer`
-/

namespace Felix.Calc

open Replication EventSequencer Felix.Calc.Dataplane

variable {P : Payloads}

/-- The record `v` of one IP set agrees with what the consumer holds of it (`down`) and
what the calls imply (`up`). -/
def SetAgrees (v : SetView P) (down up : Option (P.SetType × Finset P.Member)) : Prop :=
  v.sent = down.isSome ∧
    match v.added, v.removed with
    | some t, false => up = some (t, v.addedMembers) ∧ v.removedMembers = ∅
    | some _, true => False
    | none, true => v.sent = true ∧ up = none ∧ v.addedMembers = ∅ ∧ v.removedMembers = ∅
    | none, false =>
      match down with
      | none => up = none ∧ v.addedMembers = ∅ ∧ v.removedMembers = ∅
      | some (t, D) =>
        up = some (t, (D \ v.removedMembers) ∪ v.addedMembers) ∧ v.removedMembers ⊆ D ∧
          Disjoint v.addedMembers D
attribute [grind] SetAgrees

/-- The sequencer `buf` stands between a consumer holding `down` and the upstream state
`up`: each IP set's record is related to both by `agree`, and each keyed buffer
replicates. -/
structure Stands (agree : SetView P → Option (P.SetType × Finset P.Member) →
      Option (P.SetType × Finset P.Member) → Prop)
    (buf : EventSequencer P) (down up : Dataplane P) : Prop where
  ipSets : ∀ s, agree (buf.setView s) (down.ipSets s) (up.ipSets s)
  policies : Replicates buf.policies down.policies up.policies
  profiles : Replicates buf.profiles down.profiles up.profiles
  endpoints : Replicates buf.endpoints down.endpoints up.endpoints

/-- The simulation invariant: every IP set's record agrees in the sense of `SetAgrees`. -/
abbrev Simulates (buf : EventSequencer P) (down up : Dataplane P) : Prop :=
  Stands SetAgrees buf down up

theorem simulates_new : Simulates (EventSequencer.new : EventSequencer P) .empty .empty where
  ipSets s := by simp [SetAgrees, setView, EventSequencer.new, Dataplane.empty, memberSet,
    IterSet.valuesOf]
  policies := replicates_empty
  profiles := replicates_empty
  endpoints := replicates_empty

/-! ## The four IP set calls, set by set -/

section SetCalls

variable {v : SetView P} {down up : Option (P.SetType × Finset P.Member)}

/-- An addition is allowed only for a set that is not active upstream: its record has no
pending addition, and either its removal is pending or it was never sent. -/
theorem SetAgrees.of_up_none (h : SetAgrees v down up) (hup : up = none) :
    v.added = none ∧ ((v.removed = true ∧ v.sent = true) ∨ (v.removed = false ∧ down = none)) := by
  obtain ⟨hsent, h⟩ := h
  rcases hadd : v.added with _ | t <;> rcases hrem : v.removed <;>
    simp only [hadd, hrem] at h
  · rcases down with _ | ⟨t, D⟩
    · exact ⟨rfl, Or.inr ⟨rfl, rfl⟩⟩
    · simp [hup] at h
  · exact ⟨rfl, Or.inl ⟨rfl, h.1⟩⟩
  · simp [hup] at h

theorem SetAgrees.ipSetAdded (h : SetAgrees v down up) (t : P.SetType) :
    SetAgrees ⟨some t, false, v.sent, ∅, ∅⟩ down (some (t, ∅)) :=
  ⟨h.1, rfl, rfl⟩

/-- A removal is allowed only for a set active upstream: its addition is pending, or it was
sent and its removal is not pending. -/
theorem SetAgrees.of_up_some (h : SetAgrees v down up) (hup : up.isSome) :
    (v.added.isSome ∧ v.removed = false) ∨
      (v.added = none ∧ v.removed = false ∧ v.sent = true) := by
  obtain ⟨hsent, h⟩ := h
  rcases hadd : v.added with _ | t <;> rcases hrem : v.removed <;>
    simp only [hadd, hrem] at h
  · rcases down with _ | ⟨t, D⟩
    · simp [h.1] at hup
    · exact Or.inr ⟨rfl, rfl, by simp [hsent]⟩
  · simp [h.2.1] at hup
  · exact Or.inl ⟨rfl, rfl⟩

theorem SetAgrees.ipSetRemoved (h : SetAgrees v down up) (hup : up.isSome) :
    SetAgrees ⟨none, v.sent || v.removed, v.sent, ∅, ∅⟩ down none := by
  refine ⟨h.1, ?_⟩
  rcases h.of_up_some hup with ⟨-, hrem⟩ | ⟨-, hrem, hs⟩
  · rcases hs : v.sent
    · -- never sent: nothing downstream, nothing to remove
      have hdown : down = none := by simpa [hs] using h.1.symm
      simp [hrem, hdown]
    · simp
  · simp [hs]

/-- A member joins a set active upstream: a pending removal of it is cancelled, otherwise its
addition is queued; either way the record still agrees. -/
theorem SetAgrees.ipSetMemberAdded (h : SetAgrees v down up) {t : P.SetType}
    {ms : Finset P.Member} (hup : up = some (t, ms)) {m : P.Member} (hm : m ∉ ms) :
    SetAgrees (if m ∈ v.removedMembers then { v with removedMembers := v.removedMembers.erase m }
      else { v with addedMembers := insert m v.addedMembers }) down (some (t, insert m ms)) := by
  obtain ⟨hsent, h⟩ := h
  rcases hadd : v.added with _ | t' <;> rcases hrem : v.removed <;>
    simp only [hadd, hrem] at h
  · -- neither an addition nor a removal pending: the set was sent as `D`
    rcases down with _ | ⟨t', D⟩
    · simp [hup] at h
    obtain ⟨hup', hRD, hAD⟩ := h
    rw [hup] at hup'
    obtain ⟨rfl, rfl⟩ := Prod.mk.inj (Option.some.inj hup')
    split_ifs with hmR
    · -- `m` was pending removal: it is still in `D`, and the removal is dropped
      refine ⟨hsent, ?_⟩
      refine ⟨congrArg (fun X => some (t, X)) ?_, (Finset.erase_subset _ _).trans hRD, hAD⟩
      have hmD : m ∈ D := hRD hmR
      ext x
      by_cases hx : x = m
      · subst hx
        simp [hmD]
      · simp [hx]
    · -- `m` was not in `D`: it is queued as an addition
      have hmD : m ∉ D := fun hmD => hm (by simp [hmD, hmR])
      refine ⟨hsent, ?_⟩
      refine ⟨congrArg (fun X => some (t, X)) ?_, hRD, Finset.disjoint_insert_left.mpr ⟨hmD, hAD⟩⟩
      ext x
      by_cases hx : x = m
      · subst hx
        simp
      · simp [hx]
  · simp [hup] at h
  · -- the set's addition is pending: the member joins the pending set
    obtain ⟨hup', hR⟩ := h
    rw [hup] at hup'
    obtain ⟨rfl, rfl⟩ := Prod.mk.inj (Option.some.inj hup')
    have hmR : m ∉ v.removedMembers := by simp [hR]
    rw [if_neg hmR]
    exact ⟨hsent, by simp [hR]⟩

/-- A member leaves a set active upstream: a pending addition of it is cancelled, otherwise
its removal is queued; either way the record still agrees. -/
theorem SetAgrees.ipSetMemberRemoved (h : SetAgrees v down up) {t : P.SetType}
    {ms : Finset P.Member} (hup : up = some (t, ms)) {m : P.Member} (hm : m ∈ ms) :
    SetAgrees (if m ∈ v.addedMembers then { v with addedMembers := v.addedMembers.erase m }
      else { v with removedMembers := insert m v.removedMembers }) down (some (t, ms.erase m)) := by
  obtain ⟨hsent, h⟩ := h
  rcases hadd : v.added with _ | t' <;> rcases hrem : v.removed <;>
    simp only [hadd, hrem] at h
  · rcases down with _ | ⟨t', D⟩
    · simp [hup] at h
    obtain ⟨hup', hRD, hAD⟩ := h
    rw [hup] at hup'
    obtain ⟨rfl, rfl⟩ := Prod.mk.inj (Option.some.inj hup')
    split_ifs with hmA
    · -- `m` was pending addition, so not in `D`: the addition is dropped
      have hmD : m ∉ D := Finset.disjoint_left.mp hAD hmA
      refine ⟨hsent, ?_⟩
      refine ⟨congrArg (fun X => some (t, X)) ?_, hRD,
        Finset.disjoint_of_subset_left (Finset.erase_subset _ _) hAD⟩
      ext x
      by_cases hx : x = m
      · subst hx
        simp [hmD]
      · simp [hx]
    · -- `m` is in `D` and not yet pending removal: its removal is queued
      have hmD : m ∈ D ∧ m ∉ v.removedMembers := by simpa [hmA] using hm
      refine ⟨hsent, ?_⟩
      refine ⟨congrArg (fun X => some (t, X)) ?_, Finset.insert_subset hmD.1 hRD, hAD⟩
      ext x
      by_cases hx : x = m
      · subst hx
        simp [hmA]
      · simp [hx]
  · simp [hup] at h
  · obtain ⟨hup', hR⟩ := h
    rw [hup] at hup'
    obtain ⟨rfl, rfl⟩ := Prod.mk.inj (Option.some.inj hup')
    rw [if_pos hm]
    exact ⟨hsent, by simp [hR]⟩

/-! ## The flush turns, set by set -/

/-- A turn of `flushAddedIPSets`: the consumer now holds the set, with the members added
since its addition was queued. -/
theorem SetAgrees.flushAddedIPSet (h : SetAgrees v down up) {t : P.SetType}
    (ht : v.added = some t) :
    SetAgrees { v with added := none, sent := true, addedMembers := ∅ }
      (some (t, v.addedMembers)) up := by
  obtain ⟨-, h⟩ := h
  rcases hrem : v.removed <;> simp only [ht, hrem] at h
  -- the only shape with a pending addition: no removal pending, no removed members
  obtain ⟨hup, hR⟩ := h
  refine ⟨rfl, ?_⟩
  exact ⟨by simp [hup, hR], by simp [hR], Finset.disjoint_empty_left _⟩

/-- A turn of `flushIPSetDeltas` on a set with member changes: the set is held downstream
as `D`, the additions are absent from it and the removals present, and after the delta the
record agrees with the consumer's new members. -/
theorem SetAgrees.flushAddsOrRemoves (h : SetAgrees v down up) (hadd : v.added = none)
    (hdirty : v.addedMembers.Nonempty ∨ v.removedMembers.Nonempty) :
    ∃ t D, down = some (t, D) ∧ Disjoint v.addedMembers D ∧ v.removedMembers ⊆ D ∧
      SetAgrees { v with addedMembers := ∅, removedMembers := ∅ }
        (some (t, (D ∪ v.addedMembers) \ v.removedMembers)) up := by
  obtain ⟨hsent, h⟩ := h
  rcases hrem : v.removed <;> simp only [hadd, hrem] at h
  · rcases down with _ | ⟨t, D⟩
    · -- a set that was never sent has no member changes
      obtain ⟨-, hA, hR⟩ := h
      simp [hA, hR] at hdirty
    obtain ⟨hup, hRD, hAD⟩ := h
    refine ⟨t, D, rfl, hAD, hRD, hsent, ?_⟩
    simp only [hadd]
    refine ⟨?_, Finset.empty_subset _, Finset.disjoint_empty_left _⟩
    -- the additions are not in `D` and the removals are, so the two are disjoint
    have hAR : Disjoint v.addedMembers v.removedMembers :=
      Finset.disjoint_of_subset_right hRD hAD
    rw [hup, Finset.sdiff_empty, Finset.union_empty, Finset.union_sdiff_distrib,
      hAR.sdiff_eq_left]
  · -- a set whose removal is pending has no member changes
    obtain ⟨-, -, hA, hR⟩ := h
    simp [hA, hR] at hdirty

/-- A turn of `flushRemovedIPSets`: the consumer holds the set, and after its removal the
record of a set never sent agrees. -/
theorem SetAgrees.flushRemovedIPSet (h : SetAgrees v down up) (hr : v.removed = true) :
    down.isSome ∧
      SetAgrees { v with removed := false, sent := false, addedMembers := ∅, removedMembers := ∅ }
        none up := by
  obtain ⟨hsent, h⟩ := h
  rcases hadd : v.added with _ | t <;> simp only [hadd, hr] at h
  obtain ⟨hs, hup, -, -⟩ := h
  refine ⟨hsent ▸ hs, rfl, ?_⟩
  simp [hup]

/-- With nothing pending about a set, the consumer holds it as it is upstream. -/
theorem SetAgrees.eq_of_idle (h : SetAgrees v down up) (hadd : v.added = none)
    (hrem : v.removed = false) (hA : v.addedMembers = ∅) (hR : v.removedMembers = ∅) :
    down = up := by
  obtain ⟨-, h⟩ := h
  simp only [hadd, hrem] at h
  rcases down with _ | ⟨t, D⟩
  · exact h.1.symm
  · rw [h.1, hA, hR, Finset.sdiff_empty, Finset.union_empty]

end SetCalls

/-! ## The calls -/

section Calls

variable {buf buf' : EventSequencer P} {down up : Dataplane P}

/-- A call that changes the record of the set `s` only keeps the invariant, for the upstream
state changed at `s` only. -/
theorem Stands.setCall {agree : SetView P → Option (P.SetType × Finset P.Member) →
      Option (P.SetType × Finset P.Member) → Prop}
    (h : Stands agree buf down up) {s : P.SetID} {o : Option (P.SetType × Finset P.Member)}
    (hs : agree (buf'.setView s) (down.ipSets s) o)
    (hother : ∀ s', s' ≠ s → buf'.setView s' = buf.setView s')
    (hpol : buf'.policies = buf.policies) (hprof : buf'.profiles = buf.profiles)
    (hend : buf'.endpoints = buf.endpoints) :
    Stands agree buf' down { up with ipSets := Function.update up.ipSets s o } where
  ipSets s' := by
    by_cases hs' : s' = s
    · subst hs'
      simpa using hs
    · rw [hother s' hs']
      simpa [Function.update_of_ne hs'] using h.ipSets s'
  policies := hpol ▸ h.policies
  profiles := hprof ▸ h.profiles
  endpoints := hend ▸ h.endpoints

/-- `OnIPSetAdded` of a set not active upstream does not panic. -/
theorem Simulates.ipSetAdded (h : Simulates buf down up) {s : P.SetID} {t : P.SetType}
    (hs : up.ipSets s = none) :
    ∃ buf', buf.onIPSetAdded s t = .ok buf' ∧
      Simulates buf' down (upstreamStep up (.ipSetAdded s t)) := by
  obtain ⟨-, hcase⟩ := (h.ipSets s).of_up_none hs
  -- the guard: the set's removal is pending, or it was never sent
  have hg : ¬(s ∈ buf.sentIPSets ∧ s ∉ buf.pendingRemovedIPSets) := by
    rintro ⟨hsent, hrem⟩
    rcases hcase with ⟨hr, -⟩ | ⟨-, hdown⟩
    · exact hrem (of_decide_eq_true hr)
    · have hagree := (h.ipSets s).1
      simp [setView, hsent, hdown] at hagree
  obtain ⟨buf', hbuf'⟩ : ∃ buf', buf.onIPSetAdded s t = .ok buf' := onIPSetAdded_ok hg
  obtain ⟨-, hview, hother, hpol, hprof, hend⟩ := onIPSetAdded_eq_ok hbuf'
  refine ⟨buf', hbuf', h.setCall ?_ hother hpol hprof hend⟩
  rw [hview]
  exact (h.ipSets s).ipSetAdded t

/-- A set active upstream is sent or has its addition pending: the guard of the member
calls holds. -/
theorem Simulates.known_of_isSome (h : Simulates buf down up) {s : P.SetID}
    (hs : (up.ipSets s).isSome) : ¬(s ∉ buf.sentIPSets ∧ s ∉ buf.pendingAddedIPSets) := by
  rintro ⟨hsent, hadd⟩
  rcases (h.ipSets s).of_up_some hs with ⟨ha, -⟩ | ⟨-, -, hs'⟩
  · exact hadd (AList.lookup_isSome.mp ha)
  · exact hsent (of_decide_eq_true hs')

/-- `OnIPSetRemoved` of a set active upstream does not panic. -/
theorem Simulates.ipSetRemoved (h : Simulates buf down up) {s : P.SetID}
    (hs : (up.ipSets s).isSome) :
    ∃ buf', buf.onIPSetRemoved s = .ok buf' ∧
      Simulates buf' down (upstreamStep up (.ipSetRemoved s)) := by
  obtain ⟨buf', hbuf'⟩ : ∃ buf', buf.onIPSetRemoved s = .ok buf' :=
    onIPSetRemoved_ok (h.known_of_isSome hs)
  obtain ⟨-, hview, hother, hpol, hprof, hend⟩ := onIPSetRemoved_eq_ok hbuf'
  refine ⟨buf', hbuf', h.setCall ?_ hother hpol hprof hend⟩
  rw [hview]
  exact (h.ipSets s).ipSetRemoved hs

/-- `OnIPSetMemberAdded` of a member absent from a set active upstream does not panic. -/
theorem Simulates.ipSetMemberAdded (h : Simulates buf down up) {s : P.SetID} {m : P.Member}
    (ha : ∃ t ms, up.ipSets s = some (t, ms) ∧ m ∉ ms) :
    ∃ buf', buf.onIPSetMemberAdded s m = .ok buf' ∧
      Simulates buf' down (upstreamStep up (.ipSetMemberAdded s m)) := by
  obtain ⟨t, ms, hup, hm⟩ := ha
  obtain ⟨buf', hbuf'⟩ : ∃ buf', buf.onIPSetMemberAdded s m = .ok buf' :=
    onIPSetMemberAdded_ok (h.known_of_isSome (by simp [hup]))
  obtain ⟨-, hview, hother, hpol, hprof, hend⟩ := onIPSetMemberAdded_eq_ok hbuf'
  have hstep : upstreamStep up (.ipSetMemberAdded s m) =
      { up with ipSets := Function.update up.ipSets s (some (t, insert m ms)) } := by
    simp [upstreamStep, hup]
  refine ⟨buf', hbuf', hstep ▸ h.setCall ?_ hother hpol hprof hend⟩
  rw [hview]
  exact (h.ipSets s).ipSetMemberAdded hup hm

/-- `OnIPSetMemberRemoved` of a member present in a set active upstream does not panic. -/
theorem Simulates.ipSetMemberRemoved (h : Simulates buf down up) {s : P.SetID} {m : P.Member}
    (ha : ∃ t ms, up.ipSets s = some (t, ms) ∧ m ∈ ms) :
    ∃ buf', buf.onIPSetMemberRemoved s m = .ok buf' ∧
      Simulates buf' down (upstreamStep up (.ipSetMemberRemoved s m)) := by
  obtain ⟨t, ms, hup, hm⟩ := ha
  obtain ⟨buf', hbuf'⟩ : ∃ buf', buf.onIPSetMemberRemoved s m = .ok buf' :=
    onIPSetMemberRemoved_ok (h.known_of_isSome (by simp [hup]))
  obtain ⟨-, hview, hother, hpol, hprof, hend⟩ := onIPSetMemberRemoved_eq_ok hbuf'
  have hstep : upstreamStep up (.ipSetMemberRemoved s m) =
      { up with ipSets := Function.update up.ipSets s (some (t, ms.erase m)) } := by
    simp [upstreamStep, hup]
  refine ⟨buf', hbuf', hstep ▸ h.setCall ?_ hother hpol hprof hend⟩
  rw [hview]
  exact (h.ipSets s).ipSetMemberRemoved hup hm

/-- **One call**: a call other than `Flush` that keeps to the protocol succeeds, sends
nothing, and keeps the invariant for the upstream state it describes. -/
theorem Simulates.step (h : Simulates buf down up) {c : Call P} (hc : c ≠ .flush)
    (ha : Allowed up c) :
    ∃ buf', buf.step c = .ok (buf', []) ∧ Simulates buf' down (upstreamStep up c) := by
  cases c with
  | ipSetAdded s t =>
    obtain ⟨buf', hbuf', hsim⟩ := h.ipSetAdded ha
    exact ⟨buf', by rw [EventSequencer.step, hbuf']; rfl, hsim⟩
  | ipSetRemoved s =>
    obtain ⟨buf', hbuf', hsim⟩ := h.ipSetRemoved ha
    exact ⟨buf', by rw [EventSequencer.step, hbuf']; rfl, hsim⟩
  | ipSetMemberAdded s m =>
    obtain ⟨buf', hbuf', hsim⟩ := h.ipSetMemberAdded ha
    exact ⟨buf', by rw [EventSequencer.step, hbuf']; rfl, hsim⟩
  | ipSetMemberRemoved s m =>
    obtain ⟨buf', hbuf', hsim⟩ := h.ipSetMemberRemoved ha
    exact ⟨buf', by rw [EventSequencer.step, hbuf']; rfl, hsim⟩
  -- the keyed kinds: the buffer's own lemmas
  | policyActive k r => exact ⟨_, rfl, h.ipSets, h.policies.update k r, h.profiles, h.endpoints⟩
  | policyInactive k => exact ⟨_, rfl, h.ipSets, h.policies.remove k, h.profiles, h.endpoints⟩
  | profileActive k r => exact ⟨_, rfl, h.ipSets, h.policies, h.profiles.update k r, h.endpoints⟩
  | profileInactive k => exact ⟨_, rfl, h.ipSets, h.policies, h.profiles.remove k, h.endpoints⟩
  | endpointTierUpdate k ep tiers =>
    cases ep with
    | none => exact ⟨_, rfl, h.ipSets, h.policies, h.profiles, h.endpoints.remove k⟩
    | some ep => exact ⟨_, rfl, h.ipSets, h.policies, h.profiles, h.endpoints.update k (ep, tiers)⟩
  | flush => exact absurd rfl hc

end Calls

/-! ## The turns of `Flush` -/

section Turns

variable {buf : EventSequencer P} {down up : Dataplane P}
  {agree : SetView P → Option (P.SetType × Finset P.Member) →
    Option (P.SetType × Finset P.Member) → Prop}

/-- A turn of `flushAddedIPSets` changes the record of its own set only, and the consumer
reads its message as replacing that set: the invariant holds after if it holds of the set's
new record. -/
theorem Stands.flushAddedIPSet (h : Stands agree buf down up) {s : P.SetID} {t : P.SetType}
    (hs : agree { buf.setView s with added := none, sent := true, addedMembers := ∅ }
      (some (t, (buf.setView s).addedMembers)) (up.ipSets s)) :
    Stands agree (buf.flushAddedIPSet ⟨s, t⟩).1 (down.apply (buf.flushAddedIPSet ⟨s, t⟩).2) up where
  ipSets s' := by
    rw [setView_flushAddedIPSet]
    by_cases hs' : s' = s
    · subst hs'
      -- the consumer now holds the set with the members added since it was queued
      have hdown : (down.apply (buf.flushAddedIPSet ⟨s', t⟩).2).ipSets s' =
          some (t, (buf.setView s').addedMembers) := by
        simp [EventSequencer.flushAddedIPSet, Dataplane.apply, setView, memberSet]
      rw [if_pos rfl, hdown]
      exact hs
    · have hdown : (down.apply (buf.flushAddedIPSet ⟨s, t⟩).2).ipSets s' = down.ipSets s' := by
        simp [EventSequencer.flushAddedIPSet, Dataplane.apply, Function.update_of_ne hs']
      rw [if_neg hs', hdown]
      exact h.ipSets s'
  policies := h.policies
  profiles := h.profiles
  endpoints := h.endpoints

/-- A turn of `flushIPSetDeltas` changes the record of its own set only, and the consumer
reads its message as adding and then removing members of that set. -/
theorem Stands.flushAddsOrRemoves (h : Stands agree buf down up) {s : P.SetID}
    (hs : agree { buf.setView s with addedMembers := ∅, removedMembers := ∅ }
      ((down.ipSets s).map fun e =>
        (e.1, (e.2 ∪ (buf.setView s).addedMembers) \ (buf.setView s).removedMembers))
      (up.ipSets s)) :
    Stands agree (buf.flushAddsOrRemoves s).1 (down.apply (buf.flushAddsOrRemoves s).2) up where
  ipSets s' := by
    rw [setView_flushAddsOrRemoves]
    by_cases hs' : s' = s
    · subst hs'
      rw [if_pos rfl]
      show agree _ (Function.update down.ipSets s' _ s') _
      rw [Function.update_self]
      exact hs
    · rw [if_neg hs']
      show agree _ (Function.update down.ipSets s _ s') _
      rw [Function.update_of_ne hs']
      exact h.ipSets s'
  policies := h.policies
  profiles := h.profiles
  endpoints := h.endpoints

/-- A turn of `flushRemovedIPSets` changes the record of its own set only, and the consumer
reads its message as dropping that set. -/
theorem Stands.flushRemovedIPSet (h : Stands agree buf down up) {s : P.SetID}
    (hs : agree { buf.setView s with
        removed := false
        sent := false
        addedMembers := ∅
        removedMembers := ∅ } none (up.ipSets s)) :
    Stands agree (buf.flushRemovedIPSet s).1 (down.apply (buf.flushRemovedIPSet s).2) up where
  ipSets s' := by
    rw [setView_flushRemovedIPSet]
    by_cases hs' : s' = s
    · subst hs'
      rw [if_pos rfl]
      simpa [EventSequencer.flushRemovedIPSet, Dataplane.apply] using hs
    · rw [if_neg hs']
      simpa [EventSequencer.flushRemovedIPSet, Dataplane.apply, Function.update_of_ne hs']
        using h.ipSets s'
  policies := h.policies
  profiles := h.profiles
  endpoints := h.endpoints

/-- A turn of `flushAddedIPSets` in the simulation: the consumer takes the set whole. -/
theorem Simulates.flushAddedIPSet (h : Simulates buf down up) {s : P.SetID} {t : P.SetType}
    (hs : buf.pendingAddedIPSets.lookup s = some t) :
    Simulates (buf.flushAddedIPSet ⟨s, t⟩).1 (down.apply (buf.flushAddedIPSet ⟨s, t⟩).2) up :=
  Stands.flushAddedIPSet h ((h.ipSets s).flushAddedIPSet hs)

/-- A turn of `flushIPSetDeltas` on a set with member changes, in the simulation: the
consumer's checks pass and it takes the delta. -/
theorem Simulates.flushAddsOrRemoves (h : Simulates buf down up) {s : P.SetID}
    (hadd : (buf.setView s).added = none)
    (hdirty : (buf.setView s).addedMembers.Nonempty ∨ (buf.setView s).removedMembers.Nonempty) :
    ∃ d', down.take (buf.flushAddsOrRemoves s).2 = some d' ∧
      Simulates (buf.flushAddsOrRemoves s).1 d' up := by
  obtain ⟨t, D, hD, hAD, hRD, hagree⟩ := (h.ipSets s).flushAddsOrRemoves hadd hdirty
  -- each added member is absent from `D`, each removed one present, each listed once
  have habsent : ∀ m ∈ buf.pendingAddedIPSetMembers.valuesOf s, m ∉ D := fun m hm =>
    Finset.disjoint_left.mp hAD (mem_memberSet.mpr (IterSet.mem_valuesOf.mp hm))
  have hpresent : ∀ m ∈ buf.pendingRemovedIPSetMembers.valuesOf s,
      m ∈ D ∪ (buf.pendingAddedIPSetMembers.valuesOf s).toFinset := fun m hm =>
    Finset.mem_union_left _ (hRD (mem_memberSet.mpr (IterSet.mem_valuesOf.mp hm)))
  have htake : down.take (buf.flushAddsOrRemoves s).2 =
      some (down.apply (buf.flushAddsOrRemoves s).2) := by
    show down.take (.ipSetDeltaUpdate s _ _) = some (down.apply (.ipSetDeltaUpdate s _ _))
    rw [take_ipSetDeltaUpdate hD (IterSet.valuesOf_nodup s _) (IterSet.valuesOf_nodup s _)
      habsent hpresent]
    simp [Dataplane.apply, hD]
  refine ⟨_, htake, Stands.flushAddsOrRemoves h ?_⟩
  rw [hD]
  exact hagree

/-- A turn of `flushRemovedIPSets` in the simulation: the consumer holds the set, and drops
it. -/
theorem Simulates.flushRemovedIPSet (h : Simulates buf down up) {s : P.SetID}
    (hr : (buf.setView s).removed = true) :
    ∃ d', down.take (buf.flushRemovedIPSet s).2 = some d' ∧
      Simulates (buf.flushRemovedIPSet s).1 d' up := by
  obtain ⟨hdown, hagree⟩ := (h.ipSets s).flushRemovedIPSet hr
  exact ⟨_, by simp [EventSequencer.flushRemovedIPSet, Dataplane.take, hdown],
    Stands.flushRemovedIPSet h hagree⟩

theorem Stands.sendPolicyUpdate (h : Stands agree buf down up) {k : P.PolicyKey} {r : P.Rules}
    (hk : buf.policies.pendingUpdates.lookup k = some r) :
    Stands agree { buf with policies := buf.policies.sendUpdate k }
      (down.apply (.activePolicyUpdate k r)) up :=
  ⟨h.ipSets, h.policies.sendUpdate hk, h.profiles, h.endpoints⟩

theorem Stands.sendProfileUpdate (h : Stands agree buf down up) {k : P.ProfileKey} {r : P.Rules}
    (hk : buf.profiles.pendingUpdates.lookup k = some r) :
    Stands agree { buf with profiles := buf.profiles.sendUpdate k }
      (down.apply (.activeProfileUpdate k r)) up :=
  ⟨h.ipSets, h.policies, h.profiles.sendUpdate hk, h.endpoints⟩

theorem Stands.sendEndpointUpdate (h : Stands agree buf down up) {k : P.EndpointKey}
    {e : P.Endpoint × P.Tiers} (hk : buf.endpoints.pendingUpdates.lookup k = some e) :
    Stands agree { buf with endpoints := buf.endpoints.sendUpdate k }
      (down.apply (.endpointUpdate k e.1 e.2)) up :=
  ⟨h.ipSets, h.policies, h.profiles, h.endpoints.sendUpdate hk⟩

/-- A turn of `flushPolicyDeletes`: the consumer holds the policy, and drops it. -/
theorem Stands.sendPolicyDelete (h : Stands agree buf down up) {k : P.PolicyKey}
    (hk : k ∈ buf.policies.pendingDeletes) :
    down.take (.activePolicyRemove k) = some (down.apply (.activePolicyRemove k)) ∧
      Stands agree { buf with policies := buf.policies.sendDelete k }
        (down.apply (.activePolicyRemove k)) up :=
  ⟨by simp [Dataplane.take, h.policies.isSome_of_mem_pendingDeletes hk],
    h.ipSets, h.policies.sendDelete hk, h.profiles, h.endpoints⟩

theorem Stands.sendProfileDelete (h : Stands agree buf down up) {k : P.ProfileKey}
    (hk : k ∈ buf.profiles.pendingDeletes) :
    down.take (.activeProfileRemove k) = some (down.apply (.activeProfileRemove k)) ∧
      Stands agree { buf with profiles := buf.profiles.sendDelete k }
        (down.apply (.activeProfileRemove k)) up :=
  ⟨by simp [Dataplane.take, h.profiles.isSome_of_mem_pendingDeletes hk],
    h.ipSets, h.policies, h.profiles.sendDelete hk, h.endpoints⟩

theorem Stands.sendEndpointDelete (h : Stands agree buf down up) {k : P.EndpointKey}
    (hk : k ∈ buf.endpoints.pendingDeletes) :
    down.take (.endpointRemove k) = some (down.apply (.endpointRemove k)) ∧
      Stands agree { buf with endpoints := buf.endpoints.sendDelete k }
        (down.apply (.endpointRemove k)) up :=
  ⟨by simp [Dataplane.take, h.endpoints.isSome_of_mem_pendingDeletes hk],
    h.ipSets, h.policies, h.profiles, h.endpoints.sendDelete hk⟩

end Turns

/-! ## Whole flushes and whole runs -/

section Run

variable {buf : EventSequencer P} {down up : Dataplane P}

/-- With nothing pending anywhere in the sequencer, the consumer holds the upstream
state. -/
theorem Simulates.eq_of_flushed (h : Simulates buf down up) (hset : IPSetsSettled buf)
    (hupd : UpdatesSent buf) (hdel : DeletesSent buf) (hrem : ∀ s, (buf.setView s).removed = false) :
    down = up := by
  obtain ⟨hpolU, hprofU, hepU⟩ := hupd
  obtain ⟨hepD, hprofD, hpolD⟩ := hdel
  ext1
  · funext s
    obtain ⟨hadd, hA, hR⟩ := hset s
    exact (h.ipSets s).eq_of_idle hadd (hrem s) hA hR
  · exact h.policies.eq_of_idle hpolU hpolD
  · exact h.profiles.eq_of_idle hprofU hprofD
  · exact h.endpoints.eq_of_idle hepU hepD

/-- The IP set additions and deltas of a flush: afterwards the IP sets are settled. -/
theorem Simulates.triple_ipSetAdditions :
    Triple Dataplane.take (fun b d => Simulates b d up)
      (emitSeq flushAddedIPSets flushIPSetDeltas)
      (fun b d => Simulates b d up ∧ IPSetsSettled b) := by
  have h₁ : Triple Dataplane.take (fun b d => Simulates b d up) flushAddedIPSets _ :=
    triple_flushAddedIPSets _ fun b d s t hb hs => ⟨_, rfl, hb.flushAddedIPSet hs⟩
  refine (h₁.seq (triple_flushIPSetDeltas _ ?_)).mono (fun _ _ h => h) ?_
  · rintro b d s ⟨hb, hadd⟩ hdirty
    obtain ⟨d', hd', hsim⟩ := hb.flushAddsOrRemoves (hadd s) hdirty
    exact ⟨d', hd', hsim, added_flushAddsOrRemoves hadd s⟩
  · rintro b d ⟨⟨hb, hadd⟩, hclean⟩
    exact ⟨hb, fun s => ⟨hadd s, hclean s⟩⟩

/-- The update phases of a flush: afterwards no update is queued. -/
theorem Simulates.triple_updates :
    Triple Dataplane.take (fun b d => Simulates b d up ∧ IPSetsSettled b)
      (emitSeq flushPolicyUpdates (emitSeq flushProfileUpdates flushEndpointTierUpdates))
      (fun b d => (Simulates b d up ∧ IPSetsSettled b) ∧ UpdatesSent b) := by
  have h₃ : Triple Dataplane.take (fun b d => Simulates b d up ∧ IPSetsSettled b)
      flushPolicyUpdates _ :=
    triple_flushPolicyUpdates _ fun b d k r ⟨hb, hset⟩ hk =>
      ⟨_, rfl, hb.sendPolicyUpdate hk, hset⟩
  refine (h₃.seq ((triple_flushProfileUpdates _ ?_).seq
    (triple_flushEndpointTierUpdates _ ?_))).mono (fun _ _ h => h) ?_
  · rintro b d k r ⟨⟨hb, hset⟩, hpol⟩ hk
    exact ⟨_, rfl, ⟨hb.sendProfileUpdate hk, hset⟩, hpol⟩
  · rintro b d k e ⟨⟨⟨hb, hset⟩, hpol⟩, hprof⟩ hk
    exact ⟨_, rfl, ⟨⟨hb.sendEndpointUpdate hk, hset⟩, hpol⟩, hprof⟩
  · rintro b d ⟨⟨⟨hI, hpol⟩, hprof⟩, hep⟩
    exact ⟨hI, hpol, hprof, hep⟩

/-- The deletion phases of a flush: afterwards no deletion is queued either. -/
theorem Simulates.triple_deletes :
    Triple Dataplane.take (fun b d => (Simulates b d up ∧ IPSetsSettled b) ∧ UpdatesSent b)
      (emitSeq flushEndpointTierDeletes (emitSeq flushProfileDeletes flushPolicyDeletes))
      (fun b d => ((Simulates b d up ∧ IPSetsSettled b) ∧ UpdatesSent b) ∧ DeletesSent b) := by
  have h₆ : Triple Dataplane.take
      (fun b d => (Simulates b d up ∧ IPSetsSettled b) ∧ UpdatesSent b)
      flushEndpointTierDeletes _ :=
    triple_flushEndpointTierDeletes _ fun b d k ⟨⟨hb, hset⟩, hupd⟩ hk =>
      ⟨_, (hb.sendEndpointDelete hk).1, ⟨(hb.sendEndpointDelete hk).2, hset⟩, hupd⟩
  refine (h₆.seq ((triple_flushProfileDeletes _ ?_).seq
    (triple_flushPolicyDeletes _ ?_))).mono (fun _ _ h => h) ?_
  · rintro b d k ⟨⟨⟨hb, hset⟩, hupd⟩, hep⟩ hk
    exact ⟨_, (hb.sendProfileDelete hk).1, ⟨⟨(hb.sendProfileDelete hk).2, hset⟩, hupd⟩, hep⟩
  · rintro b d k ⟨⟨⟨⟨hb, hset⟩, hupd⟩, hep⟩, hprof⟩ hk
    exact ⟨_, (hb.sendPolicyDelete hk).1, ⟨⟨⟨(hb.sendPolicyDelete hk).2, hset⟩, hupd⟩, hep⟩, hprof⟩
  · rintro b d ⟨⟨⟨hJ, hep⟩, hprof⟩, hpol⟩
    exact ⟨hJ, hep, hprof, hpol⟩

/-- The last phase of a flush, the IP set removals: afterwards nothing is pending. -/
theorem Simulates.triple_ipSetRemovals :
    Triple Dataplane.take
      (fun b d => ((Simulates b d up ∧ IPSetsSettled b) ∧ UpdatesSent b) ∧ DeletesSent b)
      flushRemovedIPSets
      (fun b d => (((Simulates b d up ∧ IPSetsSettled b) ∧ UpdatesSent b) ∧ DeletesSent b) ∧
        ∀ s, (b.setView s).removed = false) := by
  refine triple_flushRemovedIPSets _ ?_
  rintro b d s ⟨⟨⟨hb, hset⟩, hupd⟩, hdel⟩ hr
  obtain ⟨d', hd', hsim⟩ := hb.flushRemovedIPSet hr
  exact ⟨d', hd', ⟨⟨⟨hsim, hset.flushRemovedIPSet s⟩, hupd⟩, hdel⟩⟩

/-- **A whole flush**: the consumer takes every message, with its checks, and ends holding
the upstream state; the invariant holds after. -/
theorem Simulates.flush (h : Simulates buf down up) :
    down.takeAll buf.flush.2 = some up ∧ Simulates buf.flush.1 up up := by
  have hflush := (Simulates.triple_ipSetAdditions.seq
    (Simulates.triple_updates.seq (Simulates.triple_deletes.seq
      Simulates.triple_ipSetRemovals))) buf down h
  obtain ⟨d', hd', ⟨⟨⟨hsim, hset⟩, hupd⟩, hdel⟩, hrem⟩ := hflush
  rw [← flush_eq_phases] at hd' hsim hset hupd hdel hrem
  have hup : d' = up := hsim.eq_of_flushed hset hupd hdel hrem
  subst hup
  exact ⟨hd', hsim⟩

/-- **A run**: from a state where the invariant holds, calls that keep to the protocol never
make the sequencer panic and the consumer takes every message sent; the invariant holds at
the end, and after a final `Flush` the consumer holds the upstream state. -/
theorem Simulates.run (h : Simulates buf down up) (calls : List (Call P))
    (hp : FollowsProtocol up calls) :
    ∃ buf' ms down', buf.runFrom calls = .ok (buf', ms) ∧ down.takeAll ms = some down' ∧
      Simulates buf' down' (calls.foldl upstreamStep up) ∧
      (calls.getLast? = some .flush → down' = calls.foldl upstreamStep up) := by
  induction calls generalizing buf down up with
  | nil => exact ⟨buf, [], down, rfl, rfl, h, by simp⟩
  | cons c cs ih =>
    obtain ⟨ha, hp⟩ := hp
    -- the first call: a flush leaves the consumer at `up`, the other calls send nothing
    obtain ⟨buf₁, ms₁, down₁, hstep, htake, hsim, hflush⟩ :
        ∃ buf₁ ms₁ down₁, buf.step c = .ok (buf₁, ms₁) ∧ down.takeAll ms₁ = some down₁ ∧
          Simulates buf₁ down₁ (upstreamStep up c) ∧ (c = .flush → down₁ = upstreamStep up c) := by
      by_cases hc : c = .flush
      · subst hc
        obtain ⟨hd, hsim⟩ := h.flush
        have hstep : buf.step .flush = .ok buf.flush := rfl
        -- the flush's result stays opaque: unfolding it makes the unifier slow
        generalize buf.flush = r at hstep hd hsim
        exact ⟨r.1, r.2, up, hstep, hd, hsim, fun _ => rfl⟩
      · obtain ⟨buf₁, hbuf₁, hsim⟩ := h.step hc ha
        exact ⟨buf₁, [], down, hbuf₁, rfl, hsim, fun hc' => absurd hc' hc⟩
    obtain ⟨buf', ms, down', hrun, htake', hsim', hlast⟩ := ih hsim hp
    refine ⟨buf', ms₁ ++ ms, down', ?_, ?_, hsim', fun hl => ?_⟩
    · rw [EventSequencer.runFrom, hstep]
      show (fun r => (r.1, ms₁ ++ r.2)) <$> buf₁.runFrom cs = _
      rw [hrun]
      rfl
    · simp only [Dataplane.takeAll] at htake htake' ⊢
      rw [List.foldlM_append, htake]
      exact htake'
    · cases cs with
      | nil =>
        -- the flush was the last call
        have hc : c = .flush := by simpa using hl
        have hd : down' = down₁ := by
          simp only [EventSequencer.runFrom, Except.ok.injEq, Prod.mk.injEq] at hrun
          obtain ⟨-, rfl⟩ := hrun
          simpa [Dataplane.takeAll] using htake'.symm
        rw [hd, hflush hc]
        rfl
      | cons c' cs' => exact hlast (by simpa using hl)

end Run

/-- **Simulation.** For every sequence of calls that keeps to the calculation graph's IP set
protocol, interleaved with `Flush` anywhere: from `NewEventSequencer`, the sequencer never
panics; a consumer holding nothing, with the mock dataplane's checks on IP set deltas and
removals and the check that every removal names something it holds, takes every message
sent; and after a final `Flush`, applying the messages in order gives exactly the state the
calls describe. -/
theorem eventSequencer_simulation (calls : List (Call P))
    (hp : FollowsProtocol Dataplane.empty calls) :
    ∃ buf ms, EventSequencer.new.runFrom calls = .ok (buf, ms) ∧
      (Dataplane.empty.takeAll ms).isSome ∧
      (calls.getLast? = some .flush → ms.foldl Dataplane.apply Dataplane.empty = upstream calls) := by
  obtain ⟨buf, ms, down, hrun, htake, -, hlast⟩ := simulates_new.run calls hp
  -- the checked reading of the messages is their plain reading
  have happly : down = ms.foldl Dataplane.apply Dataplane.empty :=
    foldlM_eq_foldl (fun _ _ _ h => Dataplane.take_eq_some h) ms _ _ htake
  exact ⟨buf, ms, hrun, by simp [htake], fun hl => happly ▸ hlast hl⟩

/-- Payloads whose types are all `ℕ`, to run the sequencer on. -/
@[reducible] def natPayloads : Payloads := ⟨ℕ, ℕ, ℕ, ℕ, ℕ, ℕ, ℕ, ℕ, ℕ⟩

/-- A set is added with a member and flushed, then the member and the set are removed and
flushed again. -/
def simulationDemo : List (Call natPayloads) :=
  [.ipSetAdded 1 0, .ipSetMemberAdded 1 7, .policyActive 3 0, .flush,
    .ipSetMemberRemoved 1 7, .ipSetRemoved 1, .policyInactive 3, .flush]

theorem eventSequencer_simulation_demo :
    FollowsProtocol Dataplane.empty simulationDemo ∧
      ∃ buf ms, EventSequencer.new.runFrom simulationDemo = .ok (buf, ms) ∧
        (Dataplane.empty.takeAll ms).isSome ∧
        (simulationDemo.getLast? = some .flush →
          ms.foldl Dataplane.apply Dataplane.empty = upstream simulationDemo) := by
  have hp : FollowsProtocol Dataplane.empty simulationDemo := by
    simp [simulationDemo, FollowsProtocol, Allowed, upstreamStep, Dataplane.empty]
  exact ⟨hp, eventSequencer_simulation simulationDemo hp⟩

end Felix.Calc
