import Felix.Calc.Dataplane
import Felix.Replication.Phase

/-!
# The sequencer's record of one IP set

Every IP set operation of the sequencer, and every turn of the IP set loops of `Flush`,
touches one set. `setView buf s` collects what `buf` records about the set `s`: its pending
addition with its type, whether its removal is pending, whether it was sent, and its
pending added and removed members. The lemmas of this module say how each operation
changes the view of its own set and leaves every other view as it was; the invariants of
the next modules are stated view by view.

## Main definitions

* `SetView`, `EventSequencer.setView`
* `memberSet md s`: the values of `s` in the multi-valued map `md`, as a finite set

## Main results

* `onIPSetAdded_eq_ok`, `onIPSetRemoved_eq_ok`, `onIPSetMemberAdded_eq_ok`,
  `onIPSetMemberRemoved_eq_ok`: when each call succeeds, and the view after it
* `onIPSetAdded_ok`, ...: each call succeeds under its guard
* `setView_flushAddedIPSet`, `setView_flushAddsOrRemoves`, `setView_flushRemovedIPSet`:
  the view after each turn of the IP set loops
-/

namespace Felix.Calc

open Replication

variable {P : Payloads}

/-- The members of `s` in a multi-valued map from sets to members. -/
def memberSet (md : IterSet (P.SetID × P.Member)) (s : P.SetID) : Finset P.Member :=
  (md.valuesOf s).toFinset

@[simp] theorem mem_memberSet {md : IterSet (P.SetID × P.Member)} {s : P.SetID} {m : P.Member} :
    m ∈ memberSet md s ↔ (s, m) ∈ md := by
  simp [memberSet]

/-- A set is among the keys of the map exactly when it has a member there. -/
theorem mem_keys_iff_memberSet_nonempty {md : IterSet (P.SetID × P.Member)} {s : P.SetID} :
    s ∈ md.keys ↔ (memberSet md s).Nonempty := by
  simp [Finset.Nonempty]

theorem memberSet_discardKey (md : IterSet (P.SetID × P.Member)) (s s' : P.SetID) :
    memberSet (md.discardKey s) s' = if s' = s then ∅ else memberSet md s' := by
  ext m
  split_ifs with h <;> simp [h]

theorem memberSet_add (md : IterSet (P.SetID × P.Member)) (s s' : P.SetID) (m : P.Member) :
    memberSet (md.add (s, m)) s' = if s' = s then insert m (memberSet md s') else memberSet md s' := by
  ext m'
  split_ifs with h
  · subst h
    simp
  · simp [h]

theorem memberSet_discard (md : IterSet (P.SetID × P.Member)) (s s' : P.SetID) (m : P.Member) :
    memberSet (md.discard (s, m)) s' = if s' = s then (memberSet md s').erase m
      else memberSet md s' := by
  ext m'
  split_ifs with h
  · subst h
    simp
  · simp [h]

/-- What the sequencer records about one IP set. -/
structure SetView (P : Payloads) where
  added : Option P.SetType
  removed : Bool
  sent : Bool
  addedMembers : Finset P.Member
  removedMembers : Finset P.Member

namespace EventSequencer

/-- The record of the set `s` in `buf`. -/
def setView (buf : EventSequencer P) (s : P.SetID) : SetView P where
  added := buf.pendingAddedIPSets.lookup s
  removed := decide (s ∈ buf.pendingRemovedIPSets)
  sent := decide (s ∈ buf.sentIPSets)
  addedMembers := memberSet buf.pendingAddedIPSetMembers s
  removedMembers := memberSet buf.pendingRemovedIPSetMembers s
attribute [grind] setView

variable {buf buf' : EventSequencer P} {s : P.SetID}

/-! ## The calls -/

/-- `OnIPSetAdded` succeeds unless the set was sent and its removal is not pending; it
records a pending addition of an empty set and touches nothing else. -/
theorem onIPSetAdded_eq_ok {t : P.SetType} (h : buf.onIPSetAdded s t = .ok buf') :
    ¬(s ∈ buf.sentIPSets ∧ s ∉ buf.pendingRemovedIPSets) ∧
      buf'.setView s = ⟨some t, false, decide (s ∈ buf.sentIPSets), ∅, ∅⟩ ∧
      (∀ s', s' ≠ s → buf'.setView s' = buf.setView s') ∧
      buf'.policies = buf.policies ∧ buf'.profiles = buf.profiles ∧
      buf'.endpoints = buf.endpoints := by
  unfold onIPSetAdded at h
  split_ifs at h with hg
  cases h
  refine ⟨hg, ?_, fun s' hs' => ?_, rfl, rfl, rfl⟩
  · simp [setView, AList.lookup_insert, memberSet_discardKey]
  · simp [setView, AList.lookup_insert_ne hs', memberSet_discardKey, hs']

theorem onIPSetAdded_ok {t : P.SetType} (hg : ¬(s ∈ buf.sentIPSets ∧ s ∉ buf.pendingRemovedIPSets)) :
    ∃ buf', buf.onIPSetAdded s t = .ok buf' := by
  unfold onIPSetAdded
  rw [if_neg hg]
  exact ⟨_, rfl⟩

/-- `OnIPSetRemoved` succeeds when the set was sent or its addition is pending; it queues a
removal when the set was sent and drops everything pending about it. -/
theorem onIPSetRemoved_eq_ok (h : buf.onIPSetRemoved s = .ok buf') :
    ¬(s ∉ buf.sentIPSets ∧ s ∉ buf.pendingAddedIPSets) ∧
      buf'.setView s = ⟨none, decide (s ∈ buf.sentIPSets) || decide (s ∈ buf.pendingRemovedIPSets),
        decide (s ∈ buf.sentIPSets), ∅, ∅⟩ ∧
      (∀ s', s' ≠ s → buf'.setView s' = buf.setView s') ∧
      buf'.policies = buf.policies ∧ buf'.profiles = buf.profiles ∧
      buf'.endpoints = buf.endpoints := by
  unfold onIPSetRemoved at h
  split at h
  · cases h
  rename_i hg
  cases h
  refine ⟨hg, ?_, fun s' hs' => ?_, rfl, rfl, rfl⟩
  · by_cases hs : s ∈ buf.sentIPSets <;>
      simp [setView, hs, AList.lookup_erase, memberSet_discardKey]
  · by_cases hs : s ∈ buf.sentIPSets <;>
      simp [setView, hs, hs', AList.lookup_erase_ne hs', memberSet_discardKey]

theorem onIPSetRemoved_ok (hg : ¬(s ∉ buf.sentIPSets ∧ s ∉ buf.pendingAddedIPSets)) :
    ∃ buf', buf.onIPSetRemoved s = .ok buf' := by
  unfold onIPSetRemoved
  rw [if_neg hg]
  exact ⟨_, rfl⟩

/-- `OnIPSetMemberAdded` succeeds on a sent or pending set; a pending removal of the member
is cancelled, otherwise its addition is queued. -/
theorem onIPSetMemberAdded_eq_ok {m : P.Member} (h : buf.onIPSetMemberAdded s m = .ok buf') :
    ¬(s ∉ buf.sentIPSets ∧ s ∉ buf.pendingAddedIPSets) ∧
      buf'.setView s =
        (if m ∈ (buf.setView s).removedMembers then
          { buf.setView s with removedMembers := (buf.setView s).removedMembers.erase m }
        else { buf.setView s with addedMembers := insert m (buf.setView s).addedMembers }) ∧
      (∀ s', s' ≠ s → buf'.setView s' = buf.setView s') ∧
      buf'.policies = buf.policies ∧ buf'.profiles = buf.profiles ∧
      buf'.endpoints = buf.endpoints := by
  unfold onIPSetMemberAdded at h
  split_ifs at h with hg hr
  · cases h
    refine ⟨hg, ?_, fun s' hs' => ?_, rfl, rfl, rfl⟩
    · simp [setView, hr, memberSet_discard]
    · simp [setView, hs', memberSet_discard]
  · cases h
    refine ⟨hg, ?_, fun s' hs' => ?_, rfl, rfl, rfl⟩
    · simp [setView, hr, memberSet_add]
    · simp [setView, hs', memberSet_add]

theorem onIPSetMemberAdded_ok {m : P.Member}
    (hg : ¬(s ∉ buf.sentIPSets ∧ s ∉ buf.pendingAddedIPSets)) :
    ∃ buf', buf.onIPSetMemberAdded s m = .ok buf' := by
  unfold onIPSetMemberAdded
  rw [if_neg hg]
  split_ifs <;> exact ⟨_, rfl⟩

/-- `OnIPSetMemberRemoved` succeeds on a sent or pending set; a pending addition of the
member is cancelled, otherwise its removal is queued. -/
theorem onIPSetMemberRemoved_eq_ok {m : P.Member} (h : buf.onIPSetMemberRemoved s m = .ok buf') :
    ¬(s ∉ buf.sentIPSets ∧ s ∉ buf.pendingAddedIPSets) ∧
      buf'.setView s =
        (if m ∈ (buf.setView s).addedMembers then
          { buf.setView s with addedMembers := (buf.setView s).addedMembers.erase m }
        else { buf.setView s with removedMembers := insert m (buf.setView s).removedMembers }) ∧
      (∀ s', s' ≠ s → buf'.setView s' = buf.setView s') ∧
      buf'.policies = buf.policies ∧ buf'.profiles = buf.profiles ∧
      buf'.endpoints = buf.endpoints := by
  unfold onIPSetMemberRemoved at h
  split_ifs at h with hg ha
  · cases h
    refine ⟨hg, ?_, fun s' hs' => ?_, rfl, rfl, rfl⟩
    · simp [setView, ha, memberSet_discard]
    · simp [setView, hs', memberSet_discard]
  · cases h
    refine ⟨hg, ?_, fun s' hs' => ?_, rfl, rfl, rfl⟩
    · simp [setView, ha, memberSet_add]
    · simp [setView, hs', memberSet_add]

theorem onIPSetMemberRemoved_ok {m : P.Member}
    (hg : ¬(s ∉ buf.sentIPSets ∧ s ∉ buf.pendingAddedIPSets)) :
    ∃ buf', buf.onIPSetMemberRemoved s m = .ok buf' := by
  unfold onIPSetMemberRemoved
  rw [if_neg hg]
  split_ifs <;> exact ⟨_, rfl⟩

/-! ## The turns of the IP set loops of `Flush` -/

theorem setView_flushAddedIPSet (e : Σ _ : P.SetID, P.SetType) (s' : P.SetID) :
    (buf.flushAddedIPSet e).1.setView s' =
      if s' = e.1 then
        { buf.setView s' with added := none, sent := true, addedMembers := ∅ }
      else buf.setView s' := by
  split_ifs with h
  · subst h
    simp [flushAddedIPSet, setView, AList.lookup_erase, memberSet_discardKey]
    -- the membership test is decided by the instance of the updated record
    rfl
  · simp [flushAddedIPSet, setView, AList.lookup_erase_ne h, memberSet_discardKey, h]
    rfl

theorem setView_flushAddsOrRemoves (s' : P.SetID) :
    (buf.flushAddsOrRemoves s).1.setView s' =
      if s' = s then
        { buf.setView s' with addedMembers := ∅, removedMembers := ∅ }
      else buf.setView s' := by
  split_ifs with h
  · subst h
    simp [flushAddsOrRemoves, setView, memberSet_discardKey]
    exact ⟨rfl, rfl⟩
  · simp [flushAddsOrRemoves, setView, memberSet_discardKey, h]
    exact ⟨rfl, rfl⟩

theorem setView_flushRemovedIPSet (s' : P.SetID) :
    (buf.flushRemovedIPSet s).1.setView s' =
      if s' = s then
        { buf.setView s' with
          removed := false
          sent := false
          addedMembers := ∅
          removedMembers := ∅ }
      else buf.setView s' := by
  split_ifs with h
  · subst h
    simp [flushRemovedIPSet, setView, memberSet_discardKey]
  · simp [flushRemovedIPSet, setView, memberSet_discardKey, h]

end EventSequencer

end Felix.Calc
