import Felix.Ipsets.Reachable
import Mathlib

/-!
# What `GetMembers` gives is what the calls asked for

The calculation graph asks for each IP set through four calls: `AddOrReplaceIPSet` gives its
type and members, `AddMembers` and `RemoveMembers` change its members, and `RemoveIPSet` drops
it. What it has asked of a set after a run (`Event.request`) is the members of the last
`AddOrReplaceIPSet`, canonical and of the manager's IP version, with each later `AddMembers`
and `RemoveMembers` applied in order; nothing once the set is removed.

In every state the manager reaches, `GetMembers` gives for each set exactly what was asked of
it, and fails for a set that is not held (`ipSets_getMembers_requested`). The record moves
its members between a pending rewrite, the programmed members and the two delta sets, and
`ApplyUpdates` and `ApplyDeletions` rebuild and resync it; the argument is that the calls
change what the record wants as they change the request (`Fulfils.eventApply`), while the
other work keeps the records, their types and what they want (`KeepsRecords`, `KeepsWants`).

## Main definitions

* `Event.request`: what the calls of a run ask of one set
* `Answers`: `GetMembers`' result agrees with a request
* `IPSets.KeepsRecords`: a change that keeps the configuration, and the stored records with
  their metadata

## Main results

* `IPSet.Wf.addMembers_wants`, `IPSet.Wf.removeMembers_wants`: the deltas change what a record
  wants as the calls say, in either mode
* `IPSets.Wf.applyUpdatesFrom_keepsRecords`, `IPSets.Wf.applyDeletions_keepsRecords`
* `ipSets_getMembers_requested`
-/

namespace Felix.Ipsets

open Replication

namespace IPSet

variable {ipSet ipSet' : IPSet} {C : IterSet String} {a : String}

/-! ## What the deltas do to what a record wants -/

/-- What a record in delta mode wants with other deltas. -/
theorem wants_with_deltas {M A D : IterSet String} (hM : ipSet.members = some M)
    (hr : ipSet.pendingReplace = none) (x : String) :
    ({ ipSet with pendingAdds := A, pendingDeletions := D } : IPSet).Wants x ↔
      (x ∈ A ∨ x ∈ M) ∧ x ∉ D :=
  wants_of_delta hM hr

/-- A delta-mode turn of `AddMembers` adds its member to what the record wants. -/
theorem Wf.addMemberDelta_wants (h : ipSet.Wf) (hr : ipSet.pendingReplace = none)
    (ha : ipSet.addMemberDelta a = .ok ipSet') (x : String) :
    ipSet'.Wants x ↔ x = a ∨ ipSet.Wants x := by
  obtain ⟨M, hM⟩ := h.exists_members hr
  unfold IPSet.addMemberDelta at ha
  obtain ⟨M', hM', ha⟩ := bind_eq_ok ha
  rw [hM] at hM'
  cases hM'
  rw [wants_of_delta hM hr]
  -- the member's pending deletion is dropped; it is added unless it is programmed
  split_ifs at ha with hm <;> cases ha
  · rw [wants_with_deltas hM hr]
    by_cases hx : x = a
    · subst hx
      simp [hm]
    · simp [hx]
  · rw [wants_with_deltas hM hr]
    by_cases hx : x = a <;> simp [hx]

/-- A delta-mode turn of `RemoveMembers` takes its member from what the record wants. -/
theorem Wf.removeMemberDelta_wants (h : ipSet.Wf) (hr : ipSet.pendingReplace = none)
    (ha : ipSet.removeMemberDelta a = .ok ipSet') (x : String) :
    ipSet'.Wants x ↔ x ≠ a ∧ ipSet.Wants x := by
  obtain ⟨M, hM⟩ := h.exists_members hr
  unfold IPSet.removeMemberDelta at ha
  obtain ⟨M', hM', ha⟩ := bind_eq_ok ha
  rw [hM] at hM'
  cases hM'
  rw [wants_of_delta hM hr]
  -- the member's pending addition is dropped; its deletion is queued if it is programmed
  split_ifs at ha with hm <;> cases ha
  · rw [wants_with_deltas hM hr]
    by_cases hx : x = a <;> simp [hx]
  · rw [wants_with_deltas hM hr]
    by_cases hx : x = a
    · subst hx
      simp [hm]
    · simp [hx]

theorem Wf.foldlM_addMemberDelta_wants : ∀ (l : List String) {ipSet ipSet' : IPSet}, ipSet.Wf →
    ipSet.pendingReplace = none → l.foldlM IPSet.addMemberDelta ipSet = .ok ipSet' →
      ∀ x, ipSet'.Wants x ↔ x ∈ l ∨ ipSet.Wants x
  | [], _, _, _, _, hl => by
    cases hl
    simp
  | a :: l, _, _, h, hr, hl => by
    rw [List.foldlM_cons] at hl
    obtain ⟨ipSet₁, h₁, hl⟩ := bind_eq_ok hl
    obtain ⟨hk, hr₁⟩ := h.addMemberDelta hr h₁
    intro x
    rw [Wf.foldlM_addMemberDelta_wants l hk.wf hr₁ hl x, h.addMemberDelta_wants hr h₁ x,
      List.mem_cons]
    tauto

theorem Wf.foldlM_removeMemberDelta_wants : ∀ (l : List String) {ipSet ipSet' : IPSet}, ipSet.Wf →
    ipSet.pendingReplace = none → l.foldlM IPSet.removeMemberDelta ipSet = .ok ipSet' →
      ∀ x, ipSet'.Wants x ↔ x ∉ l ∧ ipSet.Wants x
  | [], _, _, _, _, hl => by
    cases hl
    simp
  | a :: l, _, _, h, hr, hl => by
    rw [List.foldlM_cons] at hl
    obtain ⟨ipSet₁, h₁, hl⟩ := bind_eq_ok hl
    obtain ⟨hk, hr₁⟩ := h.removeMemberDelta hr h₁
    intro x
    rw [Wf.foldlM_removeMemberDelta_wants l hk.wf hr₁ hl x, h.removeMemberDelta_wants hr h₁ x,
      List.mem_cons, not_or]
    tauto

/-- `AddMembers` adds its members to what a record wants, whether it goes into the pending
rewrite or into the deltas. -/
theorem Wf.addMembers_wants (h : ipSet.Wf) (ha : ipSet.addMembers C = .ok ipSet') (x : String) :
    ipSet'.Wants x ↔ x ∈ C ∨ ipSet.Wants x := by
  unfold IPSet.addMembers at ha
  cases hr : ipSet.pendingReplace with
  | some r =>
    rw [hr] at ha
    cases ha
    rw [wants_of_rewrite rfl, wants_of_rewrite hr, IterSet.mem_foldl_add, IterSet.mem_toList]
  | none =>
    rw [hr] at ha
    rw [Wf.foldlM_addMemberDelta_wants _ h hr ha x, IterSet.mem_toList]

/-- `RemoveMembers` takes its members from what a record wants. -/
theorem Wf.removeMembers_wants (h : ipSet.Wf) (ha : ipSet.removeMembers C = .ok ipSet')
    (x : String) : ipSet'.Wants x ↔ x ∉ C ∧ ipSet.Wants x := by
  unfold IPSet.removeMembers at ha
  cases hr : ipSet.pendingReplace with
  | some r =>
    rw [hr] at ha
    cases ha
    rw [wants_of_rewrite rfl, wants_of_rewrite hr, IterSet.mem_foldl_discard, IterSet.mem_toList]
  | none =>
    rw [hr] at ha
    rw [Wf.foldlM_removeMemberDelta_wants _ h hr ha x, IterSet.mem_toList]

end IPSet

namespace IPSets

variable {s s' : IPSets} {k : Kernel}

/-! ## The work of `ApplyUpdates` and `ApplyDeletions` keeps the records -/

/-- A change of state that keeps the configuration and the stored records' metadata: the same
IDs are stored, with the same types. -/
structure KeepsRecords (s s' : IPSets) : Prop where
  config : s'.ipVersionConfig = s.ipVersionConfig
  records : ∀ id, (s'.ipSetIDToIPSet.lookup id).map IPSet.toIPSetMetadata =
    (s.ipSetIDToIPSet.lookup id).map IPSet.toIPSetMetadata

theorem KeepsRecords.refl (s : IPSets) : KeepsRecords s s := ⟨rfl, fun _ => rfl⟩

theorem KeepsRecords.trans {s'' : IPSets} (h₁ : KeepsRecords s s') (h₂ : KeepsRecords s' s'') :
    KeepsRecords s s'' :=
  ⟨h₂.config.trans h₁.config, fun id => (h₂.records id).trans (h₁.records id)⟩

/-- A state with the configuration and records of another keeps its records. -/
theorem KeepsRecords.of_maps (hc : s'.ipVersionConfig = s.ipVersionConfig)
    (hi : s'.ipSetIDToIPSet = s.ipSetIDToIPSet) : KeepsRecords s s' :=
  ⟨hc, fun id => by rw [hi]⟩

/-- Replacing a stored record by one with its metadata keeps the records. -/
theorem KeepsRecords.of_insert {id : String} {ipSet ipSet' : IPSet}
    (hc : s'.ipVersionConfig = s.ipVersionConfig)
    (hi : s'.ipSetIDToIPSet = s.ipSetIDToIPSet.insert id ipSet')
    (hl : s.ipSetIDToIPSet.lookup id = some ipSet)
    (hm : ipSet'.toIPSetMetadata = ipSet.toIPSetMetadata) : KeepsRecords s s' := by
  refine ⟨hc, fun y => ?_⟩
  rw [hi]
  by_cases hy : y = id
  · subst hy
    rw [AList.lookup_insert, hl, Option.map_some, Option.map_some, hm]
  · rw [AList.lookup_insert_ne hy]

theorem Wf.resyncListedSet_keepsRecords (hs : s.Wf) {listed : String × List String}
    (h : s.resyncListedSet listed = .ok s') : KeepsRecords s s' := by
  rcases resyncListedSet_cases h with rfl | ⟨id, ipSet, M, dp, hb, hM, -, rfl⟩
  · exact .of_maps rfl rfl
  · obtain ⟨-, hl⟩ := ipSetByMainName_eq_some.mp hb
    obtain ⟨hframe, -⟩ := IPSet.resyncWith_spec (hs.stored id ipSet hl).1 hM dp s.dirtyIPSetIDs
    exact .of_insert rfl rfl hl hframe.meta_eq

theorem Wf.tryResync_keepsRecords (hs : s.Wf) (h : s.tryResync k = .ok s') :
    KeepsRecords s s' := by
  unfold IPSets.tryResync at h
  obtain ⟨s₁, h₁, h⟩ := bind_eq_ok h
  cases h
  -- each listed set keeps the records, and the state well formed for the next one
  have hs₁ : KeepsRecords s s₁ ∧ s₁.Wf :=
    foldlM_ok_induction (fun t : IPSets => KeepsRecords s t ∧ t.Wf)
      (fun _ _ _ ht hstep => ⟨ht.1.trans (ht.2.resyncListedSet_keepsRecords hstep),
        (ht.2.resyncListedSet hstep).wf⟩)
      (s := { s with existingIPSetNames := ∅ }) ⟨.of_maps rfl rfl, hs.of_maps rfl rfl rfl hs.dirty_known⟩
      h₁
  obtain ⟨t, p, hq⟩ := foldl_queueLeftOver_eq s₁.expectedIPSets s₁.existingIPSetNames.toList s₁
  rw [hq]
  exact hs₁.1.trans (.of_maps rfl rfl)

theorem Wf.deleteIPSet_keepsRecords (hs : s.Wf) {n : String} {r : IPSets × Kernel × Bool}
    (h : s.deleteIPSet k n = .ok r) : KeepsRecords s r.1 := by
  unfold IPSets.deleteIPSet at h
  split at h
  · cases h
    exact .refl s
  · dsimp only at h
    split at h
    · rename_i id ipSet hb
      obtain ⟨ipSet', ha, h⟩ := bind_eq_ok h
      cases h
      obtain ⟨-, hl⟩ := ipSetByMainName_eq_some.mp hb
      -- the destroyed set's record is rebuilt with its metadata
      obtain ⟨hkeep, -⟩ := (hs.stored id ipSet hl).1.rewriteAfterDeletion ha
      exact .of_insert rfl rfl hl hkeep.meta_eq
    · cases h
      exact .of_maps rfl rfl

/-- A loop of deletions, each keeping the records and the state well formed. -/
theorem keepsRecords_foldlM {f : IPSets × Kernel → String → Except String (IPSets × Kernel)}
    (hf : ∀ st n st', st.1.Wf → f st n = .ok st' → KeepsWants st.1 st'.1 ∧ KeepsRecords st.1 st'.1)
    (hs : s.Wf) {l : List String} {st : IPSets × Kernel} (h : l.foldlM f (s, k) = .ok st) :
    KeepsRecords s st.1 :=
  (foldlM_ok_induction (fun st : IPSets × Kernel => KeepsRecords s st.1 ∧ st.1.Wf)
    (fun _ n _ ht hstep => ⟨ht.1.trans (hf _ n _ ht.2 hstep).2, (hf _ n _ ht.2 hstep).1.wf⟩)
    ⟨.refl s, hs⟩ h).1

theorem Wf.tryTempIPSetDeletion_keepsRecords {st st' : IPSets × Kernel} (hs : st.1.Wf)
    {n : String} (h : IPSets.tryTempIPSetDeletion st n = .ok st') : KeepsRecords st.1 st'.1 := by
  obtain ⟨s, k⟩ := st
  dsimp only [IPSets.tryTempIPSetDeletion] at h hs ⊢
  split_ifs at h
  · obtain ⟨⟨s₁, k₁, ok⟩, hd, h⟩ := bind_eq_ok h
    cases h
    have h₁ := hs.deleteIPSet_keepsRecords hd
    cases ok
    · exact h₁
    · exact h₁.trans (.of_maps rfl rfl)
  · cases h
    exact .refl s

theorem Wf.applyDeletion_keepsRecords {st st' : IPSets × Kernel} (hs : st.1.Wf) {n : String}
    (h : IPSets.applyDeletion st n = .ok st') : KeepsRecords st.1 st'.1 := by
  obtain ⟨s, k⟩ := st
  dsimp only [IPSets.applyDeletion] at h hs ⊢
  split_ifs at h
  · obtain ⟨⟨s₁, k₁, ok⟩, hd, h⟩ := bind_eq_ok h
    cases h
    exact hs.deleteIPSet_keepsRecords hd
  · cases h
    exact .refl s

theorem Wf.tryTempIPSetDeletions_keepsRecords (hs : s.Wf) {r : IPSets × Kernel}
    (h : s.tryTempIPSetDeletions k = .ok r) : KeepsRecords s r.1 := by
  unfold IPSets.tryTempIPSetDeletions at h
  obtain ⟨⟨s₁, k₁⟩, h₁, h⟩ := bind_eq_ok h
  cases h
  have hs₁ := keepsRecords_foldlM
    (fun _ _ _ ht hstep => ⟨ht.tryTempIPSetDeletion hstep, ht.tryTempIPSetDeletion_keepsRecords hstep⟩)
    hs h₁
  exact hs₁.trans (.of_maps rfl rfl)

theorem Wf.applyDeletions_keepsRecords (hs : s.Wf) {r : IPSets × Kernel}
    (h : s.applyDeletions k = .ok r) : KeepsRecords s r.1 := by
  unfold IPSets.applyDeletions at h
  obtain ⟨⟨s₁, k₁⟩, h₁, h⟩ := bind_eq_ok h
  cases h
  have hs₁ := keepsRecords_foldlM
    (fun _ _ _ ht hstep => ⟨ht.applyDeletion hstep, ht.applyDeletion_keepsRecords hstep⟩) hs h₁
  exact hs₁.trans (.of_maps rfl rfl)

theorem Wf.markProgrammed_keepsRecords (hs : s.Wf) {id : String}
    (h : s.markProgrammed id = .ok s') : KeepsRecords s s' := by
  rcases markProgrammed_cases h with rfl | ⟨-, ipSet, p, hl, hp, rfl⟩
  · exact .refl _
  · obtain ⟨hk, -⟩ := (hs.stored id ipSet hl).1.markProgrammed hp
    exact .of_insert rfl rfl hl hk.meta_eq

theorem Wf.tryUpdates_keepsRecords (hs : s.Wf) {r : IPSets × Kernel × Bool}
    (h : s.tryUpdates k = .ok r) : KeepsRecords s r.1 := by
  unfold IPSets.tryUpdates at h
  split_ifs at h
  · cases h
    exact .refl s
  · obtain ⟨⟨lines, s₁⟩, h₁, h⟩ := bind_eq_ok h
    -- writing the updates only moves the temporary set index on
    obtain ⟨n, hn⟩ := foldlM_writeDirty_snd s h₁
    dsimp only at hn
    subst hn
    have hs₁ : KeepsRecords s { s with nextTempIPSetIdx := n } := .of_maps rfl rfl
    have hwf₁ : IPSets.Wf { s with nextTempIPSetIdx := n } := hs.of_maps rfl rfl rfl hs.dirty_known
    rcases hr : k.restore (lines ++ [.commit]) with ⟨k', ok⟩
    dsimp only at h
    rw [hr] at h
    cases ok
    · cases h
      exact hs₁
    · obtain ⟨s₂, h₂, h⟩ := bind_eq_ok h
      cases h
      exact (foldlM_ok_induction (fun t => KeepsRecords s t ∧ t.Wf)
        (fun _ _ _ ht hstep => ⟨ht.1.trans (ht.2.markProgrammed_keepsRecords hstep),
          (ht.2.markProgrammed hstep).wf⟩) ⟨hs₁, hwf₁⟩ h₂).1

theorem Wf.applyUpdatesAttempt_keepsRecords (hs : s.Wf) {r : IPSets × Kernel × Bool}
    (h : s.applyUpdatesAttempt k = .ok r) : KeepsRecords s r.1 := by
  -- a resync if one is required, then the early deletions and the updates
  have hrest : ∀ s₀ : IPSets, s₀.Wf → KeepsRecords s s₀ → (do
      let p ← s₀.tryTempIPSetDeletions k
      let q ← p.1.tryUpdates p.2
      pure (if q.2.2 then q.1 else { q.1 with resyncRequired := true }, q.2.1, q.2.2)) =
        Except.ok r → KeepsRecords s r.1 := by
    intro s₀ hs₀ hk₀ h
    obtain ⟨⟨s₁, k₁⟩, h₁, h⟩ := bind_eq_ok h
    have hs₁ := hs₀.tryTempIPSetDeletions h₁
    obtain ⟨⟨s₂, k₂, ok⟩, h₂, h⟩ := bind_eq_ok h
    have hk₂ := (hk₀.trans (hs₀.tryTempIPSetDeletions_keepsRecords h₁)).trans
      (hs₁.wf.tryUpdates_keepsRecords h₂)
    cases h
    cases ok
    · exact hk₂.trans (.of_maps rfl rfl)
    · exact hk₂
  unfold IPSets.applyUpdatesAttempt at h
  dsimp only at h
  split_ifs at h
  · obtain ⟨s₁, h₁, h⟩ := bind_eq_ok h
    obtain ⟨s₀, h₀, rfl⟩ := map_eq_ok h₁
    have hs₀ := hs.tryResync h₀
    exact hrest { s₀ with resyncRequired := false } (hs₀.wf.of_maps rfl rfl rfl hs₀.wf.dirty_known)
      ((hs.tryResync_keepsRecords h₀).trans (.of_maps rfl rfl)) h
  · exact hrest s hs (.refl s) h

/-- `ApplyUpdates` keeps the configuration and the records, however many attempts it makes. -/
theorem Wf.applyUpdatesFrom_keepsRecords : ∀ {n : ℕ} {s : IPSets} {k : Kernel}
    {r : IPSets × Kernel}, s.Wf → s.applyUpdatesFrom n k = .ok r → KeepsRecords s r.1
  | 0, _, _, _, _, h => by cases h
  | n + 1, s, k, r, hs, h => by
    rw [IPSets.applyUpdatesFrom] at h
    obtain ⟨⟨s₁, k₁, ok⟩, h₁, h⟩ := bind_eq_ok h
    have hk₁ := hs.applyUpdatesAttempt_keepsRecords h₁
    cases ok
    · exact hk₁.trans ((hs.applyUpdatesAttempt h₁).wf.applyUpdatesFrom_keepsRecords h)
    · cases h
      exact hk₁

/-- Canonicalising members reads only the configuration. -/
theorem filterAndCanonicaliseMembers_of_config {c : IPVersionConfig} (hc : s.ipVersionConfig = c) :
    s.filterAndCanonicaliseMembers = (newIPSets c).filterAndCanonicaliseMembers := by
  unfold IPSets.filterAndCanonicaliseMembers
  rw [hc]
  rfl

end IPSets

/-! ## What the calls ask of a set -/

/-- What the calls of a run ask of the IP set with ID `setID`, from a manager made with
configuration `c`: the type and the canonical members of its last `AddOrReplaceIPSet`, with
each later `AddMembers` and `RemoveMembers` applied in order; nothing before its first
`AddOrReplaceIPSet` or after a `RemoveIPSet`. The other calls ask nothing of it. A call whose
members cannot be canonicalised panics in the code; its request is taken as nothing. -/
def Event.request (c : IPVersionConfig) (setID : String) (r : Option (IPSetType × Set String)) :
    Event → Option (IPSetType × Set String)
  | .addOrReplaceIPSet m members =>
    if m.setID = setID then
      match (newIPSets c).filterAndCanonicaliseMembers m.type members with
      | .ok C => some (m.type, {x | x ∈ C})
      | .error _ => none
    else r
  | .addMembers id members =>
    if id = setID then
      r.bind fun (t, R) =>
        match (newIPSets c).filterAndCanonicaliseMembers t members with
        | .ok C => some (t, R ∪ {x | x ∈ C})
        | .error _ => none
    else r
  | .removeMembers id members =>
    if id = setID then
      r.bind fun (t, R) =>
        match (newIPSets c).filterAndCanonicaliseMembers t members with
        | .ok C => some (t, R \ {x | x ∈ C})
        | .error _ => none
    else r
  | .removeIPSet id => if id = setID then none else r
  | _ => r
attribute [grind] Event.request

/-- `GetMembers`' result answers a request: it gives the members asked for, or fails when
nothing is asked. -/
def Answers : Except String (IterSet String) → Option (IPSetType × Set String) → Prop
  | .ok ms, some (_, R) => ∀ x, x ∈ ms ↔ x ∈ R
  | .error _, none => True
  | _, _ => False
attribute [grind] Answers

namespace IPSets

variable {s s' : IPSets} {setID : String} {r : Option (IPSetType × Set String)}
  {c : IPVersionConfig}

/-- The manager's record of a set fulfils what is asked of it: no record when nothing is
asked, and otherwise a record of the type asked for that wants the members asked for. -/
def Fulfils (s : IPSets) (setID : String) : Option (IPSetType × Set String) → Prop
  | none => setID ∉ s.ipSetIDToIPSet
  | some (t, R) => ∃ ipSet, s.ipSetIDToIPSet.lookup setID = some ipSet ∧ ipSet.type = t ∧
      ∀ x, ipSet.Wants x ↔ x ∈ R
attribute [grind] Fulfils

/-- Whether a set's request is fulfilled depends only on the record stored for it. -/
theorem Fulfils.of_lookup (h : s.Fulfils setID r)
    (hl : s'.ipSetIDToIPSet.lookup setID = s.ipSetIDToIPSet.lookup setID) : s'.Fulfils setID r := by
  match r, h with
  | none, h => exact fun hm => h (AList.lookup_isSome.mp (hl ▸ AList.lookup_isSome.mpr hm))
  | some _, ⟨ipSet, hi, ht, hw⟩ => exact ⟨ipSet, hl.trans hi, ht, hw⟩

/-- A well-formed state's `GetMembers` answers what its records agree with. -/
theorem Fulfils.answers (hs : s.Wf) (h : s.Fulfils setID r) : Answers (s.getMembers setID) r := by
  match r, h with
  | none, h =>
    have hl : s.ipSetIDToIPSet.lookup setID = none := AList.lookup_eq_none.mpr h
    simp [getMembers, hl, Answers]
  | some (t, R), ⟨ipSet, hi, _, hw⟩ =>
    obtain ⟨ms, hms⟩ := (hs.stored setID ipSet hi).1.getMembers_ok
    have hg : s.getMembers setID = .ok ms := by simp [getMembers, hi, hms]
    rw [hg]
    intro x
    rw [← hw x]
    -- the record wants exactly what its `GetMembers` gives
    constructor
    · intro hx
      exact ⟨ms, hms, hx⟩
    · rintro ⟨ms', h', hx⟩
      rw [hms] at h'
      cases h'
      exact hx

/-- The work of `ApplyUpdates` and `ApplyDeletions` keeps the requests fulfilled. -/
theorem Fulfils.of_keeps (h : s.Fulfils setID r) (hw : KeepsWants s s') (hk : KeepsRecords s s') :
    s'.Fulfils setID r := by
  have hrec := hk.records setID
  match r, h with
  | none, h =>
    have hl : s.ipSetIDToIPSet.lookup setID = none := AList.lookup_eq_none.mpr h
    rw [hl, Option.map_none, Option.map_eq_none_iff] at hrec
    exact AList.lookup_eq_none.mp hrec
  | some (t, R), ⟨ipSet, hi, ht, hwant⟩ =>
    rw [hi, Option.map_some, Option.map_eq_some_iff] at hrec
    obtain ⟨ipSet', hi', hm⟩ := hrec
    refine ⟨ipSet', hi', by rw [← ht]; exact congrArg IPSetMetadata.type hm, fun x => ?_⟩
    -- what the stored record wants is what the state wants of the set
    have hw' := hw.wants setID x
    rw [wants_iff, wants_iff] at hw'
    simp only [hi, hi', Option.some.injEq, exists_eq_left'] at hw'
    exact hw'.trans (hwant x)

/-! ## Each call changes the record as it changes the request -/

theorem Fulfils.addOrReplaceIPSet (h : s.Fulfils setID r) (hc : s.ipVersionConfig = c)
    {m : IPSetMetadata} {members : List String} (h' : s.addOrReplaceIPSet m members = .ok s') :
    s'.Fulfils setID ((Event.addOrReplaceIPSet m members).request c setID r) := by
  unfold IPSets.addOrReplaceIPSet at h'
  obtain ⟨C, hC, h'⟩ := bind_eq_ok h'
  cases h'
  simp only [Event.request]
  split_ifs with hid
  · -- the set's record is replaced by a pending rewrite of the canonical members
    rw [← filterAndCanonicaliseMembers_of_config hc, hC]
    subst hid
    exact ⟨_, AList.lookup_insert _, rfl, fun x => IPSet.wants_of_rewrite rfl⟩
  · exact h.of_lookup (AList.lookup_insert_ne (Ne.symm hid))

/-- What `AddMembers` can do: nothing, when no member is of this IP version, or replace the
set's record by one with the canonical members added. -/
theorem addMembers_cases {id : String} {members : List String}
    (h : s.addMembers id members = .ok s') :
    ∃ ipSet C, s.ipSetIDToIPSet.lookup id = some ipSet ∧
      s.filterAndCanonicaliseMembers ipSet.type members = .ok C ∧
      (C.toList = [] ∧ s' = s ∨ ∃ ipSet', ipSet.addMembers C = .ok ipSet' ∧
        s' = { s.setIPSet id ipSet' with dirtyIPSetIDs := s.dirtyIPSetIDs.add id }) := by
  unfold IPSets.addMembers at h
  cases hl : s.ipSetIDToIPSet.lookup id with
  | none =>
    rw [hl] at h
    cases h
  | some ipSet =>
    rw [hl] at h
    obtain ⟨C, hC, h⟩ := bind_eq_ok h
    refine ⟨ipSet, C, rfl, hC, ?_⟩
    split_ifs at h with hempty
    · cases h
      exact .inl ⟨hempty, rfl⟩
    · obtain ⟨ipSet', ha, h⟩ := bind_eq_ok h
      cases h
      exact .inr ⟨ipSet', ha, rfl⟩

/-- What `RemoveMembers` can do. -/
theorem removeMembers_cases {id : String} {members : List String}
    (h : s.removeMembers id members = .ok s') :
    ∃ ipSet C, s.ipSetIDToIPSet.lookup id = some ipSet ∧
      s.filterAndCanonicaliseMembers ipSet.type members = .ok C ∧
      (C.toList = [] ∧ s' = s ∨ ∃ ipSet', ipSet.removeMembers C = .ok ipSet' ∧
        s' = { s.setIPSet id ipSet' with dirtyIPSetIDs := s.dirtyIPSetIDs.add id }) := by
  unfold IPSets.removeMembers at h
  cases hl : s.ipSetIDToIPSet.lookup id with
  | none =>
    rw [hl] at h
    cases h
  | some ipSet =>
    rw [hl] at h
    obtain ⟨C, hC, h⟩ := bind_eq_ok h
    refine ⟨ipSet, C, rfl, hC, ?_⟩
    split_ifs at h with hempty
    · cases h
      exact .inl ⟨hempty, rfl⟩
    · obtain ⟨ipSet', ha, h⟩ := bind_eq_ok h
      cases h
      exact .inr ⟨ipSet', ha, rfl⟩

/-- A call on one set's members that leaves the state, or replaces that set's record, keeps
every other set's record. -/
theorem lookup_of_cases {id : String} (hne : setID ≠ id)
    (h : s' = s ∨ ∃ ipSet', s' = { s.setIPSet id ipSet' with dirtyIPSetIDs := s.dirtyIPSetIDs.add id }) :
    s'.ipSetIDToIPSet.lookup setID = s.ipSetIDToIPSet.lookup setID := by
  rcases h with rfl | ⟨ipSet', rfl⟩
  · rfl
  · exact AList.lookup_insert_ne hne

/-- A request for a held set: the record is stored, of the type asked for, and wants the
members asked for. -/
theorem Fulfils.held (h : s.Fulfils setID r) {ipSet : IPSet}
    (hl : s.ipSetIDToIPSet.lookup setID = some ipSet) :
    ∃ R, r = some (ipSet.type, R) ∧ ∀ x, ipSet.Wants x ↔ x ∈ R := by
  match r, h with
  | none, h => exact absurd (AList.lookup_isSome.mp (by rw [hl]; rfl)) h
  | some (t, R), ⟨ipSet₀, hi, ht, hw⟩ =>
    rw [hl, Option.some.injEq] at hi
    subst hi ht
    exact ⟨R, rfl, hw⟩

theorem Fulfils.addMembers (hs : s.Wf) (h : s.Fulfils setID r) (hc : s.ipVersionConfig = c)
    {id : String} {members : List String} (h' : s.addMembers id members = .ok s') :
    s'.Fulfils setID ((Event.addMembers id members).request c setID r) := by
  obtain ⟨ipSet, C, hl, hC, hcases⟩ := addMembers_cases h'
  simp only [Event.request]
  split_ifs with hid
  swap
  · -- a call on another set
    refine h.of_lookup (lookup_of_cases (Ne.symm hid) ?_)
    rcases hcases with ⟨-, rfl⟩ | ⟨ipSet', -, rfl⟩
    · exact .inl rfl
    · exact .inr ⟨ipSet', rfl⟩
  subst hid
  obtain ⟨R, rfl, hw⟩ := h.held hl
  rw [Option.bind_some]
  dsimp only
  rw [← filterAndCanonicaliseMembers_of_config hc, hC]
  rcases hcases with ⟨hempty, rfl⟩ | ⟨ipSet', ha, rfl⟩
  · -- nothing of this IP version to add
    refine ⟨ipSet, hl, rfl, fun x => ?_⟩
    have hx : x ∉ C := fun hx => by
      rw [← IterSet.mem_toList, hempty] at hx
      cases hx
    rw [hw x, Set.mem_union, Set.mem_ofPred_eq]
    exact (or_iff_left hx).symm
  · have hwf := (hs.stored id ipSet hl).1
    refine ⟨ipSet', AList.lookup_insert _, congrArg IPSetMetadata.type (hwf.addMembers ha).meta_eq,
      fun x => ?_⟩
    rw [hwf.addMembers_wants ha x, hw x, Set.mem_union, Set.mem_ofPred_eq, or_comm]

theorem Fulfils.removeMembers (hs : s.Wf) (h : s.Fulfils setID r) (hc : s.ipVersionConfig = c)
    {id : String} {members : List String} (h' : s.removeMembers id members = .ok s') :
    s'.Fulfils setID ((Event.removeMembers id members).request c setID r) := by
  obtain ⟨ipSet, C, hl, hC, hcases⟩ := removeMembers_cases h'
  simp only [Event.request]
  split_ifs with hid
  swap
  · -- a call on another set
    refine h.of_lookup (lookup_of_cases (Ne.symm hid) ?_)
    rcases hcases with ⟨-, rfl⟩ | ⟨ipSet', -, rfl⟩
    · exact .inl rfl
    · exact .inr ⟨ipSet', rfl⟩
  subst hid
  obtain ⟨R, rfl, hw⟩ := h.held hl
  rw [Option.bind_some]
  dsimp only
  rw [← filterAndCanonicaliseMembers_of_config hc, hC]
  rcases hcases with ⟨hempty, rfl⟩ | ⟨ipSet', ha, rfl⟩
  · -- nothing of this IP version to remove
    refine ⟨ipSet, hl, rfl, fun x => ?_⟩
    have hx : x ∉ C := fun hx => by
      rw [← IterSet.mem_toList, hempty] at hx
      cases hx
    rw [hw x, Set.mem_sdiff, Set.mem_ofPred_eq]
    exact (and_iff_left hx).symm
  · have hwf := (hs.stored id ipSet hl).1
    refine ⟨ipSet', AList.lookup_insert _,
      congrArg IPSetMetadata.type (hwf.removeMembers ha).meta_eq, fun x => ?_⟩
    rw [hwf.removeMembers_wants ha x, hw x, Set.mem_sdiff, Set.mem_ofPred_eq, and_comm]

theorem Fulfils.removeIPSet (h : s.Fulfils setID r) (id : String) :
    (s.removeIPSet id).Fulfils setID ((Event.removeIPSet id).request c setID r) := by
  simp only [Event.request]
  split_ifs with hid
  · subst hid
    simp [Fulfils, IPSets.removeIPSet, AList.mem_erase]
  · exact h.of_lookup (AList.lookup_erase_ne (Ne.symm hid))

/-! ## Runs -/

/-- Every event keeps the configuration, and changes what the records agree with as it changes
what is asked. -/
theorem Fulfils.eventApply {st st' : IPSets × Kernel} (hs : st.1.Wf)
    (hc : st.1.ipVersionConfig = c) (h : st.1.Fulfils setID r) {e : Event}
    (hstep : Event.apply st e = .ok st') :
    st'.1.ipVersionConfig = c ∧ st'.1.Fulfils setID (e.request c setID r) := by
  obtain ⟨s, k⟩ := st
  cases e with
  | addOrReplaceIPSet m members =>
    obtain ⟨s', h', rfl⟩ := map_eq_ok hstep
    refine ⟨?_, h.addOrReplaceIPSet hc h'⟩
    unfold IPSets.addOrReplaceIPSet at h'
    obtain ⟨C, -, h'⟩ := bind_eq_ok h'
    cases h'
    exact hc
  | addMembers id members =>
    obtain ⟨s', h', rfl⟩ := map_eq_ok hstep
    refine ⟨?_, h.addMembers hs hc h'⟩
    obtain ⟨_, _, -, -, ⟨-, rfl⟩ | ⟨_, -, rfl⟩⟩ := addMembers_cases h' <;> exact hc
  | removeMembers id members =>
    obtain ⟨s', h', rfl⟩ := map_eq_ok hstep
    refine ⟨?_, h.removeMembers hs hc h'⟩
    obtain ⟨_, _, -, -, ⟨-, rfl⟩ | ⟨_, -, rfl⟩⟩ := removeMembers_cases h' <;> exact hc
  | removeIPSet id =>
    cases hstep
    exact ⟨hc, h.removeIPSet id⟩
  | setFilter ipSetNames =>
    cases hstep
    exact ⟨hc, h.of_lookup rfl⟩
  | queueResync =>
    cases hstep
    exact ⟨hc, h.of_lookup rfl⟩
  | applyUpdates =>
    have hk := hs.applyUpdatesFrom_keepsRecords hstep
    exact ⟨hk.config.trans hc, h.of_keeps (hs.applyUpdatesFrom hstep) hk⟩
  | applyDeletions =>
    have hk := hs.applyDeletions_keepsRecords hstep
    exact ⟨hk.config.trans hc, h.of_keeps (hs.applyDeletions hstep) hk⟩
  | kernelChanged f =>
    cases hstep
    exact ⟨hc, h⟩

/-- A run changes what the records agree with as its calls change what is asked. -/
theorem Fulfils.runFrom : ∀ (events : List Event) {s s' : IPSets} {k k' : Kernel}
    {r : Option (IPSetType × Set String)}, s.Wf → s.ipVersionConfig = c → s.Fulfils setID r →
      Ipsets.runFrom (s, k) events = .ok (s', k') →
        s'.Fulfils setID (events.foldl (Event.request c setID) r)
  | [], _, _, _, _, _, _, _, h, hrun => by
    cases hrun
    exact h
  | e :: events, _, _, _, _, _, hs, hc, h, hrun => by
    unfold Ipsets.runFrom at hrun
    rw [List.foldlM_cons] at hrun
    obtain ⟨⟨s₁, k₁⟩, h₁, hrun⟩ := bind_eq_ok hrun
    obtain ⟨hc₁, h₁'⟩ := h.eventApply hs hc h₁
    exact Fulfils.runFrom events (hs.eventApply h₁) hc₁ h₁' hrun

end IPSets

theorem ipSets_getMembers_requested {c : IPVersionConfig} {k₀ k : Kernel} {events : List Event}
    {s : IPSets} (h : runFrom (newIPSets c, k₀) events = .ok (s, k)) (setID : String) :
    Answers (s.getMembers setID) (events.foldl (Event.request c setID) none) ∧
      ∀ ipSet, s.ipSetIDToIPSet.lookup setID = some ipSet → ipSet.pendingReplace = none →
        ∃ M, ipSet.members = some M ∧ (∀ x ∈ ipSet.pendingAdds, x ∉ M) ∧
          (∀ x ∈ ipSet.pendingDeletions, x ∈ M) ∧
          ∀ x ∈ ipSet.pendingAdds, x ∉ ipSet.pendingDeletions := by
  have hs : s.Wf := (IPSets.wf_newIPSets c).runFrom h
  have hnew : (newIPSets c).Fulfils setID none := by simp [IPSets.Fulfils, newIPSets]
  refine ⟨(hnew.runFrom events (IPSets.wf_newIPSets c) rfl h).answers hs, fun ipSet hl hr => ?_⟩
  -- in delta mode the additions are not programmed and the deletions are
  have hwf := (hs.stored setID ipSet hl).1
  obtain ⟨M, hM⟩ := hwf.exists_members hr
  exact ⟨M, hM, hwf.adds_fresh M hM, hwf.dels_programmed M hM,
    fun x hx hd => hwf.adds_fresh M hM x hx (hwf.dels_programmed M hM x hd)⟩

/-- Set `s:abc` is created with two members, programmed, then given a new member and losing an
old one before the next update. -/
def deltasBeforeUpdate : List Event :=
  [.addOrReplaceIPSet ⟨"s:abc", .hashIP, 1048576⟩ ["10.0.0.1", "10.0.0.2"], .applyUpdates,
    .addMembers "s:abc" ["10.0.0.3"], .removeMembers "s:abc" ["10.0.0.1"]]

theorem ipSets_getMembers_requested_deltas :
    ∃ s k, runFrom (newIPSets resyncConfig, ∅) deltasBeforeUpdate = .ok (s, k) ∧
      Answers (s.getMembers "s:abc") (deltasBeforeUpdate.foldl (Event.request resyncConfig "s:abc") none) ∧
      ∀ ipSet, s.ipSetIDToIPSet.lookup "s:abc" = some ipSet → ipSet.pendingReplace = none →
        ∃ M, ipSet.members = some M ∧ (∀ x ∈ ipSet.pendingAdds, x ∉ M) ∧
          (∀ x ∈ ipSet.pendingDeletions, x ∈ M) ∧
          ∀ x ∈ ipSet.pendingAdds, x ∉ ipSet.pendingDeletions :=
  ⟨_, _, rfl, ipSets_getMembers_requested
    (rfl : runFrom (newIPSets resyncConfig, ∅) deltasBeforeUpdate = _) "s:abc"⟩

end Felix.Ipsets
