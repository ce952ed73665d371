import Felix.Calc.SequencerView

/-!
# The phases of `Flush`, as Hoare triples

`Flush` runs nine loops one after the other. For each loop this module gives the rule that
the proofs about whole flushes use: an invariant that every turn of the loop keeps, between
the sequencer and a consumer of its messages, holds when the loop ends, together with what
the loop has drained. The consumer is left open, as any `take` on any state type: the
simulation proof uses the mock dataplane's checks, and the dependency-safety proof a
consumer that refuses to enter a state that is not referentially closed.

The buffer loops are instances of `triple_flushUpdates` and `triple_flushDeletes` through
the lenses `policiesLens`, `profilesLens` and `endpointsLens`. The IP set loops have rules of
their own: a turn of `flushIPSetDeltas` sends and discards all member changes of one set,
so its loops are proved over the sets with changes, not over the pending pairs.

## Main results

* `triple_flushAddedIPSets`, `triple_flushIPSetDeltas`, `triple_flushRemovedIPSets`
* `triple_flushPolicyUpdates`, `triple_flushProfileUpdates`,
  `triple_flushEndpointTierUpdates`, and the three deletion loops
-/

namespace Felix.Calc

open Replication

variable {P : Payloads}

namespace EventSequencer

/-- The policy buffer, as a component of the sequencer's state. -/
def policiesLens : Lens (EventSequencer P) (Buffer P.PolicyKey P.Rules) where
  get b := b.policies
  set b x := { b with policies := x }
  get_set _ _ := rfl
  set_set _ _ _ := rfl
  set_get _ := rfl

/-- The profile buffer, as a component of the sequencer's state. -/
def profilesLens : Lens (EventSequencer P) (Buffer P.ProfileKey P.Rules) where
  get b := b.profiles
  set b x := { b with profiles := x }
  get_set _ _ := rfl
  set_set _ _ _ := rfl
  set_get _ := rfl

/-- The endpoint buffer, as a component of the sequencer's state. -/
def endpointsLens : Lens (EventSequencer P) (Buffer P.EndpointKey (P.Endpoint × P.Tiers)) where
  get b := b.endpoints
  set b x := { b with endpoints := x }
  get_set _ _ := rfl
  set_set _ _ _ := rfl
  set_get _ := rfl

/-- No IP set has a pending addition or pending member changes: what the first two phases
of a flush leave. -/
def IPSetsSettled (b : EventSequencer P) : Prop :=
  ∀ s, (b.setView s).added = none ∧ (b.setView s).addedMembers = ∅ ∧
    (b.setView s).removedMembers = ∅

/-- No update is queued in the three buffers: what the update phases leave. -/
def UpdatesSent (b : EventSequencer P) : Prop :=
  (∀ k, k ∉ b.policies.pendingUpdates) ∧ (∀ k, k ∉ b.profiles.pendingUpdates) ∧
    ∀ k, k ∉ b.endpoints.pendingUpdates

/-- No deletion is queued in the three buffers: what the deletion phases leave. -/
def DeletesSent (b : EventSequencer P) : Prop :=
  (∀ k, k ∉ b.endpoints.pendingDeletes) ∧ (∀ k, k ∉ b.profiles.pendingDeletes) ∧
    ∀ k, k ∉ b.policies.pendingDeletes

/-- `Flush` is its nine phases, grouped as the proofs about it group them: the IP set
additions and deltas, the updates, the deletions, and the IP set removals. -/
theorem flush_eq_phases (buf : EventSequencer P) :
    buf.flush = emitSeq (emitSeq flushAddedIPSets flushIPSetDeltas)
      (emitSeq (emitSeq flushPolicyUpdates (emitSeq flushProfileUpdates flushEndpointTierUpdates))
        (emitSeq (emitSeq flushEndpointTierDeletes (emitSeq flushProfileDeletes flushPolicyDeletes))
          flushRemovedIPSets)) buf := by
  simp [flush, flushAdditions, flushRemovals, emitSeq]

/-- A delta leaves every record's pending addition as it was. -/
theorem added_flushAddsOrRemoves {b : EventSequencer P} (h : ∀ s, (b.setView s).added = none)
    (s s' : P.SetID) : ((b.flushAddsOrRemoves s).1.setView s').added = none := by
  rw [setView_flushAddsOrRemoves]
  split_ifs
  · exact h s'
  · exact h s'

/-- A removal leaves the removed set's record with nothing pending, and the others alone. -/
theorem IPSetsSettled.flushRemovedIPSet {b : EventSequencer P} (h : IPSetsSettled b)
    (s : P.SetID) : IPSetsSettled (b.flushRemovedIPSet s).1 := by
  intro s'
  rw [setView_flushRemovedIPSet]
  split_ifs
  · exact ⟨(h s').1, rfl, rfl⟩
  · exact h s'

variable {δ : Type*} {take : δ → Message P → Option δ} (inv : EventSequencer P → δ → Prop)

/-! ## The IP set loops -/

/-- **`flushAddedIPSets`**: each turn sends one set whose addition is pending; after the
loop no addition is pending. -/
theorem triple_flushAddedIPSets
    (hturn : ∀ b d s t, inv b d → b.pendingAddedIPSets.lookup s = some t →
      ∃ d', take d (b.flushAddedIPSet ⟨s, t⟩).2 = some d' ∧ inv (b.flushAddedIPSet ⟨s, t⟩).1 d') :
    Triple take inv flushAddedIPSets (fun b d => inv b d ∧ ∀ s, (b.setView s).added = none) := by
  intro b d hb
  -- the loop runs over the additions pending when it starts, each turn taking the first off
  have hbody : ∀ (e : Σ _ : P.SetID, P.SetType) xs b d,
      (inv b d ∧ b.pendingAddedIPSets.entries = e :: xs) →
      ∃ d', take d (b.flushAddedIPSet e).2 = some d' ∧
        (inv (b.flushAddedIPSet e).1 d' ∧ (b.flushAddedIPSet e).1.pendingAddedIPSets.entries = xs) := by
    rintro ⟨s, t⟩ xs b d ⟨hinv, hxs⟩
    have hs : b.pendingAddedIPSets.lookup s = some t := by
      simp [AList.lookup, hxs]
    obtain ⟨d', hd', hinv'⟩ := hturn b d s t hinv hs
    exact ⟨d', hd', hinv', by simp [flushAddedIPSet, AList.erase, hxs]⟩
  obtain ⟨d', hd', hinv, hnil⟩ :=
    triple_emitLoop (fun xs b d => inv b d ∧ b.pendingAddedIPSets.entries = xs) hbody
      b.pendingAddedIPSets.entries b d ⟨hb, rfl⟩
  refine ⟨d', hd', hinv, fun s => ?_⟩
  simp [flushAddedIPSets, setView, AList.lookup, hnil]

/-- A loop of `flushIPSetDeltas` over distinct sets that holds every dirty set: each turn
sends the delta of one dirty set and leaves it clean. -/
theorem triple_emitLoop_flushAddsOrRemoves (dirty : SetView P → Prop)
    (hclean : ∀ v : SetView P, ¬dirty { v with addedMembers := ∅, removedMembers := ∅ })
    (hturn : ∀ b d s, inv b d → dirty (b.setView s) →
      ∃ d', take d (b.flushAddsOrRemoves s).2 = some d' ∧ inv (b.flushAddsOrRemoves s).1 d')
    (xs : List P.SetID) (b : EventSequencer P) (d : δ) (hb : inv b d) (hxs : xs.Nodup)
    (hdirty : ∀ s ∈ xs, dirty (b.setView s)) (hall : ∀ s, dirty (b.setView s) → s ∈ xs) :
    ∃ d', (emitLoop flushAddsOrRemoves xs b).2.foldlM take d = some d' ∧
      inv (emitLoop flushAddsOrRemoves xs b).1 d' ∧
      ∀ s, ¬dirty ((emitLoop flushAddsOrRemoves xs b).1.setView s) := by
  -- the sets still to visit are distinct and dirty, and hold every dirty set
  let J : List P.SetID → EventSequencer P → δ → Prop := fun xs b d =>
    inv b d ∧ xs.Nodup ∧ (∀ s ∈ xs, dirty (b.setView s)) ∧ ∀ s, dirty (b.setView s) → s ∈ xs
  have hbody : ∀ x xs b d, J (x :: xs) b d →
      ∃ d', take d (b.flushAddsOrRemoves x).2 = some d' ∧ J xs (b.flushAddsOrRemoves x).1 d' := by
    rintro x xs b d ⟨hinv, hnd, hdirty, hall⟩
    obtain ⟨hx, hnd⟩ := List.nodup_cons.mp hnd
    obtain ⟨d', hd', hinv'⟩ := hturn b d x hinv (hdirty x List.mem_cons_self)
    refine ⟨d', hd', hinv', hnd, fun s hs => ?_, fun s hs => ?_⟩
    · -- a set still to visit is not the one just sent
      have hne : s ≠ x := fun h => hx (h ▸ hs)
      rw [setView_flushAddsOrRemoves, if_neg hne]
      exact hdirty s (List.mem_cons_of_mem x hs)
    · rw [setView_flushAddsOrRemoves] at hs
      split_ifs at hs with hsx
      · exact absurd hs (hclean _)
      · exact (List.mem_cons.mp (hall s hs)).resolve_left hsx
  obtain ⟨d', hd', hinv, -, -, hall'⟩ := triple_emitLoop J hbody xs b d ⟨hb, hxs, hdirty, hall⟩
  exact ⟨d', hd', hinv, fun s hs => List.not_mem_nil (hall' s hs)⟩

/-- **`flushIPSetDeltas`**: each turn sends the delta of one set with member changes; after
both loops no set has any. -/
theorem triple_flushIPSetDeltas
    (hturn : ∀ b d s, inv b d →
      ((b.setView s).addedMembers.Nonempty ∨ (b.setView s).removedMembers.Nonempty) →
      ∃ d', take d (b.flushAddsOrRemoves s).2 = some d' ∧ inv (b.flushAddsOrRemoves s).1 d') :
    Triple take inv flushIPSetDeltas
      (fun b d => inv b d ∧ ∀ s, (b.setView s).addedMembers = ∅ ∧ (b.setView s).removedMembers = ∅) := by
  -- first the sets with pending removals
  have h₁ : Triple take inv (fun b => emitLoop flushAddsOrRemoves b.pendingRemovedIPSetMembers.keys b)
      (fun b d => inv b d ∧ ∀ s, (b.setView s).removedMembers = ∅) := by
    intro b d hb
    obtain ⟨d', hd', hinv, hclean⟩ := triple_emitLoop_flushAddsOrRemoves inv
      (fun v => v.removedMembers.Nonempty) (fun v => by simp)
      (fun b d s hb hs => hturn b d s hb (Or.inr hs)) _ b d hb (IterSet.keys_nodup _)
      (fun s hs => mem_keys_iff_memberSet_nonempty.mp hs)
      (fun s hs => mem_keys_iff_memberSet_nonempty.mpr hs)
    exact ⟨d', hd', hinv, fun s => Finset.not_nonempty_iff_eq_empty.mp (hclean s)⟩
  -- then the sets left with pending additions; the removals stay empty
  have h₂ : Triple take (fun b d => inv b d ∧ ∀ s, (b.setView s).removedMembers = ∅)
      (fun b => emitLoop flushAddsOrRemoves b.pendingAddedIPSetMembers.keys b)
      (fun b d => inv b d ∧ ∀ s, (b.setView s).addedMembers = ∅ ∧ (b.setView s).removedMembers = ∅) := by
    intro b d ⟨hb, hR⟩
    have hturn' : ∀ b d s, (inv b d ∧ ∀ s, (b.setView s).removedMembers = ∅) →
        (b.setView s).addedMembers.Nonempty →
        ∃ d', take d (b.flushAddsOrRemoves s).2 = some d' ∧
          (inv (b.flushAddsOrRemoves s).1 d' ∧
            ∀ s', ((b.flushAddsOrRemoves s).1.setView s').removedMembers = ∅) := by
      rintro b d s ⟨hb, hR⟩ hs
      obtain ⟨d', hd', hinv⟩ := hturn b d s hb (Or.inl hs)
      refine ⟨d', hd', hinv, fun s' => ?_⟩
      rw [setView_flushAddsOrRemoves]
      split_ifs
      · rfl
      · exact hR s'
    obtain ⟨d', hd', ⟨hinv, hR'⟩, hclean⟩ := triple_emitLoop_flushAddsOrRemoves _
      (fun v => v.addedMembers.Nonempty) (fun v => by simp) hturn' _ b d ⟨hb, hR⟩
      (IterSet.keys_nodup _) (fun s hs => mem_keys_iff_memberSet_nonempty.mp hs)
      (fun s hs => mem_keys_iff_memberSet_nonempty.mpr hs)
    exact ⟨d', hd', hinv, fun s => ⟨Finset.not_nonempty_iff_eq_empty.mp (hclean s), hR' s⟩⟩
  exact h₁.seq h₂

/-- **`flushRemovedIPSets`**: each turn removes one set whose removal is pending; after the
loop no removal is pending. -/
theorem triple_flushRemovedIPSets
    (hturn : ∀ b d s, inv b d → (b.setView s).removed = true →
      ∃ d', take d (b.flushRemovedIPSet s).2 = some d' ∧ inv (b.flushRemovedIPSet s).1 d') :
    Triple take inv flushRemovedIPSets (fun b d => inv b d ∧ ∀ s, (b.setView s).removed = false) := by
  intro b d hb
  have hbody : ∀ s xs b d, (inv b d ∧ b.pendingRemovedIPSets.toList = s :: xs) →
      ∃ d', take d (b.flushRemovedIPSet s).2 = some d' ∧
        (inv (b.flushRemovedIPSet s).1 d' ∧ (b.flushRemovedIPSet s).1.pendingRemovedIPSets.toList = xs) := by
    rintro s xs b d ⟨hinv, hxs⟩
    have hs : (b.setView s).removed = true := by
      simp [setView, ← IterSet.mem_toList, hxs]
    obtain ⟨d', hd', hinv'⟩ := hturn b d s hinv hs
    exact ⟨d', hd', hinv', by simp [flushRemovedIPSet, IterSet.discard, hxs]⟩
  obtain ⟨d', hd', hinv, hnil⟩ :=
    triple_emitLoop (fun xs b d => inv b d ∧ b.pendingRemovedIPSets.toList = xs) hbody
      b.pendingRemovedIPSets.toList b d ⟨hb, rfl⟩
  refine ⟨d', hd', hinv, fun s => ?_⟩
  simp [flushRemovedIPSets, setView, ← IterSet.mem_toList, hnil]

/-! ## The buffer loops -/

theorem triple_flushPolicyUpdates
    (hturn : ∀ b d k r, inv b d → b.policies.pendingUpdates.lookup k = some r →
      ∃ d', take d (.activePolicyUpdate k r) = some d' ∧
        inv { b with policies := b.policies.sendUpdate k } d') :
    Triple take inv flushPolicyUpdates (fun b d => inv b d ∧ ∀ k, k ∉ b.policies.pendingUpdates) :=
  triple_flushUpdates policiesLens inv (fun e => Message.activePolicyUpdate e.1 e.2) hturn

theorem triple_flushProfileUpdates
    (hturn : ∀ b d k r, inv b d → b.profiles.pendingUpdates.lookup k = some r →
      ∃ d', take d (.activeProfileUpdate k r) = some d' ∧
        inv { b with profiles := b.profiles.sendUpdate k } d') :
    Triple take inv flushProfileUpdates (fun b d => inv b d ∧ ∀ k, k ∉ b.profiles.pendingUpdates) :=
  triple_flushUpdates profilesLens inv (fun e => Message.activeProfileUpdate e.1 e.2) hturn

theorem triple_flushEndpointTierUpdates
    (hturn : ∀ b d k e, inv b d → b.endpoints.pendingUpdates.lookup k = some e →
      ∃ d', take d (.endpointUpdate k e.1 e.2) = some d' ∧
        inv { b with endpoints := b.endpoints.sendUpdate k } d') :
    Triple take inv flushEndpointTierUpdates
      (fun b d => inv b d ∧ ∀ k, k ∉ b.endpoints.pendingUpdates) :=
  triple_flushUpdates endpointsLens inv (fun e => Message.endpointUpdate e.1 e.2.1 e.2.2) hturn

theorem triple_flushPolicyDeletes
    (hturn : ∀ b d k, inv b d → k ∈ b.policies.pendingDeletes →
      ∃ d', take d (.activePolicyRemove k) = some d' ∧
        inv { b with policies := b.policies.sendDelete k } d') :
    Triple take inv flushPolicyDeletes (fun b d => inv b d ∧ ∀ k, k ∉ b.policies.pendingDeletes) :=
  triple_flushDeletes policiesLens inv Message.activePolicyRemove hturn

theorem triple_flushProfileDeletes
    (hturn : ∀ b d k, inv b d → k ∈ b.profiles.pendingDeletes →
      ∃ d', take d (.activeProfileRemove k) = some d' ∧
        inv { b with profiles := b.profiles.sendDelete k } d') :
    Triple take inv flushProfileDeletes (fun b d => inv b d ∧ ∀ k, k ∉ b.profiles.pendingDeletes) :=
  triple_flushDeletes profilesLens inv Message.activeProfileRemove hturn

theorem triple_flushEndpointTierDeletes
    (hturn : ∀ b d k, inv b d → k ∈ b.endpoints.pendingDeletes →
      ∃ d', take d (.endpointRemove k) = some d' ∧
        inv { b with endpoints := b.endpoints.sendDelete k } d') :
    Triple take inv flushEndpointTierDeletes
      (fun b d => inv b d ∧ ∀ k, k ∉ b.endpoints.pendingDeletes) :=
  triple_flushDeletes endpointsLens inv Message.endpointRemove hturn

end EventSequencer

end Felix.Calc
