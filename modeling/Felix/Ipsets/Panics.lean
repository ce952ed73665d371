import Felix.Ipsets.Reachable

/-!
# Where the IP sets manager can panic

The manager panics where Go reads through a nil pointer: a dirty ID whose record is gone, or a
record in delta mode without programmed members; and where a member does not parse. In a
reachable state neither of the first two can happen (`IPSets.Wf`): every dirty ID is a stored
record's and every record in delta mode holds its members. So `ApplyDeletions` never panics,
and an attempt of `ApplyUpdates` panics only in the resync it needs, when the kernel lists a
member that does not parse in a set Felix holds in delta mode.

## Main results

* `IPSets.Wf.tryUpdates_ok`, `IPSets.Wf.applyDeletions_ok`: no panic from a well-formed state
* `reachable_panics_only_in_resync`: the same from every reachable state
-/

namespace Felix.Ipsets

open Replication

namespace IPSets

variable {s : IPSets} {k : Kernel}

theorem Wf.deleteIPSet_ok (hs : s.Wf) (k : Kernel) (n : String) :
    ∃ r, s.deleteIPSet k n = .ok r := by
  unfold IPSets.deleteIPSet
  cases k.destroy n with
  | none => exact ⟨_, rfl⟩
  | some k' =>
    dsimp only
    rcases hb : IPSets.ipSetByMainName _ n with _ | ⟨id, ipSet⟩
    · exact ⟨_, rfl⟩
    · obtain ⟨-, hl⟩ := ipSetByMainName_eq_some.mp hb
      obtain ⟨ipSet', ha⟩ := (hs.stored id ipSet hl).1.rewriteAfterDeletion_ok
      dsimp only
      rw [ha]
      exact ⟨_, rfl⟩

/-- A loop of deletions from a well-formed state, each of which does not panic, does not panic
and ends well formed. -/
theorem foldlM_deletions_ok {f : IPSets × Kernel → String → Except String (IPSets × Kernel)}
    (hf : ∀ st n, st.1.Wf → ∃ st', f st n = .ok st' ∧ st'.1.Wf) (l : List String)
    (hs : s.Wf) (k : Kernel) : ∃ st', l.foldlM f (s, k) = .ok st' ∧ st'.1.Wf :=
  foldlM_ok_of_step (fun st : IPSets × Kernel => st.1.Wf) (fun st n _ ht => hf st n ht)
    (s := (s, k)) hs

theorem Wf.tryTempIPSetDeletion_ok {st : IPSets × Kernel} (hs : st.1.Wf) (n : String) :
    ∃ st', IPSets.tryTempIPSetDeletion st n = .ok st' ∧ st'.1.Wf := by
  obtain ⟨s, k⟩ := st
  have hd : ∃ st', IPSets.tryTempIPSetDeletion (s, k) n = .ok st' := by
    dsimp only [IPSets.tryTempIPSetDeletion]
    split_ifs
    · obtain ⟨r, hr⟩ := hs.deleteIPSet_ok k n
      rw [hr]
      exact ⟨_, rfl⟩
    · exact ⟨_, rfl⟩
  obtain ⟨st', hst'⟩ := hd
  exact ⟨st', hst', (Wf.tryTempIPSetDeletion hs hst').wf⟩

theorem Wf.applyDeletion_ok {st : IPSets × Kernel} (hs : st.1.Wf) (n : String) :
    ∃ st', IPSets.applyDeletion st n = .ok st' ∧ st'.1.Wf := by
  obtain ⟨s, k⟩ := st
  have hd : ∃ st', IPSets.applyDeletion (s, k) n = .ok st' := by
    dsimp only [IPSets.applyDeletion]
    split_ifs
    · obtain ⟨r, hr⟩ := hs.deleteIPSet_ok k n
      rw [hr]
      exact ⟨_, rfl⟩
    · exact ⟨_, rfl⟩
  obtain ⟨st', hst'⟩ := hd
  exact ⟨st', hst', (Wf.applyDeletion hs hst').wf⟩

theorem Wf.tryTempIPSetDeletions_ok (hs : s.Wf) (k : Kernel) :
    ∃ r, s.tryTempIPSetDeletions k = .ok r := by
  obtain ⟨⟨s₁, k₁⟩, h₁, -⟩ := foldlM_deletions_ok (fun _ n ht => ht.tryTempIPSetDeletion_ok n)
    s.pendingTempIPSetDeletions.toList hs k
  unfold IPSets.tryTempIPSetDeletions
  rw [h₁]
  exact ⟨_, rfl⟩

theorem Wf.applyDeletions_ok (hs : s.Wf) (k : Kernel) : ∃ r, s.applyDeletions k = .ok r := by
  obtain ⟨⟨s₁, k₁⟩, h₁, -⟩ := foldlM_deletions_ok (fun _ n ht => ht.applyDeletion_ok n)
    s.pendingIPSetDeletions.toList hs k
  unfold IPSets.applyDeletions
  rw [h₁]
  exact ⟨_, rfl⟩

/-- Every dirty ID is a stored record's, so writing the dirty sets' updates does not panic. -/
theorem Wf.writeDirty_ok (hs : s.Wf) (lines : List RestoreLine) :
    ∃ r, s.dirtyIPSetIDs.toList.foldlM writeDirty (lines, s) = .ok r := by
  -- the loop moves only the temporary set index, so the records stay those of `s`
  have hstep : ∀ (st : List RestoreLine × IPSets) id, id ∈ s.dirtyIPSetIDs.toList →
      (∃ n, st.2 = { s with nextTempIPSetIdx := n }) →
        ∃ st', writeDirty st id = .ok st' ∧ ∃ n, st'.2 = { s with nextTempIPSetIdx := n } := by
    rintro ⟨lines', t⟩ id hid ⟨n, hn⟩
    dsimp only at hn
    subst hn
    obtain ⟨ipSet, hl⟩ := Option.isSome_iff_exists.mp
      (AList.lookup_isSome.mpr (hs.dirty_known id (IterSet.mem_toList.mp hid)))
    dsimp only [writeDirty]
    split_ifs
    · exact ⟨_, rfl, n, rfl⟩
    · rw [show IPSets.ipSetIDToIPSet { s with nextTempIPSetIdx := n } = s.ipSetIDToIPSet from rfl,
        hl]
      exact ⟨_, rfl, writeUpdates_snd _ ipSet⟩
  obtain ⟨r, h, -⟩ := foldlM_ok_of_step _ hstep (s := (lines, s)) ⟨s.nextTempIPSetIdx, rfl⟩
  exact ⟨r, h⟩

theorem Wf.markProgrammed_ok (hs : s.Wf) {id : String} (hid : id ∈ s.ipSetIDToIPSet) :
    ∃ s', s.markProgrammed id = .ok s' := by
  obtain ⟨ipSet, hl⟩ := Option.isSome_iff_exists.mp (AList.lookup_isSome.mpr hid)
  obtain ⟨p, hp⟩ := (hs.stored id ipSet hl).1.markProgrammed_ok
  unfold IPSets.markProgrammed
  split_ifs
  · exact ⟨_, rfl⟩
  · rw [hl]
    dsimp only
    rw [hp]
    exact ⟨_, rfl⟩

/-- Marking a set programmed keeps every stored record stored. -/
theorem mem_markProgrammed {s' : IPSets} {id y : String} (h : s.markProgrammed id = .ok s')
    (hy : y ∈ s.ipSetIDToIPSet) : y ∈ s'.ipSetIDToIPSet := by
  rcases markProgrammed_cases h with rfl | ⟨-, ipSet, p, -, -, rfl⟩
  · exact hy
  · exact mem_setIPSet hy

/-- `tryUpdates`' bookkeeping over stored records' IDs does not panic. -/
theorem Wf.markProgrammed_foldlM_ok (hs : s.Wf) {l : List String}
    (hl : ∀ id ∈ l, id ∈ s.ipSetIDToIPSet) : ∃ r, l.foldlM IPSets.markProgrammed s = .ok r := by
  -- each turn keeps the state well formed and every ID of the list stored
  have hstep : ∀ (t : IPSets) id, id ∈ l → t.Wf ∧ (∀ id ∈ l, id ∈ t.ipSetIDToIPSet) →
      ∃ t', t.markProgrammed id = .ok t' ∧ t'.Wf ∧ ∀ id ∈ l, id ∈ t'.ipSetIDToIPSet := by
    intro t id hid ht
    obtain ⟨t', ht'⟩ := ht.1.markProgrammed_ok (ht.2 id hid)
    exact ⟨t', ht', (ht.1.markProgrammed ht').wf, fun y hy => mem_markProgrammed ht' (ht.2 y hy)⟩
  obtain ⟨r, h, -⟩ := foldlM_ok_of_step _ hstep (s := s) ⟨hs, hl⟩
  exact ⟨r, h⟩

/-- From a well-formed state, `tryUpdates` does not panic, whatever the kernel holds and
whether or not the restore goes through. -/
theorem Wf.tryUpdates_ok (hs : s.Wf) (k : Kernel) : ∃ r, s.tryUpdates k = .ok r := by
  unfold IPSets.tryUpdates
  split_ifs
  · exact ⟨_, rfl⟩
  · obtain ⟨⟨lines, s₁⟩, h₁⟩ := hs.writeDirty_ok []
    obtain ⟨n, hn⟩ := foldlM_writeDirty_snd s h₁
    dsimp only at hn
    subst hn
    have hs₁ : ({ s with nextTempIPSetIdx := n } : IPSets).Wf :=
      hs.of_maps rfl rfl rfl hs.dirty_known
    rw [h₁, ok_bind]
    dsimp only
    rcases hr : k.restore (lines ++ [.commit]) with ⟨k', ok⟩
    rw [hr]
    cases ok
    · exact ⟨_, rfl⟩
    · -- the restore went through: every dirty ID is marked programmed
      obtain ⟨s₂, h₂⟩ := hs₁.markProgrammed_foldlM_ok (l := s.dirtyIPSetIDs.toList)
        fun id hid => hs.dirty_known id (IterSet.mem_toList.mp hid)
      dsimp only [Bool.not_true]
      rw [h₂]
      exact ⟨_, rfl⟩

/-- From a well-formed state, an attempt of `ApplyUpdates` panics only in a resync it needs. -/
theorem Wf.applyUpdatesAttempt_ok (hs : s.Wf) (k : Kernel)
    (hr : s.resyncRequired = true → ∃ s', s.tryResync k = .ok s') :
    ∃ r, s.applyUpdatesAttempt k = .ok r := by
  -- the rest of the attempt, from the state after the resync
  have hrest : ∀ s₁ : IPSets, s₁.Wf → ∃ r, (do
      let p ← s₁.tryTempIPSetDeletions k
      let q ← p.1.tryUpdates p.2
      pure (if q.2.2 then q.1 else { q.1 with resyncRequired := true }, q.2.1, q.2.2)) =
        Except.ok r := by
    intro s₁ hs₁
    obtain ⟨⟨s₂, k₂⟩, h₂⟩ := hs₁.tryTempIPSetDeletions_ok k
    obtain ⟨⟨s₃, k₃, ok⟩, h₃⟩ := (hs₁.tryTempIPSetDeletions h₂).wf.tryUpdates_ok k₂
    rw [h₂, ok_bind, h₃, ok_bind]
    exact ⟨_, rfl⟩
  unfold IPSets.applyUpdatesAttempt
  dsimp only
  split_ifs with hreq
  · obtain ⟨s₀, h₀⟩ := hr hreq
    have hs₀ := (hs.tryResync h₀).wf
    rw [h₀]
    exact hrest _ (hs₀.of_maps rfl rfl rfl hs₀.dirty_known)
  · exact hrest s hs

end IPSets

/-- In every state the manager reaches, `ApplyDeletions` does not panic, whatever the kernel
holds, and an attempt of `ApplyUpdates` does not panic unless it needs a resync and the resync
panics. -/
theorem reachable_panics_only_in_resync {c : IPVersionConfig} {k₀ k : Kernel}
    {events : List Event} {s : IPSets} (h₀ : runFrom (newIPSets c, k₀) events = .ok (s, k))
    (k' : Kernel) :
    (∃ r, s.applyDeletions k' = .ok r) ∧
      ((∃ r, s.applyUpdatesAttempt k' = .ok r) ∨
        s.resyncRequired = true ∧ ∃ e, s.tryResync k' = .error e) := by
  have hs : s.Wf := (IPSets.wf_newIPSets c).runFrom h₀
  refine ⟨hs.applyDeletions_ok k', ?_⟩
  cases hres : s.tryResync k' with
  | error e =>
    by_cases hreq : s.resyncRequired = true
    · exact .inr ⟨hreq, e, rfl⟩
    · exact .inl (hs.applyUpdatesAttempt_ok k' fun h => absurd h hreq)
  | ok s' => exact .inl (hs.applyUpdatesAttempt_ok k' fun _ => ⟨s', hres⟩)

theorem reachable_panics_only_in_resync_programmed :
    ∃ s k, runFrom (newIPSets resyncConfig, ∅) programmedOnce = .ok (s, k) ∧
      ((∃ r, s.applyDeletions ∅ = .ok r) ∧
        ((∃ r, s.applyUpdatesAttempt ∅ = .ok r) ∨
          s.resyncRequired = true ∧ ∃ e, s.tryResync ∅ = .error e)) :=
  ⟨_, _, rfl, reachable_panics_only_in_resync
    (rfl : runFrom (newIPSets resyncConfig, ∅) programmedOnce = _) ∅⟩

end Felix.Ipsets
