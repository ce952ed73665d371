import Felix.Ipsets.IPSetSpec

/-!
# Reachable states of the IP sets manager

In every state the manager reaches from `NewIPSets`, whatever calls it gets and whatever other
processes do to the kernel in between, each IP set record is well formed and stored under its
own ID and main name, and each main name points at the record it names (`IPSets.Wf`); no
temporary set is left queued for deletion between calls.

Each operation is proved to keep this from what it does to the records: a resync resyncs the
record a listed set is the main set of (`resyncListedSet_cases`), a deletion rebuilds the record
of the set it destroyed, an update marks records programmed. A resync also keeps the members
every set wants (`Wf.tryResync`).
-/

namespace Felix.Ipsets

open Replication

namespace IPSets

variable {s s' : IPSets} {k : Kernel}

/-! ## Reachable states -/

/-- The records and maps of a reachable state: each record is well formed and stored under its
own ID and main name, each main name points at a stored record that it names, and each dirty
ID is a stored record's. -/
structure Wf (s : IPSets) : Prop where
  stored : ∀ id ipSet, s.ipSetIDToIPSet.lookup id = some ipSet →
    ipSet.Wf ∧ ipSet.setID = id ∧ ipSet.mainIPSetName = s.ipVersionConfig.nameForMainIPSet id
  main_known : ∀ n id, s.mainIPSetNameToIPSet.lookup n = some id →
    n = s.ipVersionConfig.nameForMainIPSet id ∧ id ∈ s.ipSetIDToIPSet
  dirty_known : ∀ id ∈ s.dirtyIPSetIDs, id ∈ s.ipSetIDToIPSet

/-- A state with the configuration and maps of a well-formed one, whose dirty IDs are stored
records', is well formed. -/
theorem Wf.of_maps (hs : s.Wf) (hc : s'.ipVersionConfig = s.ipVersionConfig)
    (hi : s'.ipSetIDToIPSet = s.ipSetIDToIPSet)
    (hm : s'.mainIPSetNameToIPSet = s.mainIPSetNameToIPSet)
    (hd : ∀ id ∈ s'.dirtyIPSetIDs, id ∈ s.ipSetIDToIPSet) : s'.Wf := by
  refine ⟨?_, ?_, ?_⟩
  · rw [hi, hc]
    exact hs.stored
  · rw [hm, hi, hc]
    exact hs.main_known
  · rw [hi]
    exact hd

/-- The state wants member `x` in set `id`: `GetMembers` gives it. -/
def Wants (s : IPSets) (id x : String) : Prop := ∃ ms, s.getMembers id = .ok ms ∧ x ∈ ms

theorem wants_iff {id x : String} :
    s.Wants id x ↔ ∃ ipSet, s.ipSetIDToIPSet.lookup id = some ipSet ∧ ipSet.Wants x := by
  unfold Wants getMembers
  cases s.ipSetIDToIPSet.lookup id <;> simp [IPSet.Wants]

theorem ipSetByMainName_eq_some {n id : String} {ipSet : IPSet} :
    s.ipSetByMainName n = some (id, ipSet) ↔
      s.mainIPSetNameToIPSet.lookup n = some id ∧ s.ipSetIDToIPSet.lookup id = some ipSet := by
  unfold ipSetByMainName
  cases s.mainIPSetNameToIPSet.lookup n with
  | none => simp
  | some id' =>
    simp only [Option.bind_some, Option.map_eq_some_iff, Prod.mk.injEq, Option.some.injEq]
    constructor
    · rintro ⟨ipSet', h, rfl, rfl⟩
      exact ⟨rfl, h⟩
    · rintro ⟨rfl, h⟩
      exact ⟨ipSet, h, rfl, rfl⟩

theorem mem_setIPSet {id id' : String} {ipSet : IPSet} (h : id' ∈ s.ipSetIDToIPSet) :
    id' ∈ (s.setIPSet id ipSet).ipSetIDToIPSet :=
  (AList.mem_insert _).mpr (.inr h)

/-- Replacing a stored record by one an operation made of it keeps the state well formed. -/
theorem Wf.setIPSet (hs : s.Wf) {id : String} {ipSet ipSet' : IPSet}
    (hl : s.ipSetIDToIPSet.lookup id = some ipSet) (hk : ipSet.Keeps ipSet') :
    (s.setIPSet id ipSet').Wf := by
  obtain ⟨-, hid, hn⟩ := hs.stored id ipSet hl
  refine ⟨fun id' r hr => ?_, fun n id' hn' => ?_, fun id' hd => mem_setIPSet (hs.dirty_known id' hd)⟩
  · by_cases he : id' = id
    · subst he
      rw [IPSets.setIPSet, AList.lookup_insert, Option.some.injEq] at hr
      subst hr
      exact ⟨hk.wf, (congrArg IPSetMetadata.setID hk.meta_eq).trans hid, hk.name_eq.trans hn⟩
    · rw [IPSets.setIPSet, AList.lookup_insert_ne he] at hr
      exact hs.stored id' r hr
  · obtain ⟨hn', hk⟩ := hs.main_known n id' hn'
    exact ⟨hn', mem_setIPSet hk⟩

/-- Replacing a stored record by one that wants the same members keeps what the state wants. -/
theorem wants_setIPSet {id : String} {ipSet ipSet' : IPSet}
    (hl : s.ipSetIDToIPSet.lookup id = some ipSet) (hw : ∀ x, ipSet'.Wants x ↔ ipSet.Wants x)
    (id' x : String) : (s.setIPSet id ipSet').Wants id' x ↔ s.Wants id' x := by
  rw [wants_iff, wants_iff]
  by_cases he : id' = id
  · subst he
    simp [setIPSet, AList.lookup_insert, hl, hw]
  · simp only [setIPSet, AList.lookup_insert_ne he]

/-- A change of state that keeps it well formed and keeps the members every set wants. -/
structure KeepsWants (s s' : IPSets) : Prop where
  wf : s'.Wf
  wants : ∀ id x, s'.Wants id x ↔ s.Wants id x

theorem KeepsWants.refl (hs : s.Wf) : KeepsWants s s := ⟨hs, fun _ _ => Iff.rfl⟩

theorem KeepsWants.trans {s'' : IPSets} (h₁ : KeepsWants s s') (h₂ : KeepsWants s' s'') :
    KeepsWants s s'' :=
  ⟨h₂.wf, fun id x => (h₂.wants id x).trans (h₁.wants id x)⟩

/-- A state that differs only outside the records and maps wants what the state did. -/
theorem KeepsWants.of_maps (hs : s.Wf) (hc : s'.ipVersionConfig = s.ipVersionConfig)
    (hi : s'.ipSetIDToIPSet = s.ipSetIDToIPSet)
    (hm : s'.mainIPSetNameToIPSet = s.mainIPSetNameToIPSet)
    (hd : ∀ id ∈ s'.dirtyIPSetIDs, id ∈ s.ipSetIDToIPSet) : KeepsWants s s' := by
  refine ⟨hs.of_maps hc hi hm hd, fun id x => ?_⟩
  simp only [wants_iff, hi]

/-! ## The calls of the calculation graph -/

/-- `AddOrReplaceIPSet` stores a record in rewrite mode under the set's ID and main name. -/
theorem Wf.addOrReplaceIPSet (hs : s.Wf) {m : IPSetMetadata} {members : List String}
    (h : s.addOrReplaceIPSet m members = .ok s') : s'.Wf := by
  unfold IPSets.addOrReplaceIPSet at h
  obtain ⟨C, -, h⟩ := bind_eq_ok h
  cases h
  refine ⟨fun id r hr => ?_, fun n id hn => ?_, fun id hd => ?_⟩
  · by_cases he : id = m.setID
    · subst he
      rw [AList.lookup_insert, Option.some.injEq] at hr
      subst hr
      exact ⟨⟨rfl, by simp, by simp, by simp⟩, rfl, rfl⟩
    · rw [AList.lookup_insert_ne he] at hr
      exact hs.stored id r hr
  · dsimp only at hn ⊢
    by_cases he : n = s.ipVersionConfig.nameForMainIPSet m.setID
    · subst he
      rw [AList.lookup_insert, Option.some.injEq] at hn
      subst hn
      exact ⟨rfl, (AList.mem_insert _).mpr (.inl rfl)⟩
    · rw [AList.lookup_insert_ne he] at hn
      obtain ⟨hn', hk⟩ := hs.main_known n id hn
      exact ⟨hn', (AList.mem_insert _).mpr (.inr hk)⟩
  · rcases IterSet.mem_add.mp hd with rfl | hd
    · exact (AList.mem_insert _).mpr (.inl rfl)
    · exact (AList.mem_insert _).mpr (.inr (hs.dirty_known id hd))

/-- `RemoveIPSet` forgets the record and its main name. -/
theorem Wf.removeIPSet (hs : s.Wf) (setID : String) : (s.removeIPSet setID).Wf := by
  refine ⟨fun id r hr => ?_, fun n id hn => ?_, fun id hd => ?_⟩
  · have he : id ≠ setID := by
      rintro rfl
      simp [IPSets.removeIPSet] at hr
    rw [IPSets.removeIPSet, AList.lookup_erase_ne he] at hr
    exact hs.stored id r hr
  · have he : n ≠ s.ipVersionConfig.nameForMainIPSet setID := by
      rintro rfl
      simp [IPSets.removeIPSet] at hn
    rw [IPSets.removeIPSet, AList.lookup_erase_ne he] at hn
    obtain ⟨rfl, hk⟩ := hs.main_known n id hn
    -- the main name of `setID` was erased, so `id` is another set
    have hne : id ≠ setID := fun h => he (h ▸ rfl)
    exact ⟨rfl, AList.mem_erase.mpr ⟨hne, hk⟩⟩
  · obtain ⟨hne, hd⟩ := IterSet.mem_discard.mp hd
    exact AList.mem_erase.mpr ⟨hne, hs.dirty_known id hd⟩

/-- A call that queues deltas on one stored record, which it then marks dirty. -/
theorem Wf.setIPSet_dirty (hs : s.Wf) {id : String} {ipSet ipSet' : IPSet}
    (hl : s.ipSetIDToIPSet.lookup id = some ipSet) (hk : ipSet.Keeps ipSet') :
    ({ s.setIPSet id ipSet' with dirtyIPSetIDs := s.dirtyIPSetIDs.add id } : IPSets).Wf := by
  refine (hs.setIPSet hl hk).of_maps rfl rfl rfl fun y hy => ?_
  rcases IterSet.mem_add.mp hy with rfl | hy
  · exact (AList.mem_insert _).mpr (.inl rfl)
  · exact mem_setIPSet (hs.dirty_known y hy)

theorem Wf.addMembers (hs : s.Wf) {id : String} {members : List String}
    (h : s.addMembers id members = .ok s') : s'.Wf := by
  unfold IPSets.addMembers at h
  cases hl : s.ipSetIDToIPSet.lookup id with
  | none =>
    rw [hl] at h
    cases h
  | some ipSet =>
    rw [hl] at h
    obtain ⟨C, -, h⟩ := bind_eq_ok h
    split_ifs at h
    · cases h
      exact hs
    · obtain ⟨ipSet', ha, h⟩ := bind_eq_ok h
      cases h
      exact hs.setIPSet_dirty hl ((hs.stored id ipSet hl).1.addMembers ha)

theorem Wf.removeMembers (hs : s.Wf) {id : String} {members : List String}
    (h : s.removeMembers id members = .ok s') : s'.Wf := by
  unfold IPSets.removeMembers at h
  cases hl : s.ipSetIDToIPSet.lookup id with
  | none =>
    rw [hl] at h
    cases h
  | some ipSet =>
    rw [hl] at h
    obtain ⟨C, -, h⟩ := bind_eq_ok h
    split_ifs at h
    · cases h
      exact hs
    · obtain ⟨ipSet', ha, h⟩ := bind_eq_ok h
      cases h
      exact hs.setIPSet_dirty hl ((hs.stored id ipSet hl).1.removeMembers ha)

/-- `markDirty` only marks the ID a main name points at, a stored record's. -/
theorem Wf.markDirty_known (hs : s.Wf) {dirty : IterSet String}
    (hd : ∀ id ∈ dirty, id ∈ s.ipSetIDToIPSet) (n : String) :
    ∀ id ∈ s.markDirty dirty n, id ∈ s.ipSetIDToIPSet := by
  unfold markDirty
  cases hn : s.mainIPSetNameToIPSet.lookup n with
  | none => exact hd
  | some id' =>
    intro id hid
    rcases IterSet.mem_add.mp hid with rfl | hid
    · exact (hs.main_known n id hn).2
    · exact hd id hid

theorem Wf.setFilter (hs : s.Wf) (ipSetNames : Option (IterSet String)) :
    (s.setFilter ipSetNames).Wf := by
  -- both loops only mark the IDs that main names point at
  have hloop : ∀ (l : List String) (p : String → Prop) [DecidablePred p] (d : IterSet String),
      (∀ id ∈ d, id ∈ s.ipSetIDToIPSet) →
        ∀ id ∈ l.foldl (fun d item => if p item then s.markDirty d item else d) d,
          id ∈ s.ipSetIDToIPSet := by
    intro l p _ d hd
    refine List.foldlRecOn (motive := fun d => ∀ id ∈ d, id ∈ s.ipSetIDToIPSet) l _ hd
      fun d hd' item _ => ?_
    split_ifs
    · exact hs.markDirty_known hd' item
    · exact hd'
  refine hs.of_maps rfl rfl rfl ?_
  dsimp only [IPSets.setFilter]
  split <;> split <;> first
    | exact hloop _ _ _ (hloop _ _ _ hs.dirty_known)
    | exact hloop _ _ _ hs.dirty_known
    | exact hs.dirty_known

/-! ## Resync -/

/-- What one listed set can do to the state: it is recorded as existing, and if it is the main
set of a record in delta mode, that record is resynced against its members. -/
theorem resyncListedSet_cases {listed : String × List String}
    (h : s.resyncListedSet listed = .ok s') :
    s' = { s with existingIPSetNames := s.existingIPSetNames.add listed.1 } ∨
      ∃ id ipSet M dp, s.ipSetByMainName listed.1 = some (id, ipSet) ∧ ipSet.members = some M ∧
        canonicaliseListing ipSet.type listed.2 = .ok dp ∧
        s' = { s with
          existingIPSetNames := s.existingIPSetNames.add listed.1
          ipSetIDToIPSet := s.ipSetIDToIPSet.insert id (ipSet.resyncWith M dp s.dirtyIPSetIDs).1
          dirtyIPSetIDs := (ipSet.resyncWith M dp s.dirtyIPSetIDs).2 } := by
  unfold resyncListedSet at h
  dsimp only at h
  split at h
  · rename_i id ipSet hb
    split at h
    · rename_i M hM
      obtain ⟨dp, hdp, h⟩ := bind_eq_ok h
      cases h
      exact .inr ⟨id, ipSet, M, dp, hb, hM, hdp, rfl⟩
    · cases h
      exact .inl rfl
  · cases h
    exact .inl rfl

/-- One listed set keeps the state well formed and what it wants. -/
theorem Wf.resyncListedSet (hs : s.Wf) {listed : String × List String}
    (h : s.resyncListedSet listed = .ok s') : KeepsWants s s' := by
  rcases resyncListedSet_cases h with rfl | ⟨id, ipSet, M, dp, hb, hM, -, rfl⟩
  · exact .of_maps hs rfl rfl rfl hs.dirty_known
  · obtain ⟨-, hl⟩ := ipSetByMainName_eq_some.mp hb
    obtain ⟨hwf₀, hid, -⟩ := hs.stored id ipSet hl
    obtain ⟨hframe, hwf, -, hw⟩ := IPSet.resyncWith_spec hwf₀ hM dp s.dirtyIPSetIDs
    have hs' := hs.setIPSet hl ⟨hwf, hframe.meta_eq, hframe.name_eq⟩
    -- the resync dirties the record's own ID at most
    refine ⟨hs'.of_maps rfl rfl rfl fun y hy => ?_, wants_setIPSet hl hw⟩
    rcases hframe.dirty_le y hy with hy | rfl
    · exact mem_setIPSet (hs.dirty_known y hy)
    · rw [hid]
      exact (AList.mem_insert _).mpr (.inl rfl)

/-- `tryResync`'s last loop touches only the two deletion queues. -/
theorem foldl_queueLeftOver_eq (expected : List String) :
    ∀ (l : List String) (s : IPSets), ∃ t p, l.foldl (queueLeftOver expected) s =
      { s with pendingTempIPSetDeletions := t, pendingIPSetDeletions := p }
  | [], s => ⟨s.pendingTempIPSetDeletions, s.pendingIPSetDeletions, rfl⟩
  | n :: l, s => by
    have h₁ : ∃ t p, queueLeftOver expected s n =
        { s with pendingTempIPSetDeletions := t, pendingIPSetDeletions := p } := by
      unfold queueLeftOver
      split_ifs <;> exact ⟨_, _, rfl⟩
    obtain ⟨t₁, p₁, h₁⟩ := h₁
    obtain ⟨t, p, h⟩ := foldl_queueLeftOver_eq expected l (queueLeftOver expected s n)
    rw [List.foldl_cons, h, h₁]
    exact ⟨t, p, rfl⟩

/-- A resync keeps the state well formed, and leaves the members every set wants as they were,
whatever the kernel holds. -/
theorem Wf.tryResync (hs : s.Wf) (h : s.tryResync k = .ok s') : KeepsWants s s' := by
  unfold IPSets.tryResync at h
  obtain ⟨s₁, h₁, h⟩ := bind_eq_ok h
  cases h
  have hs₁ : KeepsWants s s₁ :=
    foldlM_ok_induction (fun t : IPSets => KeepsWants s t)
      (fun _ _ _ ht hstep => ht.trans (ht.wf.resyncListedSet hstep))
      (s := { s with existingIPSetNames := ∅ }) (.of_maps hs rfl rfl rfl hs.dirty_known) h₁
  obtain ⟨t, p, hq⟩ := foldl_queueLeftOver_eq s₁.expectedIPSets s₁.existingIPSetNames.toList s₁
  rw [hq]
  exact hs₁.trans (.of_maps hs₁.wf rfl rfl rfl hs₁.wf.dirty_known)

/-! ## Deletions -/

/-- `deleteIPSet` keeps the state well formed and what every set wants: a record whose main
set it destroyed is rebuilt as a pending rewrite of what it wanted. -/
theorem Wf.deleteIPSet (hs : s.Wf) {n : String} {r : IPSets × Kernel × Bool}
    (h : s.deleteIPSet k n = .ok r) : KeepsWants s r.1 := by
  unfold IPSets.deleteIPSet at h
  cases hk : k.destroy n with
  | none =>
    rw [hk] at h
    cases h
    exact .refl hs
  | some k' =>
    rw [hk] at h
    dsimp only at h
    set s₁ : IPSets := { s with existingIPSetNames := s.existingIPSetNames.discard n }
    have hs₁ : KeepsWants s s₁ := .of_maps hs rfl rfl rfl hs.dirty_known
    split at h
    · rename_i id ipSet hb
      obtain ⟨ipSet', ha, h⟩ := bind_eq_ok h
      cases h
      obtain ⟨-, hl⟩ := ipSetByMainName_eq_some.mp hb
      obtain ⟨hk, hw⟩ := (hs₁.wf.stored id ipSet hl).1.rewriteAfterDeletion ha
      exact hs₁.trans ⟨hs₁.wf.setIPSet hl hk, wants_setIPSet hl hw⟩
    · cases h
      exact hs₁

theorem Wf.tryTempIPSetDeletion {st st' : IPSets × Kernel} (hs : st.1.Wf) {n : String}
    (h : tryTempIPSetDeletion st n = .ok st') : KeepsWants st.1 st'.1 := by
  obtain ⟨s, k⟩ := st
  dsimp only [IPSets.tryTempIPSetDeletion] at h hs ⊢
  split_ifs at h
  · obtain ⟨⟨s₁, k₁, ok⟩, hd, h⟩ := bind_eq_ok h
    cases h
    have h₁ := hs.deleteIPSet hd
    cases ok
    · exact h₁
    · exact h₁.trans (.of_maps h₁.wf rfl rfl rfl h₁.wf.dirty_known)
  · cases h
    exact .refl hs

theorem Wf.applyDeletion {st st' : IPSets × Kernel} (hs : st.1.Wf) {n : String}
    (h : applyDeletion st n = .ok st') : KeepsWants st.1 st'.1 := by
  obtain ⟨s, k⟩ := st
  dsimp only [IPSets.applyDeletion] at h hs ⊢
  split_ifs at h
  · obtain ⟨⟨s₁, k₁, ok⟩, hd, h⟩ := bind_eq_ok h
    cases h
    exact hs.deleteIPSet hd
  · cases h
    exact .refl hs

/-- A loop of deletions, each keeping the state well formed and what every set wants. -/
theorem keepsWants_foldlM {f : IPSets × Kernel → String → Except String (IPSets × Kernel)}
    (hf : ∀ st n st', st.1.Wf → f st n = .ok st' → KeepsWants st.1 st'.1) (hs : s.Wf)
    {l : List String} {st : IPSets × Kernel} (h : l.foldlM f (s, k) = .ok st) :
    KeepsWants s st.1 :=
  foldlM_ok_induction (fun st : IPSets × Kernel => KeepsWants s st.1)
    (fun _ n _ ht hstep => ht.trans (hf _ n _ ht.wf hstep)) (.refl hs) h

theorem Wf.tryTempIPSetDeletions (hs : s.Wf) {r : IPSets × Kernel}
    (h : s.tryTempIPSetDeletions k = .ok r) : KeepsWants s r.1 := by
  unfold IPSets.tryTempIPSetDeletions at h
  obtain ⟨⟨s₁, k₁⟩, h₁, h⟩ := bind_eq_ok h
  cases h
  have hs₁ := keepsWants_foldlM (fun _ _ _ ht hstep => ht.tryTempIPSetDeletion hstep) hs h₁
  exact hs₁.trans (.of_maps hs₁.wf rfl rfl rfl hs₁.wf.dirty_known)

theorem Wf.applyDeletions (hs : s.Wf) {r : IPSets × Kernel}
    (h : s.applyDeletions k = .ok r) : KeepsWants s r.1 := by
  unfold IPSets.applyDeletions at h
  obtain ⟨⟨s₁, k₁⟩, h₁, h⟩ := bind_eq_ok h
  cases h
  have hs₁ := keepsWants_foldlM (fun _ _ _ ht hstep => ht.applyDeletion hstep) hs h₁
  exact hs₁.trans (.of_maps hs₁.wf rfl rfl rfl hs₁.wf.dirty_known)

/-! ## Updates -/

/-- Writing a set's updates only moves the next temporary set index on. -/
theorem writeUpdates_snd (s : IPSets) (ipSet : IPSet) :
    ∃ n, (s.writeUpdates ipSet).2 = { s with nextTempIPSetIdx := n } := by
  unfold writeUpdates
  split
  · exact ⟨_, rfl⟩
  · split_ifs
    · exact ⟨s.nextTempIPSetIdx, rfl⟩
    · exact ⟨s.nextTempIPSetIdx, rfl⟩

/-- `tryUpdates`' writing loop only moves the next temporary set index on. -/
theorem foldlM_writeDirty_snd (s : IPSets) {l : List String} {lines : List RestoreLine}
    {r : List RestoreLine × IPSets} (h : l.foldlM writeDirty (lines, s) = .ok r) :
    ∃ n, r.2 = { s with nextTempIPSetIdx := n } := by
  refine foldlM_ok_induction
    (fun st : List RestoreLine × IPSets => ∃ n, st.2 = { s with nextTempIPSetIdx := n })
    (fun st id st' hst hstep => ?_) ⟨s.nextTempIPSetIdx, rfl⟩ h
  obtain ⟨lines, t⟩ := st
  obtain ⟨n, hn⟩ := hst
  dsimp only at hn
  subst hn
  dsimp only [writeDirty] at hstep
  split_ifs at hstep
  · cases hstep
    exact ⟨n, rfl⟩
  · cases hl : IPSets.ipSetIDToIPSet { s with nextTempIPSetIdx := n } |>.lookup id with
    | none =>
      rw [hl] at hstep
      cases hstep
    | some ipSet =>
      rw [hl] at hstep
      cases hstep
      exact writeUpdates_snd _ ipSet

/-- What one turn of `tryUpdates`' bookkeeping can do: nothing, for a set that is not needed,
or mark the record of a needed set programmed and the set clean. -/
theorem markProgrammed_cases {id : String} (h : s.markProgrammed id = .ok s') :
    s' = s ∨ s.ipSetNeeded id = true ∧
      ∃ ipSet p, s.ipSetIDToIPSet.lookup id = some ipSet ∧ ipSet.markProgrammed = .ok p ∧
      s' = { s.setIPSet id p with
        existingIPSetNames :=
          if ipSet.pendingReplace.isSome then s.existingIPSetNames.add ipSet.mainIPSetName
          else s.existingIPSetNames
        dirtyIPSetIDs := s.dirtyIPSetIDs.discard id } := by
  unfold IPSets.markProgrammed at h
  split_ifs at h with hn
  · cases h
    exact .inl rfl
  · cases hl : s.ipSetIDToIPSet.lookup id with
    | none =>
      rw [hl] at h
      cases h
    | some ipSet =>
      rw [hl] at h
      obtain ⟨p, hp, h⟩ := bind_eq_ok h
      cases h
      exact .inr ⟨by simpa using hn, ipSet, p, rfl, hp, rfl⟩

/-- Marking a set programmed keeps the state well formed and what every set wants. -/
theorem Wf.markProgrammed (hs : s.Wf) {id : String} (h : s.markProgrammed id = .ok s') :
    KeepsWants s s' := by
  rcases markProgrammed_cases h with rfl | ⟨-, ipSet, p, hl, hp, rfl⟩
  · exact .refl hs
  · obtain ⟨hk, hw, -⟩ := (hs.stored id ipSet hl).1.markProgrammed hp
    have hs₁ : KeepsWants s (s.setIPSet id p) := ⟨hs.setIPSet hl hk, wants_setIPSet hl hw⟩
    exact hs₁.trans (.of_maps hs₁.wf rfl rfl rfl fun y hy =>
      hs₁.wf.dirty_known y (IterSet.mem_discard.mp hy).2)

theorem Wf.tryUpdates (hs : s.Wf) {r : IPSets × Kernel × Bool} (h : s.tryUpdates k = .ok r) :
    KeepsWants s r.1 := by
  unfold IPSets.tryUpdates at h
  split_ifs at h
  · cases h
    exact .refl hs
  · obtain ⟨⟨lines, s₁⟩, h₁, h⟩ := bind_eq_ok h
    obtain ⟨n, hn⟩ := foldlM_writeDirty_snd s h₁
    dsimp only at hn
    subst hn
    have hs₁ : KeepsWants s { s with nextTempIPSetIdx := n } :=
      .of_maps hs rfl rfl rfl hs.dirty_known
    rcases hr : k.restore (lines ++ [.commit]) with ⟨k', ok⟩
    dsimp only at h
    rw [hr] at h
    cases ok
    · cases h
      exact hs₁
    · obtain ⟨s₂, h₂, h⟩ := bind_eq_ok h
      cases h
      exact foldlM_ok_induction (fun t => KeepsWants s t)
        (fun _ _ _ ht hstep => ht.trans (ht.wf.markProgrammed hstep)) hs₁ h₂

/-- The rest of an attempt after the resync: the early deletions of temporary sets and the
updates. -/
theorem Wf.deleteTempsThenUpdate (hs : s.Wf) {r : IPSets × Kernel × Bool}
    (h : (do
      let (s, k) ← s.tryTempIPSetDeletions k
      let (s, k, ok) ← s.tryUpdates k
      pure (if ok then s else { s with resyncRequired := true }, k, ok)) = Except.ok r) :
    KeepsWants s r.1 := by
  obtain ⟨⟨s₁, k₁⟩, h₁, h⟩ := bind_eq_ok h
  have hs₁ := hs.tryTempIPSetDeletions h₁
  obtain ⟨⟨s₂, k₂, ok⟩, h₂, h⟩ := bind_eq_ok h
  have hs₂ := hs₁.trans (hs₁.wf.tryUpdates h₂)
  cases h
  cases ok
  · exact hs₂.trans (.of_maps hs₂.wf rfl rfl rfl hs₂.wf.dirty_known)
  · exact hs₂

theorem Wf.applyUpdatesAttempt (hs : s.Wf) {r : IPSets × Kernel × Bool}
    (h : s.applyUpdatesAttempt k = .ok r) : KeepsWants s r.1 := by
  unfold IPSets.applyUpdatesAttempt at h
  dsimp only at h
  split_ifs at h
  · obtain ⟨s₁, h₁, h⟩ := bind_eq_ok h
    obtain ⟨s₀, h₀, rfl⟩ := map_eq_ok h₁
    have hs₀ := hs.tryResync h₀
    have hs₁ : KeepsWants s { s₀ with resyncRequired := false } :=
      hs₀.trans (.of_maps hs₀.wf rfl rfl rfl hs₀.wf.dirty_known)
    exact hs₁.trans (hs₁.wf.deleteTempsThenUpdate h)
  · exact hs.deleteTempsThenUpdate h

/-- `ApplyUpdates` keeps the state well formed and what every set wants, however many attempts
it makes. -/
theorem Wf.applyUpdatesFrom : ∀ {n : ℕ} {s : IPSets} {k : Kernel} {r : IPSets × Kernel},
    s.Wf → s.applyUpdatesFrom n k = .ok r → KeepsWants s r.1
  | 0, _, _, _, _, h => by cases h
  | n + 1, s, k, r, hs, h => by
    rw [IPSets.applyUpdatesFrom] at h
    obtain ⟨⟨s₁, k₁, ok⟩, h₁, h⟩ := bind_eq_ok h
    have hs₁ := hs.applyUpdatesAttempt h₁
    cases ok
    · exact hs₁.trans (hs₁.wf.applyUpdatesFrom h)
    · cases h
      exact hs₁

theorem wf_newIPSets (c : IPVersionConfig) : (newIPSets c).Wf where
  stored id ipSet h := by simp [newIPSets] at h
  main_known n id h := by simp [newIPSets] at h
  dirty_known id h := by simp [newIPSets] at h

/-! ## Runs -/

/-- Every event keeps the manager's state well formed; a call to `ApplyUpdates` or
`ApplyDeletions` also keeps what every set wants. -/
theorem Wf.eventApply {st st' : IPSets × Kernel} (hs : st.1.Wf) {e : Event}
    (h : Event.apply st e = .ok st') : st'.1.Wf := by
  obtain ⟨s, k⟩ := st
  cases e with
  | addOrReplaceIPSet m members =>
    obtain ⟨s', h', rfl⟩ := map_eq_ok h
    exact hs.addOrReplaceIPSet h'
  | addMembers id members =>
    obtain ⟨s', h', rfl⟩ := map_eq_ok h
    exact hs.addMembers h'
  | removeMembers id members =>
    obtain ⟨s', h', rfl⟩ := map_eq_ok h
    exact hs.removeMembers h'
  | removeIPSet id =>
    cases h
    exact hs.removeIPSet id
  | setFilter ipSetNames =>
    cases h
    exact hs.setFilter ipSetNames
  | queueResync =>
    cases h
    exact hs.of_maps rfl rfl rfl hs.dirty_known
  | applyUpdates => exact (hs.applyUpdatesFrom h).wf
  | applyDeletions => exact (hs.applyDeletions h).wf
  | kernelChanged f =>
    cases h
    exact hs

/-- A run keeps the manager's state well formed. -/
theorem Wf.runFrom {s s' : IPSets} {k k' : Kernel} (hs : s.Wf) {events : List Event}
    (h : Ipsets.runFrom (s, k) events = .ok (s', k')) : s'.Wf :=
  foldlM_ok_induction (fun st : IPSets × Kernel => st.1.Wf)
    (fun _ _ _ ht hstep => ht.eventApply hstep) (s := (s, k)) hs h

end IPSets

/-- The IPv4 configuration with Felix's default prefix. -/
def resyncConfig : IPVersionConfig := newIPVersionConfig .inet "cali" [] []

/-- Felix creates IP set `s:abc` with member `10.0.0.1` and programs it. -/
def programmedOnce : List Event :=
  [.addOrReplaceIPSet ⟨"s:abc", .hashIP, 1048576⟩ ["10.0.0.1"], .applyUpdates]

/-- Every state the manager reaches from `NewIPSets`, whatever it is called with and whatever
other processes do to the kernel in between, is well formed: each record is well formed and
stored under its own ID and main name, each main name points at a stored record it names, and
each dirty ID is a stored record's. -/
theorem runFrom_newIPSets_wf {c : IPVersionConfig} {k₀ k : Kernel} {events : List Event}
    {s : IPSets} (h : runFrom (newIPSets c, k₀) events = .ok (s, k)) : s.Wf :=
  (IPSets.wf_newIPSets c).runFrom h

theorem runFrom_newIPSets_wf_programmed :
    ∃ s k, runFrom (newIPSets resyncConfig, ∅) programmedOnce = .ok (s, k) ∧ s.Wf :=
  ⟨_, _, rfl,
    runFrom_newIPSets_wf (rfl : runFrom (newIPSets resyncConfig, ∅) programmedOnce = _)⟩

/-- In every state the manager reaches, `ApplyUpdates` leaves the members `GetMembers` gives
for every IP set as they were, whatever the kernel holds. -/
theorem applyUpdates_keeps_wanted_members {c : IPVersionConfig} {k₀ k k' : Kernel}
    {events : List Event} {s s' : IPSets}
    (h₀ : runFrom (newIPSets c, k₀) events = .ok (s, k))
    (h : s.applyUpdates k = .ok (s', k')) (id x : String) :
    (∃ ms, s'.getMembers id = .ok ms ∧ x ∈ ms) ↔ ∃ ms, s.getMembers id = .ok ms ∧ x ∈ ms := by
  have hs : s.Wf := (IPSets.wf_newIPSets c).runFrom h₀
  exact (hs.applyUpdatesFrom h).wants id x

theorem applyUpdates_keeps_wanted_members_programmed :
    ∃ s k s' k', runFrom (newIPSets resyncConfig, ∅) (programmedOnce.take 1) = .ok (s, k) ∧
      s.applyUpdates k = .ok (s', k') ∧
      ((∃ ms, s'.getMembers "s:abc" = .ok ms ∧ "10.0.0.1" ∈ ms) ↔
        ∃ ms, s.getMembers "s:abc" = .ok ms ∧ "10.0.0.1" ∈ ms) :=
  ⟨_, _, _, _, rfl, rfl, applyUpdates_keeps_wanted_members
    (rfl : runFrom (newIPSets resyncConfig, ∅) (programmedOnce.take 1) = _) rfl
    "s:abc" "10.0.0.1"⟩

end Felix.Ipsets
