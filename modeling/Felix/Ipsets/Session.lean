import Felix.Ipsets.Restore

/-!
# An update session programs the kernel

`tryUpdates` writes the updates of all dirty needed sets into one `ipset restore` session and,
if the session goes through, marks them programmed. When the kernel agreed with what the
records say is programmed (`IPSets.Agrees`) and the stored sets have distinct main set names,
a session that goes through leaves the main set of every dirty needed set holding exactly the
members `GetMembers` returned for it, and the records agree with the kernel again
(`tryUpdates_programs_kernel`).

The session is proved one set at a time (`restore_foldlM_writeDirty`): after the updates of a
list of sets went through, the main sets of the needed ones hold what they want and every other
name of the kernel is as it was (`Programmed`). Distinct main names keep one set's update from
touching another's main set.

## Main definitions

* `IPSets.Agrees`: the kernel holds what the records in delta mode say is programmed
* `IPSets.Programmed`: what the kernel holds after the updates of a list of sets

## Main results

* `tryUpdates_programs_kernel`
-/

namespace Felix.Ipsets

open Replication

theorem Kernel.Holds.of_lookup_eq {k k' : Kernel} {n : String} {t : IPSetType}
    {P : String → Prop} (h : k.Holds n t P) (he : k'.lookup n = k.lookup n) : k'.Holds n t P := by
  obtain ⟨ks, hks, hty, hmem⟩ := h
  exact ⟨ks, he.trans hks, hty, hmem⟩

theorem Kernel.Holds.congr {k : Kernel} {n : String} {t : IPSetType} {P Q : String → Prop}
    (h : k.Holds n t P) (hPQ : ∀ x, P x ↔ Q x) : k.Holds n t Q := by
  obtain ⟨ks, hks, hty, hmem⟩ := h
  exact ⟨ks, hks, hty, fun x => (hmem x).trans (hPQ x)⟩

namespace IPSets

variable {s s' : IPSets} {k k' : Kernel}

/-- The kernel holds what the records say is programmed: the main set of each record in delta
mode exists, with the record's type and exactly its members. -/
def Agrees (s : IPSets) (k : Kernel) : Prop :=
  ∀ id ipSet M, s.ipSetIDToIPSet.lookup id = some ipSet → ipSet.members = some M →
    k.Holds ipSet.mainIPSetName ipSet.type (· ∈ M)

/-- A new manager has no records, so it agrees with any kernel. -/
theorem agrees_newIPSets (c : IPVersionConfig) (k : Kernel) : (newIPSets c).Agrees k := by
  intro id ipSet M hl
  simp [newIPSets] at hl

/-- Adding or replacing a set keeps the records in agreement with the kernel: the new record
is not programmed yet, and every other record is as it was. -/
theorem Agrees.addOrReplaceIPSet (hagree : s.Agrees k) {m : IPSetMetadata}
    {members : List String} (h : s.addOrReplaceIPSet m members = .ok s') : s'.Agrees k := by
  unfold IPSets.addOrReplaceIPSet at h
  obtain ⟨C, -, h⟩ := bind_eq_ok h
  cases h
  intro id ipSet M hl hM
  dsimp only at hl
  by_cases hid : id = m.setID
  · subst hid
    rw [AList.lookup_insert, Option.some.injEq] at hl
    subst hl
    cases hM
  · rw [AList.lookup_insert_ne hid] at hl
    exact hagree id ipSet M hl hM

/-- What the kernel `k'` holds after the updates of the sets `D` went through on `k`: the main
set of each needed set of `D` holds what the set wants, and every other name is as in `k`. -/
def Programmed (s : IPSets) (k : Kernel) (D : List String) (k' : Kernel) : Prop :=
  (∀ id ∈ D, s.ipSetNeeded id = true → ∀ ipSet, s.ipSetIDToIPSet.lookup id = some ipSet →
    k'.Holds ipSet.mainIPSetName ipSet.type ipSet.Wants) ∧
  ∀ n, (∀ id ∈ D, s.ipSetNeeded id = true → n ≠ s.ipVersionConfig.nameForMainIPSet id) →
    k'.lookup n = k.lookup n

/-- With distinct main names of the stored sets, the main name of a stored set is none other's. -/
theorem mainName_ne (hdist : (s.ipSetIDToIPSet.keys.map s.ipVersionConfig.nameForMainIPSet).Nodup)
    {id id' : String} (hid : id ∈ s.ipSetIDToIPSet) (hid' : id' ∈ s.ipSetIDToIPSet)
    (hne : id ≠ id') :
    s.ipVersionConfig.nameForMainIPSet id ≠ s.ipVersionConfig.nameForMainIPSet id' :=
  fun h => hne (List.inj_on_of_nodup_map hdist (AList.mem_keys.mpr hid) (AList.mem_keys.mpr hid') h)

/-- When `needUpdates` says no, no dirty set is needed. -/
theorem needUpdates_eq_false (h : s.needUpdates = false) {id : String}
    (hid : id ∈ s.dirtyIPSetIDs) : s.ipSetNeeded id = false := by
  unfold needUpdates at h
  cases hn : s.neededIPSetNames with
  | none =>
    rw [hn] at h
    have hnil : s.dirtyIPSetIDs.toList = [] := by simpa using h
    exact absurd (IterSet.mem_toList.mpr hid) (by rw [hnil]; exact List.not_mem_nil)
  | some needed =>
    rw [hn] at h
    exact Bool.eq_false_iff.mpr (List.any_eq_false.mp h id (IterSet.mem_toList.mpr hid))

/-- What marking a set programmed does to its own record: nothing unless it is needed, and
then the record is marked programmed. -/
theorem lookup_markProgrammed_self {id : String} (h : s.markProgrammed id = .ok s') :
    (s.ipSetNeeded id = false →
      s'.ipSetIDToIPSet.lookup id = s.ipSetIDToIPSet.lookup id) ∧
    (s.ipSetNeeded id = true → ∃ r p, s.ipSetIDToIPSet.lookup id = some r ∧
      r.markProgrammed = .ok p ∧ s'.ipSetIDToIPSet.lookup id = some p) := by
  unfold IPSets.markProgrammed at h
  cases hn : s.ipSetNeeded id
  · simp only [hn, Bool.not_false, if_true] at h
    cases h
    exact ⟨fun _ => rfl, fun h => by cases h⟩
  · simp only [hn, Bool.not_true, Bool.false_eq_true, if_false] at h
    cases hl : s.ipSetIDToIPSet.lookup id with
    | none =>
      rw [hl] at h
      cases h
    | some r =>
      rw [hl] at h
      obtain ⟨p, hp, h⟩ := bind_eq_ok h
      cases h
      exact ⟨fun hf => absurd hf (by decide), fun _ => ⟨r, p, rfl, hp, AList.lookup_insert _⟩⟩

/-- One turn of the writing loop: if the updates of `D` went through before it, those of `D`
and the turn's set go through after it. -/
theorem programmed_writeDirty (hs : s.Wf) (hagree : s.Agrees k)
    (hdist : (s.ipSetIDToIPSet.keys.map s.ipVersionConfig.nameForMainIPSet).Nodup)
    {D : List String} {lines lines₁ : List RestoreLine} {n : ℕ} {id : String} {t₁ : IPSets}
    (hid : id ∈ s.ipSetIDToIPSet) (hDk : ∀ id' ∈ D, id' ∈ s.ipSetIDToIPSet) (hfresh : id ∉ D)
    (hD : ∀ k₀, k.restore lines = (k₀, true) → s.Programmed k D k₀)
    (h : writeDirty (lines, { s with nextTempIPSetIdx := n }) id = .ok (lines₁, t₁)) :
    ∃ n₁, t₁ = { s with nextTempIPSetIdx := n₁ } ∧
      ∀ k₀, k.restore lines₁ = (k₀, true) → s.Programmed k (D ++ [id]) k₀ := by
  -- a name other than a needed set's main name of `D ++ [id]` is other than those of `D`
  have hother : ∀ nm : String, (∀ id' ∈ D ++ [id], s.ipSetNeeded id' = true →
      nm ≠ s.ipVersionConfig.nameForMainIPSet id') →
        ∀ id' ∈ D, s.ipSetNeeded id' = true → nm ≠ s.ipVersionConfig.nameForMainIPSet id' :=
    fun nm hnm id' hid' => hnm id' (List.mem_append_left _ hid')
  dsimp only [writeDirty] at h
  rw [show IPSets.ipSetNeeded { s with nextTempIPSetIdx := n } id = s.ipSetNeeded id from rfl,
    show IPSets.ipSetIDToIPSet { s with nextTempIPSetIdx := n } = s.ipSetIDToIPSet from rfl] at h
  split_ifs at h with hneed
  · -- a set that is not needed: nothing is written
    cases h
    refine ⟨n, rfl, fun k₀ hk₀ => ?_⟩
    obtain ⟨hheld, hrest⟩ := hD k₀ hk₀
    refine ⟨fun id' hid' hneed' => ?_, fun nm hnm => hrest nm (hother nm hnm)⟩
    rcases List.mem_append.mp hid' with hid' | hid'
    · exact hheld id' hid' hneed'
    · have hn : s.ipSetNeeded id = false := by simpa using hneed
      rw [List.mem_singleton.mp hid', hn] at hneed'
      cases hneed'
  · obtain ⟨ipSet, hl⟩ := Option.isSome_iff_exists.mp (AList.lookup_isSome.mpr hid)
    rw [hl] at h
    cases h
    obtain ⟨n₁, hn₁⟩ := writeUpdates_snd { s with nextTempIPSetIdx := n } ipSet
    refine ⟨n₁, hn₁, fun k₀ hk₀ => ?_⟩
    obtain ⟨k₁, h₁, h₂⟩ := Kernel.restore_append_eq_true.mp hk₀
    obtain ⟨hheld, hrest⟩ := hD k₁ h₁
    obtain ⟨hwf, -, hname⟩ := hs.stored id ipSet hl
    -- the set's main set is no set's of `D`, so before its update it is as in `k`
    have hne : ∀ id' ∈ D, ipSet.mainIPSetName ≠ s.ipVersionConfig.nameForMainIPSet id' :=
      fun id' hid' => hname ▸ mainName_ne hdist hid (hDk id' hid') fun h => hfresh (h ▸ hid')
    have hk₁ : k₁.lookup ipSet.mainIPSetName = k.lookup ipSet.mainIPSetName :=
      hrest _ fun id' hid' _ => hne id' hid'
    obtain ⟨hheld', hframe'⟩ := restore_writeUpdates hwf
      (fun M hM => (hagree id ipSet M hl hM).of_lookup_eq hk₁) h₂
    refine ⟨fun id' hid' hneed' ipSet' hl' => ?_, fun nm hnm => ?_⟩
    · rcases List.mem_append.mp hid' with hid' | hid'
      · -- the update did not touch the main set of a set of `D`
        obtain ⟨-, -, hname'⟩ := hs.stored id' ipSet' hl'
        refine (hheld id' hid' hneed' ipSet' hl').of_lookup_eq (hframe' _ ?_)
        rw [hname']
        exact (hne id' hid').symm
      · rw [List.mem_singleton.mp hid', hl, Option.some.injEq] at hl'
        rw [← hl']
        exact hheld'
    · have hnm' : nm ≠ ipSet.mainIPSetName := by
        rw [hname]
        exact hnm id (List.mem_append_right _ (List.mem_singleton_self _))
          (by simpa using hneed)
      rw [hframe' nm hnm']
      exact hrest nm (hother nm hnm)

/-- One turn of the writing loop, then the rest: the updates of `D` went through before it. -/
theorem restore_foldlM_writeDirty (hs : s.Wf) (hagree : s.Agrees k)
    (hdist : (s.ipSetIDToIPSet.keys.map s.ipVersionConfig.nameForMainIPSet).Nodup) :
    ∀ (l D : List String) (lines : List RestoreLine) (n : ℕ) (r : List RestoreLine × IPSets),
      (∀ id ∈ l, id ∈ s.ipSetIDToIPSet) → (∀ id ∈ D, id ∈ s.ipSetIDToIPSet) → l.Nodup →
      (∀ id ∈ l, id ∉ D) → (∀ k₀, k.restore lines = (k₀, true) → s.Programmed k D k₀) →
      l.foldlM writeDirty (lines, { s with nextTempIPSetIdx := n }) = .ok r →
      ∀ k', k.restore r.1 = (k', true) → s.Programmed k (D ++ l) k'
  | [], D, lines, n, r, _, _, _, _, hD, h, k', hk' => by
    cases h
    rw [List.append_nil]
    exact hD k' hk'
  | id :: l, D, lines, n, r, hl, hDk, hnd, hfresh, hD, h, k', hk' => by
    rw [List.foldlM_cons] at h
    obtain ⟨⟨lines₁, t₁⟩, h₁, h⟩ := bind_eq_ok h
    have hid : id ∈ s.ipSetIDToIPSet := hl id List.mem_cons_self
    rw [List.nodup_cons] at hnd
    -- the updates of `D` and `id` went through before the rest of the list
    obtain ⟨n₁, rfl, hD₁⟩ := programmed_writeDirty hs hagree hdist hid hDk
      (fun h => hfresh id List.mem_cons_self h) hD h₁
    have := restore_foldlM_writeDirty hs hagree hdist l (D ++ [id]) lines₁ n₁ r
      (fun id' hid' => hl id' (List.mem_cons_of_mem _ hid'))
      (fun id' hid' => by
        rcases List.mem_append.mp hid' with hid' | hid'
        · exact hDk id' hid'
        · rw [List.mem_singleton.mp hid']
          exact hid)
      hnd.2
      (fun id' hid' hD' => by
        rcases List.mem_append.mp hD' with hD' | hD'
        · exact hfresh id' (List.mem_cons_of_mem _ hid') hD'
        · exact hnd.1 (List.mem_singleton.mp hD' ▸ hid'))
      hD₁ h k' hk'
    rwa [List.append_assoc, List.singleton_append] at this

/-- `tryUpdates`' bookkeeping over distinct IDs: the record of each needed set of the list is
marked programmed, and every other record is as it was. -/
theorem lookup_foldlM_markProgrammed {l : List String} (hl : l.Nodup)
    (h : l.foldlM IPSets.markProgrammed s = .ok s') :
    (∀ id ∈ l, (s.ipSetNeeded id = false →
        s'.ipSetIDToIPSet.lookup id = s.ipSetIDToIPSet.lookup id) ∧
      (s.ipSetNeeded id = true → ∃ r p, s.ipSetIDToIPSet.lookup id = some r ∧
        r.markProgrammed = .ok p ∧ s'.ipSetIDToIPSet.lookup id = some p)) ∧
    ∀ id, id ∉ l → s'.ipSetIDToIPSet.lookup id = s.ipSetIDToIPSet.lookup id := by
  -- each turn changes only its own record, and no turn changes which sets are needed
  have hinv : ∀ (t : IPSets) id t', t.ipSetNeeded = s.ipSetNeeded →
      t.markProgrammed id = .ok t' → t'.ipSetNeeded = s.ipSetNeeded := by
    intro t id t' ht hstep
    rcases markProgrammed_cases hstep with rfl | ⟨-, r, p, -, -, rfl⟩
    · exact ht
    · exact ht
  have hframe : ∀ (t : IPSets) id t' x, t.ipSetNeeded = s.ipSetNeeded →
      t.markProgrammed id = .ok t' → x ≠ id →
        t'.ipSetIDToIPSet.lookup x = t.ipSetIDToIPSet.lookup x := by
    intro t id t' x _ hstep hx
    rcases markProgrammed_cases hstep with rfl | ⟨-, r, p, -, -, rfl⟩
    · rfl
    · exact AList.lookup_insert_ne hx
  have hself : ∀ (t : IPSets) id t', t.ipSetNeeded = s.ipSetNeeded →
      t.markProgrammed id = .ok t' →
        (s.ipSetNeeded id = false →
          t'.ipSetIDToIPSet.lookup id = t.ipSetIDToIPSet.lookup id) ∧
        (s.ipSetNeeded id = true → ∃ r p, t.ipSetIDToIPSet.lookup id = some r ∧
          r.markProgrammed = .ok p ∧ t'.ipSetIDToIPSet.lookup id = some p) := by
    intro t id t' ht hstep
    rw [← ht]
    exact lookup_markProgrammed_self hstep
  have := foldlM_pointwise (fun id : String => id) (fun t id => t.ipSetIDToIPSet.lookup id)
    (fun id before after => (s.ipSetNeeded id = false → after = before) ∧
      (s.ipSetNeeded id = true → ∃ r p, before = some r ∧ r.markProgrammed = .ok p ∧
        after = some p))
    (fun t => t.ipSetNeeded = s.ipSetNeeded) hinv hframe hself (by simpa using hl) rfl h
  simpa using this

/-- An update session that goes through programs the kernel. From a well-formed state whose
records agree with the kernel and whose stored sets have distinct main set names, once
`tryUpdates` reports success the main set of every dirty needed set holds exactly the members
`GetMembers` returned for it, and the records agree with the kernel again. -/
theorem tryUpdates_programs_kernel (hs : s.Wf) (hagree : s.Agrees k)
    (hdist : (s.ipSetIDToIPSet.keys.map s.ipVersionConfig.nameForMainIPSet).Nodup)
    (h : s.tryUpdates k = .ok (s', k', true)) :
    s'.Agrees k' ∧ ∀ id ∈ s.dirtyIPSetIDs, s.ipSetNeeded id = true →
      ∀ ipSet, s.ipSetIDToIPSet.lookup id = some ipSet →
        k'.Holds ipSet.mainIPSetName ipSet.type fun x => ∃ ms, s.getMembers id = .ok ms ∧ x ∈ ms := by
  unfold IPSets.tryUpdates at h
  split_ifs at h with hneed
  · -- no dirty set is needed: nothing is written
    cases h
    refine ⟨hagree, fun id hid hn => ?_⟩
    rw [needUpdates_eq_false (by simpa using hneed) hid] at hn
    cases hn
  obtain ⟨⟨lines, s₁⟩, h₁, h⟩ := bind_eq_ok h
  obtain ⟨n, hn⟩ := foldlM_writeDirty_snd s h₁
  dsimp only at hn
  subst hn
  rcases hr : k.restore (lines ++ [.commit]) with ⟨kR, ok⟩
  dsimp only at h
  rw [hr] at h
  cases ok
  · cases h
  obtain ⟨s₂, h₂, h⟩ := bind_eq_ok h
  cases h
  -- the lines went through before the commit, which changes nothing
  obtain ⟨k₁, hk₁, hc⟩ := Kernel.restore_append_eq_true.mp hr
  simp only [Kernel.restore, Kernel.restoreLine, Prod.mk.injEq, and_true] at hc
  subst hc
  set l := s.dirtyIPSetIDs.toList
  have hl : ∀ id ∈ l, id ∈ s.ipSetIDToIPSet :=
    fun id hid => hs.dirty_known id (IterSet.mem_toList.mp hid)
  -- what the session did to the kernel, and the bookkeeping to the records
  have hprog : s.Programmed k l k₁ := by
    have hnil : ∀ k₀, k.restore [] = (k₀, true) → s.Programmed k [] k₀ := by
      intro k₀ hk₀
      simp only [Kernel.restore, Prod.mk.injEq, and_true] at hk₀
      subst hk₀
      exact ⟨fun _ h => absurd h List.not_mem_nil, fun _ _ => rfl⟩
    simpa using restore_foldlM_writeDirty hs hagree hdist l [] [] s.nextTempIPSetIdx _ hl
      (fun _ h => absurd h List.not_mem_nil) s.dirtyIPSetIDs.nodup
      (fun _ _ h => absurd h List.not_mem_nil) hnil h₁ k₁ hk₁
  have hmark : (∀ id ∈ l, (s.ipSetNeeded id = false →
        s'.ipSetIDToIPSet.lookup id = s.ipSetIDToIPSet.lookup id) ∧
      (s.ipSetNeeded id = true → ∃ r p, s.ipSetIDToIPSet.lookup id = some r ∧
        r.markProgrammed = .ok p ∧ s'.ipSetIDToIPSet.lookup id = some p)) ∧
      ∀ id, id ∉ l → s'.ipSetIDToIPSet.lookup id = s.ipSetIDToIPSet.lookup id :=
    lookup_foldlM_markProgrammed (s := { s with nextTempIPSetIdx := n }) s.dirtyIPSetIDs.nodup h₂
  refine ⟨fun id r' M' hl' hM' => ?_, fun id hid hn ipSet hl' => ?_⟩
  · by_cases hd : id ∈ l ∧ s.ipSetNeeded id = true
    · -- a set the session programmed: its main set holds what it wanted, now its members
      obtain ⟨r, p, hr, hp, hl''⟩ := (hmark.1 id hd.1).2 hd.2
      rw [hl', Option.some.injEq] at hl''
      subst hl''
      obtain ⟨hk, hw, hrep, hnd⟩ := (hs.stored id r hr).1.markProgrammed hp
      rw [hk.name_eq, congrArg IPSetMetadata.type hk.meta_eq]
      refine (hprog.1 id hd.1 hd.2 r hr).congr fun x => ?_
      rw [← hw x, IPSet.wants_of_delta hM' hrep]
      simp [(hnd x).1, (hnd x).2]
    · -- any other set: its record and its main set are as they were
      have hl₀ : s.ipSetIDToIPSet.lookup id = some r' := by
        rw [← hl']
        by_cases hid : id ∈ l
        · exact ((hmark.1 id hid).1 (by simpa [hid] using hd)).symm
        · exact (hmark.2 id hid).symm
      obtain ⟨-, -, hname⟩ := hs.stored id r' hl₀
      have hid : id ∈ s.ipSetIDToIPSet := AList.lookup_isSome.mp (by rw [hl₀]; rfl)
      refine (hagree id r' M' hl₀ hM').of_lookup_eq (hprog.2 _ fun id' hid' hn' => ?_)
      rw [hname]
      exact mainName_ne hdist hid (hl id' hid') fun he => hd (he ▸ ⟨hid', hn'⟩)
  · exact (hprog.1 id (IterSet.mem_toList.mpr hid) hn ipSet hl').congr fun x => by
      simp only [IPSet.Wants, IPSets.getMembers, hl']

theorem tryUpdates_programs_kernel_added :
    ∃ s s' k', (newIPSets resyncConfig).addOrReplaceIPSet ⟨"s:abc", .hashIP, 1048576⟩
        ["10.0.0.1"] = .ok s ∧ s.tryUpdates ∅ = .ok (s', k', true) ∧
      s'.Agrees k' ∧ ∀ id ∈ s.dirtyIPSetIDs, s.ipSetNeeded id = true →
        ∀ ipSet, s.ipSetIDToIPSet.lookup id = some ipSet →
          k'.Holds ipSet.mainIPSetName ipSet.type fun x => ∃ ms, s.getMembers id = .ok ms ∧ x ∈ ms :=
  have ha : (newIPSets resyncConfig).addOrReplaceIPSet ⟨"s:abc", .hashIP, 1048576⟩
      ["10.0.0.1"] = .ok _ := rfl
  ⟨_, _, _, ha, rfl, tryUpdates_programs_kernel ((wf_newIPSets _).addOrReplaceIPSet ha)
    ((agrees_newIPSets _ ∅).addOrReplaceIPSet ha) (by decide) rfl⟩

end IPSets

end Felix.Ipsets
