import Felix.Bpf.IPSetsManager
import Felix.Replication.Report

/-!
# The BPF IP sets manager: what each set takes the map to hold

A set's pending operations say how the map differs from the entries the set wants: the map
holds the wanted entries that are not pending addition, and the entries pending removal
(`BpfIPSet.Programmed`). Changing the members changes what the set wants and leaves that
view alone (`Rewanted`); `ApplyUpdates` moves the map towards it.

The manager's invariants come in two parts. `BpfIPSets.Wf` holds in every reachable state: the
allocator's IDs are those of the sets, each set is consistent and carries its ID in all its
entries, and the dirty IDs are sets. `Synced` holds whenever no resync is scheduled: each
set's view is exactly the map's entries with its ID, the map has no entry of another ID, and a
set with work to do is dirty. A failed call schedules a resync, and a resync that scans the
whole map restores `Synced`.

## Main results

* `Wf.addMember`, `Wf.removeMember`, `Wf.forEachMemberEntry`: member changes keep a set
  consistent and change only what it wants
* `Wf.addOrReplaceIPSet`, `Wf.removeIPSet`, `Wf.updateMembers`, with their `Synced` lemmas
* `resync_spec`: what the sets want after a resync, and that a whole scan makes each set's
  view the map's entries with its ID
* `flushIPSet` lemmas: one dirty set's turn keeps the invariants, and a set released in it
  leaves no entry behind
-/

namespace Felix.Bpf

open Idalloc Replication

namespace BpfIPSet

/-- What the set takes the map to hold: its wanted entries that are not pending addition, and
those pending removal. -/
def Programmed (s : BpfIPSet) (e : IPSetEntry) : Prop :=
  (e ∈ s.desiredEntries ∧ e ∉ s.pendingAdds) ∨ e ∈ s.pendingRemoves
attribute [grind] Programmed

/-- A set with ID `id` is consistent: it has that ID and its entries carry it, an entry to add
is wanted and one to remove is not, and a set queued for deletion wants nothing. -/
structure Wf (id : UInt64) (s : BpfIPSet) : Prop where
  id_eq : s.id = id
  desired_setID : ∀ e ∈ s.desiredEntries, IPSetEntry.setID e = id
  removes_setID : ∀ e ∈ s.pendingRemoves, IPSetEntry.setID e = id
  adds_desired : ∀ e ∈ s.pendingAdds, e ∈ s.desiredEntries
  removes_not_desired : ∀ e ∈ s.pendingRemoves, e ∉ s.desiredEntries
  deleted_empty : s.deleted = true → ∀ e, e ∉ s.desiredEntries

/-- `s'` is `s` wanting other entries: its name, ID and deletion mark are kept, and so is what
it takes the map to hold. -/
structure Rewanted (s s' : BpfIPSet) : Prop where
  originalID : s'.originalID = s.originalID
  id : s'.id = s.id
  deleted : s'.deleted = s.deleted
  programmed : ∀ e, s'.Programmed e ↔ s.Programmed e

theorem Rewanted.refl (s : BpfIPSet) : Rewanted s s := ⟨rfl, rfl, rfl, fun _ => Iff.rfl⟩

theorem Rewanted.trans {s s' s'' : BpfIPSet} (h : Rewanted s s') (h' : Rewanted s' s'') :
    Rewanted s s'' :=
  ⟨h'.originalID.trans h.originalID, h'.id.trans h.id, h'.deleted.trans h.deleted,
    fun e => (h'.programmed e).trans (h.programmed e)⟩

/-- A set with nothing pending and not queued for deletion is clean. -/
theorem dirty_eq_false {s : BpfIPSet} :
    s.dirty = false ↔ (∀ e, e ∉ s.pendingRemoves) ∧ (∀ e, e ∉ s.pendingAdds) ∧ s.deleted = false := by
  simp only [dirty, Bool.or_eq_false_iff, decide_eq_false_iff_not, Nat.not_lt, Nat.le_zero,
    List.length_eq_zero_iff, List.eq_nil_iff_forall_not_mem, IterSet.mem_toList, and_assoc]

/-- A clean set takes the map to hold exactly its wanted entries. -/
theorem programmed_of_clean {s : BpfIPSet} (h : s.dirty = false) (e : IPSetEntry) :
    s.Programmed e ↔ e ∈ s.desiredEntries := by
  obtain ⟨hr, ha, -⟩ := dirty_eq_false.mp h
  simp [Programmed, hr e, ha e]

/-! ### Changing the members -/

variable {id : UInt64} {s : BpfIPSet} {e x : IPSetEntry}

theorem mem_desiredEntries_addMember :
    x ∈ (s.addMember e).desiredEntries ↔ x = e ∨ x ∈ s.desiredEntries := by
  unfold addMember
  split_ifs with hd
  · constructor
    · exact Or.inr
    · rintro (rfl | hx)
      · exact hd
      · exact hx
  · simp
  · simp

theorem mem_desiredEntries_removeMember :
    x ∈ (s.removeMember e).desiredEntries ↔ x ≠ e ∧ x ∈ s.desiredEntries := by
  unfold removeMember
  split_ifs with hd
  · simp
  · simp
  · constructor
    · intro hx
      exact ⟨fun he => hd (he ▸ hx), hx⟩
    · exact And.right

/-- `AddMember` keeps a live set consistent, for an entry with its ID, and changes only what it
wants. -/
theorem Wf.addMember (hs : s.Wf id) (hd : s.deleted = false) (he : IPSetEntry.setID e = id) :
    (s.addMember e).Wf id ∧ Rewanted s (s.addMember e) := by
  unfold BpfIPSet.addMember
  split_ifs with hin hr
  · exact ⟨hs, Rewanted.refl s⟩
  · -- a pending removal is cancelled: the entry is in the map and stays there
    refine ⟨⟨hs.id_eq, ?_, ?_, ?_, ?_, by simp [hd]⟩, ⟨rfl, rfl, rfl, ?_⟩⟩
    · simpa using ⟨he, hs.desired_setID⟩
    · simpa using fun x _ hx => hs.removes_setID x hx
    · simpa using fun x hx => Or.inr (hs.adds_desired x hx)
    · simpa using fun x hne hx => ⟨hne, hs.removes_not_desired x hx⟩
    · intro x
      by_cases hx : x = e
      · subst hx
        have hna : x ∉ s.pendingAdds := fun ha => hin (hs.adds_desired x ha)
        simp [Programmed, hna, hr]
      · simp [Programmed, hx]
  · -- the entry is not in the map and is to be added
    refine ⟨⟨hs.id_eq, ?_, hs.removes_setID, ?_, ?_, by simp [hd]⟩, ⟨rfl, rfl, rfl, ?_⟩⟩
    · simpa using ⟨he, hs.desired_setID⟩
    · simpa using fun x hx => Or.inr (hs.adds_desired x hx)
    · simpa using fun x hx => ⟨fun h => hr (h ▸ hx), hs.removes_not_desired x hx⟩
    · intro x
      by_cases hx : x = e
      · subst hx
        simp [Programmed, hin, hr]
      · simp [Programmed, hx]

/-- `RemoveMember` keeps a set consistent and changes only what it wants. -/
theorem Wf.removeMember (hs : s.Wf id) : (s.removeMember e).Wf id ∧ Rewanted s (s.removeMember e) := by
  unfold BpfIPSet.removeMember
  split_ifs with hin ha
  · -- a pending addition is cancelled: the entry is not in the map and stays out
    refine ⟨⟨hs.id_eq, ?_, hs.removes_setID, ?_, ?_, ?_⟩, ⟨rfl, rfl, rfl, ?_⟩⟩
    · simpa using fun x _ hx => hs.desired_setID x hx
    · simpa using fun x hne hx => ⟨hne, hs.adds_desired x hx⟩
    · simpa using fun x hx _ => hs.removes_not_desired x hx
    · simpa using fun hdel x _ => hs.deleted_empty hdel x
    · intro x
      by_cases hx : x = e
      · subst hx
        have hnr : x ∉ s.pendingRemoves := fun hr => hs.removes_not_desired x hr hin
        simp [Programmed, hnr, ha]
      · simp [Programmed, hx]
  · -- the entry is in the map and is to be removed
    refine ⟨⟨hs.id_eq, ?_, ?_, ?_, ?_, ?_⟩, ⟨rfl, rfl, rfl, ?_⟩⟩
    · simpa using fun x _ hx => hs.desired_setID x hx
    · simpa using ⟨hs.desired_setID e hin, hs.removes_setID⟩
    · simpa using fun x hx => ⟨fun h => ha (h ▸ hx), hs.adds_desired x hx⟩
    · simpa using fun x hx _ => hs.removes_not_desired x hx
    · simpa using fun hdel x _ => hs.deleted_empty hdel x
    · intro x
      by_cases hx : x = e
      · subst hx
        simp [Programmed, hin, ha]
      · simp [Programmed, hx]
  · exact ⟨hs, Rewanted.refl s⟩

/-- Removing the entries of a list, one after the other. -/
theorem Wf.foldl_removeMember : ∀ (l : List IPSetEntry) {s : BpfIPSet}, s.Wf id →
    (l.foldl BpfIPSet.removeMember s).Wf id ∧ Rewanted s (l.foldl BpfIPSet.removeMember s) ∧
      ∀ x, x ∈ (l.foldl BpfIPSet.removeMember s).desiredEntries ↔ x ∉ l ∧ x ∈ s.desiredEntries
  | [], _, hs => ⟨hs, Rewanted.refl _, by simp⟩
  | e :: l, s, hs => by
    obtain ⟨hw, hr⟩ := hs.removeMember (e := e)
    obtain ⟨hw', hr', hd'⟩ := Wf.foldl_removeMember l hw
    refine ⟨hw', hr.trans hr', fun x => ?_⟩
    rw [List.foldl_cons, hd', mem_desiredEntries_removeMember, List.mem_cons]
    tauto

/-- `RemoveAll` leaves a consistent set wanting nothing, and taking the map to hold what it
did. -/
theorem Wf.removeAll (hs : s.Wf id) :
    s.removeAll.Wf id ∧ Rewanted s s.removeAll ∧ ∀ x, x ∉ s.removeAll.desiredEntries := by
  obtain ⟨hw, hr, hd⟩ := Wf.foldl_removeMember s.desiredEntries.toList hs
  refine ⟨hw, hr, fun x hx => ?_⟩
  rw [BpfIPSet.removeAll, hd] at hx
  exact hx.1 hx.2

/-- `e` is the entry, in the set `id`, of one of the members. -/
def MemberEntry (id : UInt64) (members : List String) (e : IPSetEntry) : Prop :=
  ∃ x ∈ members, protoIPSetMemberToBPFEntry id x = .ok (some e)
attribute [grind] MemberEntry

theorem memberEntry_cons {id : UInt64} {member : String} {members : List String} :
    MemberEntry id (member :: members) e ↔
      protoIPSetMemberToBPFEntry id member = .ok (some e) ∨ MemberEntry id members e := by
  simp [MemberEntry]

/-- The loop over members for an `op` that makes its entry wanted (`b`) or unwanted (`¬b`) and
keeps the set consistent: the entries of the members are wanted, or not, and the others as
before. -/
theorem Wf.foldlM_memberEntry {op : BpfIPSet → IPSetEntry → BpfIPSet} {b : Prop}
    (hdes : ∀ s e x, x ∈ (op s e).desiredEntries ↔ (x = e ∧ b) ∨ (x ≠ e ∧ x ∈ s.desiredEntries))
    (hop : ∀ s e, s.Wf id → s.deleted = false → IPSetEntry.setID e = id →
      (op s e).Wf id ∧ Rewanted s (op s e)) :
    ∀ {members : List String} {s s' : BpfIPSet}, s.Wf id → s.deleted = false →
      members.foldlM (fun acc member => do
        match ← protoIPSetMemberToBPFEntry id member with
        | some entry => pure (op acc entry)
        | none => pure acc) s = .ok s' →
      s'.Wf id ∧ Rewanted s s' ∧ ∀ x, x ∈ s'.desiredEntries ↔
        (MemberEntry id members x ∧ b) ∨ (¬MemberEntry id members x ∧ x ∈ s.desiredEntries)
  | [], s, s', hs, _, h => by
    cases h
    exact ⟨hs, Rewanted.refl _, by simp [MemberEntry]⟩
  | member :: members, s, s', hs, hd, h => by
    rw [List.foldlM_cons] at h
    obtain ⟨s₁, h₁, h⟩ := bind_eq_ok h
    obtain ⟨o, ho, h₁⟩ := bind_eq_ok h₁
    -- the first member's entry, if it has one, goes to `op`
    have hstep : s₁.Wf id ∧ Rewanted s s₁ ∧ ∀ x, x ∈ s₁.desiredEntries ↔
        (protoIPSetMemberToBPFEntry id member = .ok (some x) ∧ b) ∨
          (protoIPSetMemberToBPFEntry id member ≠ .ok (some x) ∧ x ∈ s.desiredEntries) := by
      cases o with
      | none =>
        cases h₁
        refine ⟨hs, Rewanted.refl _, fun x => ?_⟩
        simp [ho]
      | some e =>
        cases h₁
        obtain ⟨hw, hr⟩ := hop s e hs hd (setID_of_protoIPSetMemberToBPFEntry ho)
        refine ⟨hw, hr, fun x => ?_⟩
        rw [hdes, ho]
        simp only [Except.ok.injEq, Option.some.injEq, ne_eq]
        constructor
        · rintro (⟨rfl, hb⟩ | ⟨hx, hxs⟩)
          · exact .inl ⟨rfl, hb⟩
          · exact .inr ⟨fun h => hx h.symm, hxs⟩
        · rintro (⟨rfl, hb⟩ | ⟨hx, hxs⟩)
          · exact .inl ⟨rfl, hb⟩
          · exact .inr ⟨fun h => hx h.symm, hxs⟩
    obtain ⟨hw₁, hr₁, hd₁⟩ := hstep
    obtain ⟨hw, hr, hdes'⟩ := Wf.foldlM_memberEntry hdes hop hw₁ (hr₁.deleted.trans hd) h
    refine ⟨hw, hr₁.trans hr, fun x => ?_⟩
    rw [hdes', hd₁, memberEntry_cons]
    tauto

/-- `forEachMemberEntry` of `AddMember` on a live set: the members' entries are wanted too. -/
theorem Wf.forEachMemberEntry_addMember {members : List String} {s' : BpfIPSet} (hs : s.Wf id)
    (hd : s.deleted = false) (h : s.forEachMemberEntry BpfIPSet.addMember members = .ok s') :
    s'.Wf id ∧ Rewanted s s' ∧ ∀ x, x ∈ s'.desiredEntries ↔
      MemberEntry id members x ∨ x ∈ s.desiredEntries := by
  rw [forEachMemberEntry, hs.id_eq] at h
  have hdes : ∀ s e x, x ∈ (BpfIPSet.addMember s e).desiredEntries ↔
      (x = e ∧ True) ∨ (x ≠ e ∧ x ∈ s.desiredEntries) := fun s e x => by
    rw [mem_desiredEntries_addMember]
    tauto
  obtain ⟨hw, hr, hx⟩ := Wf.foldlM_memberEntry hdes (fun s e hs hd he => hs.addMember hd he) hs hd h
  refine ⟨hw, hr, fun x => ?_⟩
  rw [hx]
  tauto

/-- `forEachMemberEntry` of `RemoveMember`: the members' entries are no longer wanted. -/
theorem Wf.forEachMemberEntry_removeMember {members : List String} {s' : BpfIPSet}
    (hs : s.Wf id) (hd : s.deleted = false)
    (h : s.forEachMemberEntry BpfIPSet.removeMember members = .ok s') :
    s'.Wf id ∧ Rewanted s s' ∧ ∀ x, x ∈ s'.desiredEntries ↔
      ¬MemberEntry id members x ∧ x ∈ s.desiredEntries := by
  rw [forEachMemberEntry, hs.id_eq] at h
  have hdes : ∀ s e x, x ∈ (BpfIPSet.removeMember s e).desiredEntries ↔
      (x = e ∧ False) ∨ (x ≠ e ∧ x ∈ s.desiredEntries) := fun s e x => by
    rw [mem_desiredEntries_removeMember]
    tauto
  obtain ⟨hw, hr, hx⟩ := Wf.foldlM_memberEntry hdes (fun s e hs _ _ => hs.removeMember) hs hd h
  refine ⟨hw, hr, fun x => ?_⟩
  rw [hx]
  tauto

/-- `ReplaceMembers` on a live set: it wants exactly the members' entries. -/
theorem Wf.replaceMembers {members : List String} {s' : BpfIPSet} (hs : s.Wf id)
    (hd : s.deleted = false) (h : s.replaceMembers members = .ok s') :
    s'.Wf id ∧ Rewanted s s' ∧ ∀ x, x ∈ s'.desiredEntries ↔ MemberEntry id members x := by
  obtain ⟨hw₀, hr₀, hd₀⟩ := hs.removeAll
  rw [BpfIPSet.replaceMembers, BpfIPSet.addMembers] at h
  obtain ⟨hw, hr, hx⟩ := hw₀.forEachMemberEntry_addMember (hr₀.deleted.trans hd) h
  refine ⟨hw, hr₀.trans hr, fun x => ?_⟩
  rw [hx]
  simp [hd₀ x]

end BpfIPSet


namespace BpfIPSets

/-- The manager is consistent: every allocated ID is a set's, each set is consistent under its
ID and the allocator names it by its string, and every dirty ID is a set's. -/
structure Wf (m : BpfIPSets) : Prop where
  allocated : ∀ id ∈ m.ipSetIDAllocator.uint64ToStr, id ∈ m.ipSets
  sets : ∀ id s, m.ipSets.lookup id = some s →
    s.Wf id ∧ m.ipSetIDAllocator.uint64ToStr.lookup id = some s.originalID
  dirty : ∀ id ∈ m.dirtyIPSetIDs, id ∈ m.ipSets

/-- Each set's entries in the map are what the set takes them to be. -/
def EntriesSynced (m : BpfIPSets) (dataplane : IterSet IPSetEntry) : Prop :=
  ∀ id s, m.ipSets.lookup id = some s → ∀ e, IPSetEntry.setID e = id →
    (e ∈ dataplane ↔ s.Programmed e)

/-- The manager knows the map: each set's entries in it are what the set takes them to be, it
has no entry of another ID, and a set with work to do is dirty. -/
structure Synced (m : BpfIPSets) (dataplane : IterSet IPSetEntry) : Prop where
  entries : EntriesSynced m dataplane
  known : ∀ e ∈ dataplane, IPSetEntry.setID e ∈ m.ipSets
  dirty : ∀ id s, m.ipSets.lookup id = some s → s.dirty = true → id ∈ m.dirtyIPSetIDs

/-- `m'` is `m` with `s'` stored under `id` and marked dirty. -/
structure Stored (m m' : BpfIPSets) (id : UInt64) (s' : BpfIPSet) : Prop where
  lookup_self : m'.ipSets.lookup id = some s'
  lookup_ne : ∀ x, x ≠ id → m'.ipSets.lookup x = m.ipSets.lookup x
  dirty : ∀ x, x ∈ m'.dirtyIPSetIDs ↔ x = id ∨ x ∈ m.dirtyIPSetIDs
  resyncScheduled : m'.resyncScheduled = m.resyncScheduled

variable {m m' : BpfIPSets} {dp : IterSet IPSetEntry} {id : UInt64} {s s' : BpfIPSet}

theorem mem_of_lookup {x : UInt64} (h : m.ipSets.lookup x = some s) : x ∈ m.ipSets :=
  AList.lookup_isSome.mp (by rw [h]; rfl)

/-- A set's ID is allocated, so it is not 0. -/
theorem Wf.ne_zero (hm : m.Wf) (h : m.ipSets.lookup id = some s) : id ≠ 0 := by
  rintro rfl
  exact m.ipSetIDAllocator.zero_not_mem
    (AList.lookup_isSome.mp (by rw [((hm.sets 0 s h).2)]; rfl))

/-- The sets are the allocated IDs. -/
theorem Wf.mem_iff (hm : m.Wf) : id ∈ m.ipSets ↔ id ∈ m.ipSetIDAllocator.uint64ToStr := by
  refine ⟨fun h => ?_, hm.allocated id⟩
  obtain ⟨s, hs⟩ := Option.isSome_iff_exists.mp (AList.lookup_isSome.mpr h)
  exact AList.lookup_isSome.mp (by rw [(hm.sets id s hs).2]; rfl)

/-- A live string ID names the set under its ID. -/
theorem getExistingIPSetString_eq_some {setID : String}
    (h : m.getExistingIPSetString setID = some s) :
    m.ipSetIDAllocator.getNoAlloc setID ≠ 0 ∧
      m.ipSets.lookup (m.ipSetIDAllocator.getNoAlloc setID) = some s := by
  unfold getExistingIPSetString at h
  dsimp only at h
  split_ifs at h with h0
  exact ⟨h0, h⟩

/-- In a consistent manager no set has ID 0, so a string's set is the one under its ID. -/
theorem Wf.getExistingIPSetString_eq (hm : m.Wf) (setID : String) :
    m.getExistingIPSetString setID = m.ipSets.lookup (m.ipSetIDAllocator.getNoAlloc setID) := by
  unfold getExistingIPSetString
  dsimp only
  split_ifs with h0
  · rw [h0]
    cases hl : m.ipSets.lookup 0 with
    | none => rfl
    | some s => exact absurd rfl (hm.ne_zero hl)
  · rfl

/-- No two strings' sets share an ID. -/
theorem Wf.getExistingIPSetString_inj (hm : m.Wf) {setID₁ setID₂ : String} {s₁ s₂ : BpfIPSet}
    (h₁ : m.getExistingIPSetString setID₁ = some s₁) (h₂ : m.getExistingIPSetString setID₂ = some s₂)
    (h : s₁.id = s₂.id) : setID₁ = setID₂ := by
  obtain ⟨h0, hl₁⟩ := getExistingIPSetString_eq_some h₁
  obtain ⟨-, hl₂⟩ := getExistingIPSetString_eq_some h₂
  have hid : m.ipSetIDAllocator.getNoAlloc setID₁ = m.ipSetIDAllocator.getNoAlloc setID₂ := by
    rw [← (hm.sets _ s₁ hl₁).1.id_eq, ← (hm.sets _ s₂ hl₂).1.id_eq, h]
  exact IDAllocator.getNoAlloc_inj hid h0

theorem stored_putIPSet_mark (s' : BpfIPSet) :
    Stored m ((m.putIPSet s').markIPSetDirty s') s'.id s' where
  lookup_self := AList.lookup_insert _
  lookup_ne _ hx := AList.lookup_insert_ne hx
  dirty _ := IterSet.mem_add
  resyncScheduled := rfl

/-- Storing a changed set keeps the manager consistent, when the allocator keeps its old IDs
and their strings and allocates at most the set's ID, to the set's string. -/
theorem Wf.stored (hm : m.Wf) (hst : Stored m m' id s') (hs' : s'.Wf id)
    (halloc : ∀ x ∈ m'.ipSetIDAllocator.uint64ToStr, x = id ∨ x ∈ m.ipSetIDAllocator.uint64ToStr)
    (hkeep : ∀ x str, m.ipSetIDAllocator.uint64ToStr.lookup x = some str →
      m'.ipSetIDAllocator.uint64ToStr.lookup x = some str)
    (hname : m'.ipSetIDAllocator.uint64ToStr.lookup id = some s'.originalID) : m'.Wf where
  allocated x hx := by
    rcases halloc x hx with rfl | hx
    · exact mem_of_lookup hst.lookup_self
    · obtain ⟨t, ht⟩ := Option.isSome_iff_exists.mp (AList.lookup_isSome.mpr (hm.allocated x hx))
      by_cases hxi : x = id
      · subst hxi
        exact mem_of_lookup hst.lookup_self
      · exact mem_of_lookup ((hst.lookup_ne x hxi).trans ht)
  sets x t ht := by
    by_cases hxi : x = id
    · subst hxi
      rw [hst.lookup_self] at ht
      cases ht
      exact ⟨hs', hname⟩
    · rw [hst.lookup_ne x hxi] at ht
      exact ⟨(hm.sets x t ht).1, hkeep x _ (hm.sets x t ht).2⟩
  dirty x hx := by
    by_cases hxi : x = id
    · subst hxi
      exact mem_of_lookup hst.lookup_self
    · rcases (hst.dirty x).mp hx with rfl | hx
      · exact absurd rfl hxi
      · obtain ⟨t, ht⟩ := Option.isSome_iff_exists.mp (AList.lookup_isSome.mpr (hm.dirty x hx))
        exact mem_of_lookup ((hst.lookup_ne x hxi).trans ht)

/-- Storing a set that takes the map to hold what it does hold keeps the manager in sync. -/
theorem Synced.stored (hS : m.Synced dp) (hst : Stored m m' id s')
    (hprog : ∀ e, IPSetEntry.setID e = id → (e ∈ dp ↔ s'.Programmed e)) : m'.Synced dp where
  entries x t ht e he := by
    by_cases hxi : x = id
    · subst hxi
      rw [hst.lookup_self] at ht
      cases ht
      exact hprog e he
    · rw [hst.lookup_ne x hxi] at ht
      exact hS.entries x t ht e he
  known e he := by
    by_cases hxi : IPSetEntry.setID e = id
    · rw [hxi]
      exact mem_of_lookup hst.lookup_self
    · obtain ⟨t, ht⟩ := Option.isSome_iff_exists.mp (AList.lookup_isSome.mpr (hS.known e he))
      exact mem_of_lookup ((hst.lookup_ne _ hxi).trans ht)
  dirty x t ht hd := by
    rw [hst.dirty]
    by_cases hxi : x = id
    · exact .inl hxi
    · rw [hst.lookup_ne x hxi] at ht
      exact .inr (hS.dirty x t ht hd)

theorem stored_put_put_mark (s₁ s₂ : BpfIPSet) (hid : s₂.id = s₁.id) :
    Stored m (((m.putIPSet s₁).putIPSet s₂).markIPSetDirty s₂) s₁.id s₂ where
  lookup_self := by
    rw [← hid]
    exact AList.lookup_insert _
  lookup_ne x hx := by
    simp only [markIPSetDirty, putIPSet]
    rw [AList.lookup_insert_ne (hid ▸ hx), AList.lookup_insert_ne hx]
  dirty x := by
    simp only [markIPSetDirty, IterSet.mem_add, putIPSet, hid]
  resyncScheduled := rfl

/-- Storing a consistent change of a set, under its name, keeps the manager consistent. -/
theorem Wf.store_existing (hm : m.Wf) (hs : m.ipSets.lookup id = some s) (hs' : s'.Wf id)
    (hname : s'.originalID = s.originalID) : ((m.putIPSet s').markIPSetDirty s').Wf :=
  hm.stored (hs'.id_eq ▸ stored_putIPSet_mark s') hs' (fun _ hx => .inr hx) (fun _ _ h => h)
    (hname ▸ (hm.sets id s hs).2)

/-- Storing a change of a set that takes the map to hold the same keeps the manager in sync. -/
theorem Synced.store_existing (hS : m.Synced dp) (hs : m.ipSets.lookup id = some s)
    (hs' : s'.Wf id) (hprog : ∀ e, s'.Programmed e ↔ s.Programmed e) :
    ((m.putIPSet s').markIPSetDirty s').Synced dp :=
  hS.stored (hs'.id_eq ▸ stored_putIPSet_mark s')
    fun e he => (hS.entries id s hs e he).trans (hprog e).symm

/-! ### The calls that change the sets -/

/-- What `RemoveIPSet` does: the string's live set, emptied and queued for deletion. -/
theorem removeIPSet_eq_ok {setID : String} (h : m.removeIPSet setID = .ok m') :
    ∃ s, m.ipSetIDAllocator.getNoAlloc setID ≠ 0 ∧
      m.ipSets.lookup (m.ipSetIDAllocator.getNoAlloc setID) = some s ∧ s.deleted = false ∧
      m' = (m.putIPSet { s.removeAll with deleted := true }).markIPSetDirty
        { s.removeAll with deleted := true } := by
  unfold removeIPSet at h
  split at h
  · cases h
  · rename_i s hs
    split_ifs at h with hd
    cases h
    obtain ⟨h0, hl⟩ := getExistingIPSetString_eq_some hs
    exact ⟨s, h0, hl, by simpa using hd, rfl⟩

/-- What the manager's `AddMembers` and `RemoveMembers` do: `op` on the entries of the members
of the string's live set. -/
theorem updateMembers_eq_ok {op : BpfIPSet → IPSetEntry → BpfIPSet} {setID : String}
    {members : List String} (h : m.updateMembers op setID members = .ok m') :
    ∃ s s', m.ipSetIDAllocator.getNoAlloc setID ≠ 0 ∧
      m.ipSets.lookup (m.ipSetIDAllocator.getNoAlloc setID) = some s ∧ s.deleted = false ∧
      s.forEachMemberEntry op members = .ok s' ∧ m' = (m.putIPSet s').markIPSetDirty s' := by
  unfold updateMembers at h
  split at h
  · cases h
  · rename_i s hs
    split_ifs at h with hd
    obtain ⟨s', hs', h⟩ := bind_eq_ok h
    cases h
    obtain ⟨h0, hl⟩ := getExistingIPSetString_eq_some hs
    exact ⟨s, s', h0, hl, by simpa using hd, hs', rfl⟩

/-- What `AddOrReplaceIPSet` does: the string's ID, the set under it (created, or revived if
it was queued for deletion) with the members replaced. -/
theorem addOrReplaceIPSet_eq_ok {trialHash : String → UInt64 → UInt64} {setID : String}
    {members : List String} (h : m.addOrReplaceIPSet trialHash setID members = .ok m') :
    ∃ alloc id s₁ s₂, m.ipSetIDAllocator.getOrAlloc trialHash setID = .ok (alloc, id) ∧
      (m.ipSets.lookup id = none ∧ s₁ = ⟨setID, id, ∅, ∅, ∅, false⟩ ∨
        ∃ s, m.ipSets.lookup id = some s ∧ s₁ = { s with deleted := false }) ∧
      s₁.replaceMembers members = .ok s₂ ∧
      m' = ((({ m with ipSetIDAllocator := alloc } : BpfIPSets).putIPSet s₁).putIPSet s₂).markIPSetDirty s₂ := by
  unfold addOrReplaceIPSet getOrCreateIPSet at h
  obtain ⟨⟨m₁, s₁⟩, h₁, h⟩ := bind_eq_ok h
  obtain ⟨⟨alloc, id⟩, ha, h₁⟩ := bind_eq_ok h₁
  dsimp only at h₁ h
  cases h₁
  obtain ⟨s₂, h₂, h⟩ := bind_eq_ok h
  cases h
  refine ⟨alloc, id, _, s₂, ha, ?_, h₂, rfl⟩
  cases hl : m.ipSets.lookup id with
  | none => exact .inl ⟨rfl, rfl⟩
  | some s => exact .inr ⟨s, rfl, rfl⟩

/-- `RemoveIPSet` keeps the manager consistent, and in sync with the map. -/
theorem Wf.removeIPSet {setID : String} (hm : m.Wf) (h : m.removeIPSet setID = .ok m') :
    m'.Wf ∧ (∀ dp, m.Synced dp → m'.Synced dp) ∧ m'.resyncScheduled = m.resyncScheduled ∧
      m'.ipSetIDAllocator = m.ipSetIDAllocator ∧
      ∃ s', Stored m m' (m.ipSetIDAllocator.getNoAlloc setID) s' ∧ s'.deleted = true := by
  obtain ⟨s, -, hl, hd, rfl⟩ := removeIPSet_eq_ok h
  obtain ⟨hw, hr, he⟩ := (hm.sets _ s hl).1.removeAll
  have hw' : ({ s.removeAll with deleted := true } : BpfIPSet).Wf (m.ipSetIDAllocator.getNoAlloc setID) :=
    ⟨hw.id_eq, hw.desired_setID, hw.removes_setID, hw.adds_desired, hw.removes_not_desired,
      fun _ e => he e⟩
  exact ⟨hm.store_existing hl hw' hr.originalID,
    fun _ hS => hS.store_existing hl hw' hr.programmed, rfl, rfl, _,
    hw'.id_eq ▸ stored_putIPSet_mark _, rfl⟩

/-- The manager's `AddMembers` and `RemoveMembers` keep it consistent, and in sync with the
map, for an `op` that keeps a live set consistent and changes only what it wants. -/
theorem Wf.updateMembers {op : BpfIPSet → IPSetEntry → BpfIPSet} {setID : String}
    {members : List String} (hm : m.Wf)
    (hop : ∀ id s s', s.Wf id → s.deleted = false → s.forEachMemberEntry op members = .ok s' →
      s'.Wf id ∧ BpfIPSet.Rewanted s s')
    (h : m.updateMembers op setID members = .ok m') :
    m'.Wf ∧ (∀ dp, m.Synced dp → m'.Synced dp) ∧ m'.resyncScheduled = m.resyncScheduled ∧
      m'.ipSetIDAllocator = m.ipSetIDAllocator ∧
      ∃ s s', m.ipSets.lookup (m.ipSetIDAllocator.getNoAlloc setID) = some s ∧ s.deleted = false ∧
        s.forEachMemberEntry op members = .ok s' ∧
        Stored m m' (m.ipSetIDAllocator.getNoAlloc setID) s' := by
  obtain ⟨s, s', -, hl, hd, hs', rfl⟩ := updateMembers_eq_ok h
  obtain ⟨hw, hr⟩ := hop _ s s' (hm.sets _ s hl).1 hd hs'
  exact ⟨hm.store_existing hl hw hr.originalID, fun _ hS => hS.store_existing hl hw hr.programmed,
    rfl, rfl, s, s', hl, hd, hs', hw.id_eq ▸ stored_putIPSet_mark s'⟩

/-- What `GetOrCreateIPSet` finds under the string's ID: the set it had, revived, or a new
empty one; either way consistent, live and named by the string. -/
theorem Wf.getOrCreated {trialHash : String → UInt64 → UInt64} {setID : String}
    {alloc : IDAllocator} {s₁ : BpfIPSet} (hm : m.Wf)
    (ha : m.ipSetIDAllocator.getOrAlloc trialHash setID = .ok (alloc, id))
    (hs₁ : m.ipSets.lookup id = none ∧ s₁ = ⟨setID, id, ∅, ∅, ∅, false⟩ ∨
      ∃ s, m.ipSets.lookup id = some s ∧ s₁ = { s with deleted := false }) :
    s₁.Wf id ∧ s₁.deleted = false ∧ s₁.originalID = setID ∧
      ∀ dp e, IPSetEntry.setID e = id → m.Synced dp → (e ∈ dp ↔ s₁.Programmed e) := by
  rcases hs₁ with ⟨hl, rfl⟩ | ⟨s, hl, rfl⟩
  · -- a new set: its ID was free, so the map has no entry of it
    refine ⟨⟨rfl, by simp, by simp, by simp, by simp, by simp⟩, rfl, rfl, fun dp e he hS => ?_⟩
    have hfree : id ∉ m.ipSets := fun hmem => by
      rw [← AList.lookup_isSome, hl] at hmem
      cases hmem
    simp only [BpfIPSet.Programmed, IterSet.not_mem_empty, false_and, or_self, iff_false]
    exact fun hd => hfree (he ▸ hS.known e hd)
  · -- the set it had: the allocator gave back the string's own ID
    obtain ⟨hw, hname⟩ := hm.sets id s hl
    have hstr : m.ipSetIDAllocator.strToUint64.lookup setID = some id := by
      rcases IDAllocator.getOrAlloc_cases ha with ⟨hs, -⟩ | ⟨-, -, hfree, -⟩
      · exact hs
      · exact absurd ((hm.mem_iff).mp (mem_of_lookup hl)) hfree
    have horig : s.originalID = setID :=
      Option.some.inj (hname.symm.trans ((m.ipSetIDAllocator.inverse setID id).mp hstr))
    refine ⟨⟨hw.id_eq, hw.desired_setID, hw.removes_setID, hw.adds_desired,
      hw.removes_not_desired, by simp⟩, rfl, horig, fun _ e he hS => hS.entries id s hl e he⟩

/-- `AddOrReplaceIPSet` keeps the manager consistent and in sync with the map; the string then
has a non-zero ID, under which a live set wants exactly the members' entries. -/
theorem Wf.addOrReplaceIPSet {trialHash : String → UInt64 → UInt64} {setID : String}
    {members : List String} (hm : m.Wf) (h : m.addOrReplaceIPSet trialHash setID members = .ok m') :
    m'.Wf ∧ (∀ dp, m.Synced dp → m'.Synced dp) ∧ m'.resyncScheduled = m.resyncScheduled ∧
      ∃ alloc id s₂, m.ipSetIDAllocator.getOrAlloc trialHash setID = .ok (alloc, id) ∧
        m'.ipSetIDAllocator = alloc ∧ Stored m m' id s₂ ∧ s₂.deleted = false ∧
        ∀ x, x ∈ s₂.desiredEntries ↔ BpfIPSet.MemberEntry id members x := by
  obtain ⟨alloc, id, s₁, s₂, ha, hs₁, h₂, rfl⟩ := addOrReplaceIPSet_eq_ok h
  obtain ⟨hw₁, hd₁, horig, hprog₁⟩ := hm.getOrCreated ha hs₁
  obtain ⟨hw₂, hr₂, hdes⟩ := hw₁.replaceMembers hd₁ h₂
  have hst : Stored m (((({ m with ipSetIDAllocator := alloc } : BpfIPSets).putIPSet s₁).putIPSet
      s₂).markIPSetDirty s₂) id s₂ := by
    -- the allocator is not part of what `Stored` compares
    have h₀ := hw₁.id_eq ▸ stored_put_put_mark (m := { m with ipSetIDAllocator := alloc }) s₁ s₂ hr₂.id
    exact ⟨h₀.lookup_self, h₀.lookup_ne, h₀.dirty, h₀.resyncScheduled⟩
  have hname : alloc.uint64ToStr.lookup id = some s₂.originalID := by
    rw [hr₂.originalID, horig]
    exact (alloc.inverse setID id).mp (IDAllocator.lookup_getOrAlloc ha)
  refine ⟨hm.stored hst hw₂ (fun x hx => (IDAllocator.mem_getOrAlloc ha).mp hx)
      (fun x str hx => IDAllocator.lookup_getOrAlloc_of_mem ha hx) hname,
    fun dp hS => hS.stored hst fun e he => (hprog₁ dp e he hS).trans (hr₂.programmed e).symm,
    rfl, alloc, id, s₂, ha, rfl, hst, hr₂.deleted.trans hd₁, hdes⟩

/-- `QueueResync` schedules a resync and changes nothing else. -/
@[simp] theorem queueResync_resyncScheduled : m.queueResync.resyncScheduled = true := rfl

theorem Wf.queueResync (hm : m.Wf) : m.queueResync.Wf := ⟨hm.allocated, hm.sets, hm.dirty⟩

/-! ### One dirty set's turn in `ApplyUpdates` -/

/-- The loop over one kind of pending operation, for an `op` that puts its entry in the map
(`b`) or takes it out (`¬b`): the entries whose call failed stay pending, the others are done
in the map, and the set is left dirty if a call failed. -/
theorem flushPending_spec {fails : IPSetEntry → Bool}
    {op : IPSetEntry → IterSet IPSetEntry → IterSet IPSetEntry} {b : Prop}
    (hop : ∀ e d x, x ∈ op e d ↔ (x = e ∧ b) ∨ (x ≠ e ∧ x ∈ d)) :
    ∀ (l : List IPSetEntry) (acc : IterSet IPSetEntry × IterSet IPSetEntry × Bool),
      let r := l.foldl (fun (acc : IterSet IPSetEntry × IterSet IPSetEntry × Bool) entry =>
        if fails entry then (acc.1, acc.2.1, true)
        else (acc.1.discard entry, op entry acc.2.1, acc.2.2)) acc
      (∀ x, x ∈ r.1 ↔ x ∈ acc.1 ∧ ¬(x ∈ l ∧ fails x = false)) ∧
      (∀ x, x ∈ r.2.1 ↔ (x ∈ l ∧ fails x = false ∧ b) ∨ (¬(x ∈ l ∧ fails x = false) ∧ x ∈ acc.2.1)) ∧
      (r.2.2 = true ↔ acc.2.2 = true ∨ ∃ x ∈ l, fails x = true)
  | [], acc => by simp
  | e :: l, acc => by
    obtain ⟨h₁, h₂, h₃⟩ := flushPending_spec hop l (if fails e then (acc.1, acc.2.1, true)
      else (acc.1.discard e, op e acc.2.1, acc.2.2))
    dsimp only
    rw [List.foldl_cons]
    refine ⟨fun x => ?_, fun x => ?_, ?_⟩
    · rw [h₁]
      cases hf : fails e <;> by_cases hx : x = e <;> simp_all
    · rw [h₂]
      cases hf : fails e
      · rw [if_neg (by simp), hop]
        by_cases hx : x = e
        · subst hx
          simp only [hf, List.mem_cons, true_or, true_and, and_true]
          tauto
        · simp [hx]
      · rw [if_pos rfl]
        by_cases hx : x = e
        · subst hx
          simp [hf]
        · simp [hx]
    · rw [h₃]
      cases hf : fails e <;> simp [hf]

theorem flushPending_eq {fails : IPSetEntry → Bool}
    {op : IPSetEntry → IterSet IPSetEntry → IterSet IPSetEntry} {b : Prop}
    (hop : ∀ e d x, x ∈ op e d ↔ (x = e ∧ b) ∨ (x ≠ e ∧ x ∈ d))
    {pending dp pending' dp' : IterSet IPSetEntry} {leave leave' : Bool}
    (h : flushPending fails op pending dp leave = (pending', dp', leave')) :
    (∀ x, x ∈ pending' ↔ x ∈ pending ∧ fails x = true) ∧
      (∀ x, x ∈ dp' ↔ (x ∈ pending ∧ fails x = false ∧ b) ∨
        (¬(x ∈ pending ∧ fails x = false) ∧ x ∈ dp)) ∧
      (leave' = true ↔ leave = true ∨ ∃ x ∈ pending, fails x = true) := by
  obtain ⟨h₁, h₂, h₃⟩ := flushPending_spec hop pending.toList (pending, dp, leave)
  rw [flushPending] at h
  rw [h] at h₁ h₂ h₃
  refine ⟨fun x => ?_, fun x => by simpa using h₂ x, by simpa using h₃⟩
  rw [h₁ x, IterSet.mem_toList]
  cases fails x <;> simp

theorem mem_discard_iff (e : IPSetEntry) (d : IterSet IPSetEntry) (x : IPSetEntry) :
    x ∈ d.discard e ↔ (x = e ∧ False) ∨ (x ≠ e ∧ x ∈ d) := by
  simp

theorem mem_add_iff (e : IPSetEntry) (d : IterSet IPSetEntry) (x : IPSetEntry) :
    x ∈ d.add e ↔ (x = e ∧ True) ∨ (x ≠ e ∧ x ∈ d) := by
  simp only [IterSet.mem_add, and_true, ne_eq]
  tauto

/-- What a dirty set's turn does: nothing but schedule a resync for an ID that is no set's;
for a set, the two loops over its pending operations, then a resync scheduled if a call
failed, or else the set is clean and released if it was queued for deletion. -/
theorem flushIPSet_eq_ok {f : IPSetMapFailures} {setID : UInt64}
    (h : flushIPSet f (m, dp) setID = .ok (m', dp')) :
    (m.ipSets.lookup setID = none ∧ dp' = dp ∧
      m' = { m with resyncScheduled := true, dirtyIPSetIDs := m.dirtyIPSetIDs.discard setID }) ∨
    ∃ s pR dp₁ l₁ pA l₂, m.ipSets.lookup setID = some s ∧
      flushPending f.delete IterSet.discard s.pendingRemoves dp false = (pR, dp₁, l₁) ∧
      flushPending f.update IterSet.add s.pendingAdds dp₁ l₁ = (pA, dp', l₂) ∧
      ((l₂ = true ∧ m' = { m.putIPSet { s with pendingRemoves := pR, pendingAdds := pA } with
          resyncScheduled := true }) ∨
       (l₂ = false ∧ s.deleted = true ∧ ∃ m₂,
          (m.putIPSet { s with pendingRemoves := pR, pendingAdds := pA }).deleteIPSetAndReleaseID
            { s with pendingRemoves := pR, pendingAdds := pA } = .ok m₂ ∧
          m' = { m₂ with dirtyIPSetIDs := m₂.dirtyIPSetIDs.discard setID }) ∨
       (l₂ = false ∧ s.deleted = false ∧
          m' = { m.putIPSet { s with pendingRemoves := pR, pendingAdds := pA } with
            dirtyIPSetIDs := m.dirtyIPSetIDs.discard setID })) := by
  unfold flushIPSet getExistingIPSet at h
  dsimp only at h
  split at h
  · rename_i hl
    cases h
    exact .inl ⟨hl, rfl, rfl⟩
  · rename_i s hl
    rcases h₁ : flushPending f.delete IterSet.discard s.pendingRemoves dp false with ⟨pR, dp₁, l₁⟩
    rw [h₁] at h
    dsimp only at h
    rcases h₂ : flushPending f.update IterSet.add s.pendingAdds dp₁ l₁ with ⟨pA, dp₂, l₂⟩
    rw [h₂] at h
    dsimp only at h
    refine .inr ⟨s, pR, dp₁, l₁, pA, l₂, hl, h₁, ?_⟩
    split_ifs at h with hl₂ hd
    · cases h
      exact ⟨h₂, .inl ⟨hl₂, rfl⟩⟩
    · obtain ⟨m₂, hm₂, h⟩ := bind_eq_ok h
      cases h
      exact ⟨h₂, .inr (.inl ⟨by simpa using hl₂, hd, m₂, hm₂, rfl⟩)⟩
    · cases h
      exact ⟨h₂, .inr (.inr ⟨by simpa using hl₂, by simpa using hd, rfl⟩)⟩

variable {f : IPSetMapFailures} {dp₁ dp₂ : IterSet IPSetEntry} {pR pA : IterSet IPSetEntry} {l₁ l₂ : Bool}

/-- The two loops over a consistent set's pending operations: the set stays consistent, only
entries with its ID change in the map, those follow the calls that succeeded, and if none
failed nothing is left pending. -/
theorem flush_setWf (hs : s.Wf id)
    (h₁ : flushPending f.delete IterSet.discard s.pendingRemoves dp false = (pR, dp₁, l₁))
    (h₂ : flushPending f.update IterSet.add s.pendingAdds dp₁ l₁ = (pA, dp₂, l₂)) :
    ({ s with pendingRemoves := pR, pendingAdds := pA } : BpfIPSet).Wf id ∧
      (∀ x, IPSetEntry.setID x ≠ id → (x ∈ dp₂ ↔ x ∈ dp)) ∧
      (∀ x, (x ∈ dp ↔ s.Programmed x) →
        (x ∈ dp₂ ↔ ({ s with pendingRemoves := pR, pendingAdds := pA } : BpfIPSet).Programmed x)) ∧
      (∀ x ∈ dp₂, x ∉ dp → x ∈ s.desiredEntries) ∧
      (l₂ = false → (∀ x, x ∉ pR) ∧ ∀ x, x ∉ pA) := by
  obtain ⟨hR, hdp₁, hl₁⟩ := flushPending_eq mem_discard_iff h₁
  obtain ⟨hA, hdp₂, hl₂⟩ := flushPending_eq mem_add_iff h₂
  refine ⟨⟨hs.id_eq, hs.desired_setID, fun x hx => hs.removes_setID x ((hR x).mp hx).1,
      fun x hx => hs.adds_desired x ((hA x).mp hx).1,
      fun x hx => hs.removes_not_desired x ((hR x).mp hx).1, hs.deleted_empty⟩,
    fun x hx => ?_, fun x hx => ?_, fun x hx hnx => ?_, fun hl => ?_⟩
  · -- an entry of another ID is neither pending removal nor pending addition
    have hnr : x ∉ s.pendingRemoves := fun h => hx (hs.removes_setID x h)
    have hna : x ∉ s.pendingAdds := fun h => hx (hs.desired_setID x (hs.adds_desired x h))
    simp [hdp₂, hdp₁, hna, hnr]
  · -- an entry is pending addition and wanted, or pending removal and unwanted, or neither
    have had := hs.adds_desired x
    have hrd := hs.removes_not_desired x
    simp only [BpfIPSet.Programmed] at hx ⊢
    rw [hdp₂, hdp₁, hR, hA, hx]
    cases hd : f.delete x <;> cases hu : f.update x <;> by_cases ha : x ∈ s.pendingAdds <;>
      by_cases hr : x ∈ s.pendingRemoves <;> simp_all
  · rw [hdp₂, hdp₁] at hx
    rcases hx with ⟨ha, -, -⟩ | ⟨-, (⟨-, -, hf⟩ | ⟨-, hd⟩)⟩
    · exact hs.adds_desired x ha
    · exact hf.elim
    · exact absurd hd hnx
  · -- no call failed in either loop
    rw [hl, Bool.false_eq_true, false_iff, not_or, hl₁] at hl₂
    simp only [Bool.false_eq_true, false_or, not_exists, not_and, Bool.not_eq_true] at hl₂
    refine ⟨fun x hx => ?_, fun x hx => ?_⟩
    · have := (hR x).mp hx
      rw [hl₂.1 x this.1] at this
      cases this.2
    · have := (hA x).mp hx
      rw [hl₂.2 x this.1] at this
      cases this.2

/-- `m'` keeps the live sets of `m` and forgets only sets queued for deletion; no set changes
its name, its wanted entries or its deletion mark, and the allocator gives no string an ID it
did not have. -/
structure Shrinks (m m' : BpfIPSets) : Prop where
  lookup : ∀ id s', m'.ipSets.lookup id = some s' → ∃ s, m.ipSets.lookup id = some s ∧
    s'.originalID = s.originalID ∧ s'.desiredEntries = s.desiredEntries ∧ s'.deleted = s.deleted
  live : ∀ id s, m.ipSets.lookup id = some s → s.deleted = false → id ∈ m'.ipSets
  alloc : ∀ str id, m'.ipSetIDAllocator.strToUint64.lookup str = some id →
    m.ipSetIDAllocator.strToUint64.lookup str = some id

theorem Shrinks.refl (m : BpfIPSets) : Shrinks m m :=
  ⟨fun _ s' h => ⟨s', h, rfl, rfl, rfl⟩, fun _ _ h _ => mem_of_lookup h, fun _ _ h => h⟩

theorem Shrinks.trans {m'' : BpfIPSets} (h : Shrinks m m') (h' : Shrinks m' m'') :
    Shrinks m m'' where
  lookup id s'' hs'' := by
    obtain ⟨s', hs', h₁, h₂, h₃⟩ := h'.lookup id s'' hs''
    obtain ⟨s, hs, h₄, h₅, h₆⟩ := h.lookup id s' hs'
    exact ⟨s, hs, h₁.trans h₄, h₂.trans h₅, h₃.trans h₆⟩
  live id s hs hd := by
    obtain ⟨s', hs'⟩ := Option.isSome_iff_exists.mp (AList.lookup_isSome.mpr (h.live id s hs hd))
    obtain ⟨t, ht, -, -, hdel⟩ := h.lookup id s' hs'
    rw [hs] at ht
    cases ht
    exact h'.live id s' hs' (hdel.trans hd)
  alloc str id hs := h.alloc str id (h'.alloc str id hs)

/-- What `deleteIPSetAndReleaseID` does. -/
theorem deleteIPSetAndReleaseID_eq_ok (h : m.deleteIPSetAndReleaseID s = .ok m') :
    ∃ alloc, m.ipSetIDAllocator.releaseUintID s.id = .ok alloc ∧
      m' = { m with ipSets := m.ipSets.erase s.id, ipSetIDAllocator := alloc } := by
  unfold deleteIPSetAndReleaseID at h
  split at h
  · rename_i alloc ha
    cases h
    exact ⟨alloc, ha, rfl⟩
  · cases h

/-- Releasing the ID of a set the allocator knows succeeds. -/
theorem deleteIPSetAndReleaseID_ok (hs : s.id ∈ m.ipSetIDAllocator.uint64ToStr) :
    ∃ m', m.deleteIPSetAndReleaseID s = .ok m' := by
  obtain ⟨alloc, ha⟩ := IDAllocator.releaseUintID_ok_of_mem hs
  exact ⟨_, by rw [deleteIPSetAndReleaseID, ha]⟩

theorem lookup_putIPSet {x : UInt64} :
    (m.putIPSet s').ipSets.lookup x = if x = s'.id then some s' else m.ipSets.lookup x := by
  split_ifs with hx
  · rw [hx]
    exact AList.lookup_insert _
  · exact AList.lookup_insert_ne hx

/-- A dirty set's turn never panics: the ID it may release is allocated. -/
theorem Wf.flushIPSet_ok (hm : m.Wf) (f : IPSetMapFailures) (dp : IterSet IPSetEntry) (setID : UInt64) :
    ∃ st', flushIPSet f (m, dp) setID = .ok st' := by
  unfold flushIPSet getExistingIPSet
  dsimp only
  split
  · exact ⟨_, rfl⟩
  · rename_i s hl
    split_ifs with hl₂ hd
    · exact ⟨_, rfl⟩
    · -- the set's ID is allocated, so its release succeeds
      obtain ⟨hw, hname⟩ := hm.sets setID s hl
      have hmem : s.id ∈ m.ipSetIDAllocator.uint64ToStr := by
        rw [hw.id_eq]
        exact AList.lookup_isSome.mp (by rw [hname]; rfl)
      obtain ⟨alloc, ha⟩ := IDAllocator.releaseUintID_ok_of_mem hmem
      dsimp only [deleteIPSetAndReleaseID, putIPSet]
      rw [ha]
      exact ⟨_, rfl⟩
    · exact ⟨_, rfl⟩

theorem Shrinks.congr_right {m'' : BpfIPSets} (h : Shrinks m m') (hi : m''.ipSets = m'.ipSets)
    (ha : m''.ipSetIDAllocator = m'.ipSetIDAllocator) : Shrinks m m'' where
  lookup id s hs := h.lookup id s (hi ▸ hs)
  live id s hs hd := hi ▸ h.live id s hs hd
  alloc str id hs := h.alloc str id (ha ▸ hs)

theorem Wf.setResync (hm : m.Wf) (r : Bool) : ({ m with resyncScheduled := r } : BpfIPSets).Wf :=
  ⟨hm.allocated, hm.sets, hm.dirty⟩

theorem Wf.discardDirty (hm : m.Wf) (x : UInt64) :
    ({ m with dirtyIPSetIDs := m.dirtyIPSetIDs.discard x } : BpfIPSets).Wf :=
  ⟨hm.allocated, hm.sets, fun y hy => hm.dirty y (IterSet.mem_discard.mp hy).2⟩

/-- Storing a set with other pending operations keeps the manager consistent and its sets. -/
theorem Wf.putIPSet (hm : m.Wf) (hl : m.ipSets.lookup id = some s) (hs' : s'.Wf id)
    (horig : s'.originalID = s.originalID) (hdes : s'.desiredEntries = s.desiredEntries)
    (hdel : s'.deleted = s.deleted) : (m.putIPSet s').Wf ∧ Shrinks m (m.putIPSet s') := by
  have hlook : ∀ x, (m.putIPSet s').ipSets.lookup x = if x = id then some s' else m.ipSets.lookup x :=
    fun x => hs'.id_eq ▸ lookup_putIPSet
  refine ⟨⟨fun x hx => ?_, fun x t ht => ?_, fun x hx => ?_⟩, ⟨fun x t ht => ?_, fun x t ht _ => ?_,
    fun _ _ h => h⟩⟩
  · exact (AList.mem_insert _).mpr (.inr (hm.allocated x hx))
  · rw [hlook] at ht
    split_ifs at ht with hx
    · cases ht
      subst hx
      exact ⟨hs', horig ▸ (hm.sets x s hl).2⟩
    · exact hm.sets x t ht
  · exact (AList.mem_insert _).mpr (.inr (hm.dirty x hx))
  · rw [hlook] at ht
    split_ifs at ht with hx
    · cases ht
      subst hx
      exact ⟨s, hl, horig, hdes, hdel⟩
    · exact ⟨t, ht, rfl, rfl, rfl⟩
  · exact (AList.mem_insert _).mpr (.inr (mem_of_lookup ht))

/-- Forgetting a set queued for deletion and releasing its ID keeps the manager consistent. -/
theorem Wf.release {m₂ : BpfIPSets} (hm : m.Wf) (hl : m.ipSets.lookup id = some s)
    (hid : s.id = id) (hd : s.deleted = true) (h : m.deleteIPSetAndReleaseID s = .ok m₂) :
    ({ m₂ with dirtyIPSetIDs := m₂.dirtyIPSetIDs.discard id } : BpfIPSets).Wf ∧
      Shrinks m { m₂ with dirtyIPSetIDs := m₂.dirtyIPSetIDs.discard id } := by
  obtain ⟨alloc, ha, rfl⟩ := deleteIPSetAndReleaseID_eq_ok h
  obtain ⟨str, hstr, hs, hu⟩ := IDAllocator.releaseUintID_eq_ok ha
  rw [hid] at hstr hu
  refine ⟨⟨fun x hx => ?_, fun x t ht => ?_, fun x hx => ?_⟩, ⟨fun x t ht => ?_, fun x t ht htd => ?_,
    fun str' x hx => ?_⟩⟩
  · rw [hu, AList.mem_erase] at hx
    exact AList.mem_erase.mpr ⟨by rw [hid]; exact hx.1, hm.allocated x hx.2⟩
  · have hx : x ≠ id := fun he => by
      subst he
      simp [hid] at ht
    simp only [hid, AList.lookup_erase_ne hx] at ht
    rw [hu, AList.lookup_erase_ne hx]
    exact hm.sets x t ht
  · obtain ⟨hx, hx'⟩ := IterSet.mem_discard.mp hx
    exact AList.mem_erase.mpr ⟨by rw [hid]; exact hx, hm.dirty x hx'⟩
  · have hx : x ≠ id := fun he => by
      subst he
      simp [hid] at ht
    simp only [hid, AList.lookup_erase_ne hx] at ht
    exact ⟨t, ht, rfl, rfl, rfl⟩
  · have hx : x ≠ id := fun he => by
      subst he
      rw [hl] at ht
      cases ht
      rw [hd] at htd
      cases htd
    exact AList.mem_erase.mpr ⟨hid ▸ hx, mem_of_lookup ht⟩
  · rw [hs] at hx
    by_cases hx' : str' = str
    · subst hx'
      simp at hx
    · rwa [AList.lookup_erase_ne hx'] at hx

/-- A dirty set's turn keeps the manager consistent and its sets. -/
theorem Wf.flushIPSet {f : IPSetMapFailures} {setID : UInt64} (hm : m.Wf)
    (h : flushIPSet f (m, dp) setID = .ok (m', dp')) : m'.Wf ∧ Shrinks m m' := by
  rcases flushIPSet_eq_ok h with ⟨-, -, rfl⟩ | ⟨s, pR, dp₁, l₁, pA, l₂, hl, h₁, h₂, hcase⟩
  · -- an ID that is no set's: only its dirty mark goes
    exact ⟨(hm.setResync true).discardDirty setID, (Shrinks.refl m).congr_right rfl rfl⟩
  · obtain ⟨hw', -, -, -, -⟩ := flush_setWf (hm.sets setID s hl).1 h₁ h₂
    obtain ⟨hput, hshr⟩ := hm.putIPSet hl hw' rfl rfl rfl
    rcases hcase with ⟨-, rfl⟩ | ⟨-, hd, m₂, hm₂, rfl⟩ | ⟨-, -, rfl⟩
    · exact ⟨hput.setResync true, hshr.congr_right rfl rfl⟩
    · have hl' : (m.putIPSet { s with pendingRemoves := pR, pendingAdds := pA }).ipSets.lookup setID =
          some { s with pendingRemoves := pR, pendingAdds := pA } := by
        rw [lookup_putIPSet, if_pos hw'.id_eq.symm]
      obtain ⟨hw₂, hshr₂⟩ := hput.release hl' hw'.id_eq hd hm₂
      exact ⟨hw₂, hshr.trans hshr₂⟩
    · exact ⟨hput.discardDirty setID, hshr.congr_right rfl rfl⟩

/-- No entry of the map carries `x`. -/
def NoEntry (x : UInt64) (dataplane : IterSet IPSetEntry) : Prop :=
  ∀ e ∈ dataplane, IPSetEntry.setID e ≠ x

/-- A dirty set's turn keeps each set's view of the map right. The entries it adds carry the
ID of a set it keeps, so an ID that is no set's and has no entry keeps none; and a set it
releases has no entry left. -/
theorem EntriesSynced.flushIPSet {f : IPSetMapFailures} {setID : UInt64} (hm : m.Wf)
    (hE : m.EntriesSynced dp) (h : flushIPSet f (m, dp) setID = .ok (m', dp')) :
    m'.EntriesSynced dp' ∧ (∀ e ∈ dp', e ∉ dp → IPSetEntry.setID e ∈ m'.ipSets) ∧
      ∀ x, x ∉ m'.ipSets → x ∈ m.ipSets ∨ NoEntry x dp → NoEntry x dp' := by
  rcases flushIPSet_eq_ok h with ⟨-, rfl, rfl⟩ | ⟨s, pR, dp₁, l₁, pA, l₂, hl, h₁, h₂, hcase⟩
  · refine ⟨hE, fun e he hne => absurd he hne, fun x hx hx' => ?_⟩
    rcases hx' with hx' | hx'
    · exact absurd hx' hx
    · exact hx'
  · obtain ⟨hw, -⟩ := hm.sets setID s hl
    obtain ⟨hw', hother, hsame, hnew, hclean⟩ := flush_setWf hw h₁ h₂
    -- the stored set's view is the map's entries with its ID; other sets' entries are untouched
    have hput : (m.putIPSet { s with pendingRemoves := pR, pendingAdds := pA }).EntriesSynced dp' := by
      intro x t ht e he
      rw [lookup_putIPSet] at ht
      split_ifs at ht with hx
      · cases ht
        rw [hx, hw'.id_eq] at he
        exact hsame e (hE setID s hl e he)
      · rw [hw'.id_eq] at hx
        rw [hother e (he ▸ hx)]
        exact hE x t ht e he
    have hnew' : ∀ e ∈ dp', e ∉ dp → IPSetEntry.setID e = setID := fun e he hne =>
      hw.desired_setID e (hnew e he hne)
    have hmem : setID ∈ (m.putIPSet { s with pendingRemoves := pR, pendingAdds := pA }).ipSets :=
      mem_of_lookup (by rw [lookup_putIPSet, if_pos hw'.id_eq.symm])
    have hsub : ∀ x ∈ m.ipSets, x ∈ (m.putIPSet { s with pendingRemoves := pR, pendingAdds := pA }).ipSets :=
      fun x hx => (AList.mem_insert _).mpr (.inr hx)
    -- an ID with no entry keeps none: the added entries carry `setID`, a set's ID
    have hkeep : ∀ x, x ≠ setID → NoEntry x dp → NoEntry x dp' := fun x hx hno e he => by
      by_cases hed : e ∈ dp
      · exact hno e hed
      · rw [hnew' e he hed]
        exact fun h => hx h.symm
    have hkept : ∀ x, x ∉ (m.putIPSet { s with pendingRemoves := pR, pendingAdds := pA }).ipSets →
        x ∈ m.ipSets ∨ NoEntry x dp → NoEntry x dp' := fun x hx hx' => by
      rcases hx' with hx' | hx'
      · exact absurd (hsub x hx') hx
      · exact hkeep x (fun h => hx (h ▸ hmem)) hx'
    rcases hcase with ⟨-, rfl⟩ | ⟨hl₂, hd, m₂, hm₂, rfl⟩ | ⟨-, -, rfl⟩
    · exact ⟨hput, fun e he hne => hnew' e he hne ▸ hmem, hkept⟩
    · -- the set is released: it wanted nothing and nothing is pending, so it has no entry left
      obtain ⟨alloc, -, rfl⟩ := deleteIPSetAndReleaseID_eq_ok hm₂
      obtain ⟨hnR, hnA⟩ := hclean hl₂
      have hnone : NoEntry setID dp' := fun e he hse => by
        have hprog := (hsame e (hE setID s hl e hse)).mp he
        rcases hprog with ⟨hdes, -⟩ | hr
        · exact hw.deleted_empty hd e hdes
        · exact hnR e hr
      refine ⟨fun x t ht e he => ?_, fun e he hne => ?_, fun x hx hx' => ?_⟩
      · have hx : x ≠ s.id := by
          rintro rfl
          simp at ht
        rw [AList.lookup_erase_ne hx] at ht
        exact hput x t ht e he
      · exact absurd (hnew e he hne) (hw.deleted_empty hd e)
      · by_cases hxs : x = setID
        · exact hxs ▸ hnone
        · refine hkept x (fun hmx => hx ?_) hx'
          exact AList.mem_erase.mpr ⟨by rw [hw.id_eq]; exact hxs, hmx⟩
    · exact ⟨hput, fun e he hne => hnew' e he hne ▸ hmem, hkept⟩

/-- A dirty set's turn: a scheduled resync stays scheduled, and unless one is scheduled after
it, the set's ID is no longer dirty and no other ID became dirty. -/
theorem flushIPSet_resyncScheduled {f : IPSetMapFailures} {setID : UInt64}
    (h : flushIPSet f (m, dp) setID = .ok (m', dp')) :
    (m.resyncScheduled = true → m'.resyncScheduled = true) ∧
      (m'.resyncScheduled = true ∨ ∀ x ∈ m'.dirtyIPSetIDs, x ∈ m.dirtyIPSetIDs ∧ x ≠ setID) := by
  rcases flushIPSet_eq_ok h with ⟨-, -, rfl⟩ | ⟨s, pR, dp₁, l₁, pA, l₂, -, -, -, hcase⟩
  · exact ⟨fun _ => rfl, .inl rfl⟩
  · rcases hcase with ⟨-, rfl⟩ | ⟨-, -, m₂, hm₂, rfl⟩ | ⟨-, -, rfl⟩
    · exact ⟨fun _ => rfl, .inl rfl⟩
    · obtain ⟨alloc, -, rfl⟩ := deleteIPSetAndReleaseID_eq_ok hm₂
      exact ⟨id, .inr fun x hx => (IterSet.mem_discard.mp hx).symm⟩
    · exact ⟨id, .inr fun x hx => (IterSet.mem_discard.mp hx).symm⟩

/-- A dirty set's turn that schedules no resync keeps the manager in sync with the map. -/
theorem Synced.flushIPSet {f : IPSetMapFailures} {setID : UInt64} (hm : m.Wf) (hS : m.Synced dp)
    (h : flushIPSet f (m, dp) setID = .ok (m', dp')) (hr : m'.resyncScheduled = false) :
    m'.Synced dp' := by
  obtain ⟨hE, hnew, hgone⟩ := hS.entries.flushIPSet hm h
  refine ⟨hE, fun e he => ?_, ?_⟩
  · -- an entry the turn kept has a set's ID, one it added has the turn's set's
    by_contra hne
    by_cases hed : e ∈ dp
    · exact hgone _ hne (.inl (hS.known e hed)) e he rfl
    · exact hne (hnew e he hed)
  · rcases flushIPSet_eq_ok h with ⟨-, -, rfl⟩ | ⟨s, pR, dp₁, l₁, pA, l₂, hl, h₁, h₂, hcase⟩
    · cases hr
    · obtain ⟨hw, -⟩ := hm.sets setID s hl
      obtain ⟨-, -, -, -, hclean⟩ := flush_setWf hw h₁ h₂
      rcases hcase with ⟨-, rfl⟩ | ⟨-, -, m₂, hm₂, rfl⟩ | ⟨hl₂, hd, rfl⟩
      · cases hr
      · -- the released set is gone; the others keep their dirty marks
        obtain ⟨alloc, -, rfl⟩ := deleteIPSetAndReleaseID_eq_ok hm₂
        intro x t ht htd
        have hx : x ≠ s.id := by
          rintro rfl
          simp at ht
        rw [AList.lookup_erase_ne hx, lookup_putIPSet, if_neg hx] at ht
        exact IterSet.mem_discard.mpr ⟨by rw [← hw.id_eq]; exact hx, hS.dirty x t ht htd⟩
      · -- the set is clean now; the others keep their dirty marks
        intro x t ht htd
        rw [lookup_putIPSet] at ht
        split_ifs at ht with hx
        · cases ht
          obtain ⟨hnR, hnA⟩ := hclean hl₂
          have : ({ s with pendingRemoves := pR, pendingAdds := pA } : BpfIPSet).dirty = false :=
            BpfIPSet.dirty_eq_false.mpr ⟨hnR, hnA, hd⟩
          rw [this] at htd
          cases htd
        · exact IterSet.mem_discard.mpr ⟨by rw [← hw.id_eq]; exact hx, hS.dirty x t ht htd⟩

/-- The loop of `ApplyUpdates` over the dirty sets keeps the manager consistent and its sets,
and each set's view of the map right; an ID it releases, or one that had no entry, is left
with none. A scheduled resync stays scheduled; with none scheduled at its end the loop keeps
the manager in sync, and the IDs still dirty were dirty before and not in the loop. -/
theorem foldlM_flushIPSet {f : IPSetMapFailures} :
    ∀ {l : List UInt64} {st st' : BpfIPSets × IterSet IPSetEntry}, st.1.Wf →
      l.foldlM (flushIPSet f) st = .ok st' →
      st'.1.Wf ∧ Shrinks st.1 st'.1 ∧
      (st.1.EntriesSynced st.2 → st'.1.EntriesSynced st'.2 ∧
        ∀ x, x ∉ st'.1.ipSets → x ∈ st.1.ipSets ∨ NoEntry x st.2 → NoEntry x st'.2) ∧
      (st.1.resyncScheduled = true → st'.1.resyncScheduled = true) ∧
      (st'.1.resyncScheduled = false → st.1.Synced st.2 → st'.1.Synced st'.2) ∧
      (st'.1.resyncScheduled = false → ∀ x ∈ st'.1.dirtyIPSetIDs, x ∈ st.1.dirtyIPSetIDs ∧ x ∉ l)
  | [], st, st', hm, h => by
    cases h
    exact ⟨hm, Shrinks.refl _, fun hE => ⟨hE, fun x hx hx' => hx'.resolve_left hx⟩, id,
      fun _ hS => hS, fun _ x hx => ⟨hx, List.not_mem_nil⟩⟩
  | setID :: l, ⟨m, dp⟩, st', hm, h => by
    rw [List.foldlM_cons] at h
    obtain ⟨⟨m₁, dp₁⟩, h₁, h⟩ := bind_eq_ok h
    obtain ⟨hw₁, hshr₁⟩ := hm.flushIPSet h₁
    obtain ⟨hw, hshr, hE, hmono, hS, hdirty⟩ := foldlM_flushIPSet hw₁ h
    obtain ⟨hmono₁, hdirty₁⟩ := flushIPSet_resyncScheduled h₁
    -- with no resync scheduled at the end, this turn scheduled none
    have hr₁ : st'.1.resyncScheduled = false → m₁.resyncScheduled = false := fun hr => by
      cases hr₁ : m₁.resyncScheduled
      · rfl
      · rw [hmono hr₁] at hr
        cases hr
    refine ⟨hw, hshr₁.trans hshr, fun hE₀ => ?_, fun hr => hmono (hmono₁ hr),
      fun hr hS₀ => hS hr (hS₀.flushIPSet hm h₁ (hr₁ hr)), fun hr x hx => ?_⟩
    · obtain ⟨hE₁, -, hkept₁⟩ := hE₀.flushIPSet hm h₁
      obtain ⟨hE', hkept⟩ := hE hE₁
      refine ⟨hE', fun x hx hx' => ?_⟩
      by_cases hx₁ : x ∈ m₁.ipSets
      · exact hkept x hx (.inl hx₁)
      · exact hkept x hx (.inr (hkept₁ x hx₁ hx'))
    · obtain ⟨hx₁, hxl⟩ := hdirty hr x hx
      obtain ⟨hx₀, hxs⟩ := (hdirty₁.resolve_left (by rw [hr₁ hr]; exact Bool.false_ne_true)) x hx₁
      exact ⟨hx₀, by simp [hxs, hxl]⟩

/-! ### The resync of `ApplyUpdates` -/

theorem lookup_resetPending (ipSets : AList fun _ : UInt64 => BpfIPSet) (x : UInt64) :
    (resetPending ipSets).lookup x = (ipSets.lookup x).map fun s =>
      { s with pendingAdds := s.desiredEntries, pendingRemoves := ∅ } := by
  obtain ⟨l, hl⟩ := ipSets
  simp only [resetPending, AList.lookup]
  clear hl
  induction l with
  | nil => rfl
  | cons kv l ih =>
    obtain ⟨k, v⟩ := kv
    by_cases hx : x = k
    · subst hx
      rw [List.map_cons, List.dlookup_cons_eq, List.dlookup_cons_eq]
      rfl
    · rw [List.map_cons, List.dlookup_cons_ne _ _ hx, List.dlookup_cons_ne _ _ hx, ih]

/-- The scan's callback on an entry of a known set. -/
def scanned (s : BpfIPSet) (entry : IPSetEntry) : BpfIPSet :=
  if entry ∈ s.desiredEntries then { s with pendingAdds := s.pendingAdds.discard entry }
  else { s with pendingRemoves := s.pendingRemoves.add entry }

theorem lookup_scanEntry (acc : (AList fun _ : UInt64 => BpfIPSet) × List IPSetEntry)
    (e : IPSetEntry) (x : UInt64) :
    (scanEntry acc e).1.lookup x =
      if IPSetEntry.setID e = x then (acc.1.lookup x).map (scanned · e) else acc.1.lookup x := by
  unfold scanEntry
  dsimp only
  split
  · rename_i hl
    split_ifs with hx
    · rw [← hx, hl]
      rfl
    · rfl
  · rename_i s hl
    split_ifs with hd hx hx
    · rw [← hx, AList.lookup_insert, hl]
      simp [scanned, hd]
    · exact AList.lookup_insert_ne (Ne.symm hx)
    · rw [← hx, AList.lookup_insert, hl]
      simp [scanned, hd]
    · exact AList.lookup_insert_ne (Ne.symm hx)

/-- What the scan leaves under an ID: the set's callbacks on the visited entries with that ID. -/
theorem lookup_foldl_scanEntry : ∀ (V : List IPSetEntry)
    (acc : (AList fun _ : UInt64 => BpfIPSet) × List IPSetEntry) (x : UInt64),
    (V.foldl scanEntry acc).1.lookup x =
      (acc.1.lookup x).map fun s => (V.filter fun e => IPSetEntry.setID e = x).foldl scanned s
  | [], acc, x => by simp
  | e :: V, acc, x => by
    rw [List.foldl_cons, lookup_foldl_scanEntry V, lookup_scanEntry]
    by_cases hx : IPSetEntry.setID e = x
    · simp [hx, List.filter_cons_of_pos, Option.map_map, Function.comp_def]
    · simp [hx]

/-- The entries the scan keeps for deletion: the visited entries of IDs that are no set's. -/
theorem mem_foldl_scanEntry_snd : ∀ (V : List IPSetEntry)
    (acc : (AList fun _ : UInt64 => BpfIPSet) × List IPSetEntry) (e : IPSetEntry),
    e ∈ (V.foldl scanEntry acc).2 ↔ e ∈ acc.2 ∨ (e ∈ V ∧ acc.1.lookup (IPSetEntry.setID e) = none)
  | [], acc, e => by simp
  | e' :: V, acc, e => by
    rw [List.foldl_cons, mem_foldl_scanEntry_snd V, lookup_scanEntry]
    have hnone : (scanEntry acc e').1.lookup (IPSetEntry.setID e) = none ↔
        acc.1.lookup (IPSetEntry.setID e) = none := by
      rw [lookup_scanEntry]
      split_ifs <;> simp
    rw [← lookup_scanEntry, hnone]
    unfold scanEntry
    dsimp only
    split
    · rename_i hl
      simp only [List.mem_append, List.mem_cons, List.not_mem_nil, or_false]
      constructor
      · rintro ((h | rfl) | ⟨h, h'⟩)
        · exact .inl h
        · exact .inr ⟨.inl rfl, hl⟩
        · exact .inr ⟨.inr h, h'⟩
      · rintro (h | ⟨rfl | h, h'⟩)
        · exact .inl (.inl h)
        · exact .inl (.inr rfl)
        · exact .inr ⟨h, h'⟩
    · rename_i s hl
      split_ifs <;>
      · simp only [List.mem_cons]
        constructor
        · rintro (h | ⟨h, h'⟩)
          · exact .inl h
          · exact .inr ⟨.inr h, h'⟩
        · rintro (h | ⟨rfl | h, h'⟩)
          · exact .inl h
          · rw [hl] at h'
            cases h'
          · exact .inr ⟨h, h'⟩

/-- The scan's callbacks on a set: the visited wanted entries are no longer to be added, and
the visited unwanted ones are to be removed. -/
theorem foldl_scanned : ∀ (W : List IPSetEntry) (s : BpfIPSet),
    (W.foldl scanned s).originalID = s.originalID ∧ (W.foldl scanned s).id = s.id ∧
      (W.foldl scanned s).desiredEntries = s.desiredEntries ∧
      (W.foldl scanned s).deleted = s.deleted ∧
      (∀ x, x ∈ (W.foldl scanned s).pendingAdds ↔
        x ∈ s.pendingAdds ∧ ¬(x ∈ W ∧ x ∈ s.desiredEntries)) ∧
      (∀ x, x ∈ (W.foldl scanned s).pendingRemoves ↔
        x ∈ s.pendingRemoves ∨ (x ∈ W ∧ x ∉ s.desiredEntries))
  | [], s => by simp
  | e :: W, s => by
    obtain ⟨h₁, h₂, h₃, h₄, h₅, h₆⟩ := foldl_scanned W (scanned s e)
    rw [List.foldl_cons]
    unfold scanned at h₁ h₂ h₃ h₄ h₅ h₆ ⊢
    split_ifs at h₁ h₂ h₃ h₄ h₅ h₆ ⊢ with hd
    · refine ⟨h₁, h₂, h₃, h₄, fun x => ?_, fun x => ?_⟩
      · rw [h₅, IterSet.mem_discard, List.mem_cons]
        by_cases hx : x = e
        · subst hx
          simp [hd]
        · simp [hx]
      · rw [h₆, List.mem_cons]
        by_cases hx : x = e
        · subst hx
          simp [hd]
        · simp [hx]
    · refine ⟨h₁, h₂, h₃, h₄, fun x => ?_, fun x => ?_⟩
      · rw [h₅, List.mem_cons]
        by_cases hx : x = e
        · subst hx
          simp [hd]
        · simp [hx]
      · rw [h₆, IterSet.mem_add, List.mem_cons]
        by_cases hx : x = e
        · subst hx
          simp [hd]
        · simp [hx]

/-- The deletion of the entries of unknown IDs: a failed delete schedules a resync, and the
others are gone. -/
theorem foldl_deleteUnknown (fails : IPSetEntry → Bool) :
    ∀ (l : List IPSetEntry) (acc : Bool × IterSet IPSetEntry),
      let r := l.foldl (fun (acc : Bool × IterSet IPSetEntry) entry =>
        if fails entry then (true, acc.2) else (acc.1, acc.2.discard entry)) acc
      (r.1 = true ↔ acc.1 = true ∨ ∃ x ∈ l, fails x = true) ∧
        ∀ x, x ∈ r.2 ↔ x ∈ acc.2 ∧ ¬(x ∈ l ∧ fails x = false)
  | [], acc => by simp
  | e :: l, acc => by
    obtain ⟨h₁, h₂⟩ := foldl_deleteUnknown fails l
      (if fails e then (true, acc.2) else (acc.1, acc.2.discard e))
    dsimp only at h₁ h₂ ⊢
    rw [List.foldl_cons]
    refine ⟨?_, fun x => ?_⟩
    · rw [h₁]
      cases hf : fails e <;> simp [hf]
    · rw [h₂]
      cases hf : fails e <;> by_cases hx : x = e <;> simp_all

/-- The dirty IDs a resync marks: the IDs of the sets with work to do. -/
theorem mem_foldl_markDirty : ∀ (l : List (Σ _ : UInt64, BpfIPSet)) (d : IterSet UInt64) (x : UInt64),
    x ∈ l.foldl (fun (dirty : IterSet UInt64) kv => if kv.2.dirty then dirty.add kv.2.id else dirty) d ↔
      x ∈ d ∨ ∃ kv ∈ l, kv.2.dirty = true ∧ kv.2.id = x
  | [], d, x => by simp
  | kv :: l, d, x => by
    rw [List.foldl_cons, mem_foldl_markDirty l]
    split_ifs with hd
    · simp only [IterSet.mem_add, List.mem_cons]
      constructor
      · rintro ((rfl | h) | ⟨kv', h, h'⟩)
        · exact .inr ⟨kv, .inl rfl, hd, rfl⟩
        · exact .inl h
        · exact .inr ⟨kv', .inr h, h'⟩
      · rintro (h | ⟨kv', rfl | h, h'⟩)
        · exact .inl (.inr h)
        · exact .inl (.inl h'.2.symm)
        · exact .inr ⟨kv', h, h'⟩
    · simp only [List.mem_cons]
      constructor
      · rintro (h | ⟨kv', h, h'⟩)
        · exact .inl h
        · exact .inr ⟨kv', .inr h, h'⟩
      · rintro (h | ⟨kv', rfl | h, h'⟩)
        · exact .inl h
        · exact absurd h'.1 hd
        · exact .inr ⟨kv', h, h'⟩

/-- The set a resync leaves under the ID `x`: its pending operations rebuilt by the scan's
callbacks on the visited entries with its ID. -/
def rescanned (f : IPSetMapFailures) (dp : IterSet IPSetEntry) (x : UInt64) (s : BpfIPSet) : BpfIPSet :=
  ((f.visited dp).filter fun e => IPSetEntry.setID e = x).foldl scanned
    { s with pendingAdds := s.desiredEntries, pendingRemoves := ∅ }

theorem lookup_resync (f : IPSetMapFailures) (dp : IterSet IPSetEntry) (x : UInt64) :
    (m.resync f dp).1.ipSets.lookup x = (m.ipSets.lookup x).map (rescanned f dp x) := by
  unfold resync
  dsimp only
  rw [lookup_foldl_scanEntry, lookup_resetPending, Option.map_map]
  rfl

@[simp] theorem resync_ipSetIDAllocator (f : IPSetMapFailures) (dp : IterSet IPSetEntry) :
    (m.resync f dp).1.ipSetIDAllocator = m.ipSetIDAllocator := rfl

/-- The map after a resync: the visited entries of unknown IDs whose delete succeeded are gone. -/
theorem mem_resync_dataplane (f : IPSetMapFailures) (dp : IterSet IPSetEntry) (e : IPSetEntry) :
    e ∈ (m.resync f dp).2 ↔ e ∈ dp ∧
      ¬(e ∈ f.visited dp ∧ m.ipSets.lookup (IPSetEntry.setID e) = none ∧ f.delete e = false) := by
  unfold resync
  dsimp only
  rw [(foldl_deleteUnknown f.delete _ _).2, mem_foldl_scanEntry_snd, lookup_resetPending]
  simp [and_assoc]

/-- A resync schedules another when its scan fails or a delete of an unknown ID's entry does. -/
theorem resync_resyncScheduled (f : IPSetMapFailures) (dp : IterSet IPSetEntry) :
    (m.resync f dp).1.resyncScheduled = true ↔ f.iterFailsAfter.isSome = true ∨
      ∃ e ∈ f.visited dp, m.ipSets.lookup (IPSetEntry.setID e) = none ∧ f.delete e = true := by
  unfold resync
  dsimp only
  rw [(foldl_deleteUnknown f.delete _ _).1]
  simp only [mem_foldl_scanEntry_snd, lookup_resetPending, List.not_mem_nil, false_or,
    Option.map_eq_none_iff, and_assoc]

/-- The dirty IDs after a resync: the IDs of the sets with work to do. -/
theorem mem_resync_dirtyIPSetIDs (f : IPSetMapFailures) (dp : IterSet IPSetEntry) (x : UInt64) :
    x ∈ (m.resync f dp).1.dirtyIPSetIDs ↔
      ∃ kv ∈ (m.resync f dp).1.ipSets.entries, kv.2.dirty = true ∧ kv.2.id = x := by
  unfold resync
  dsimp only
  rw [mem_foldl_markDirty]
  simp

/-- A resync keeps a consistent set consistent and what it wants, and makes it take the map to
hold exactly the visited entries with its ID. -/
theorem rescanned_spec (f : IPSetMapFailures) (dp : IterSet IPSetEntry) (hs : s.Wf id) :
    (rescanned f dp id s).Wf id ∧ (rescanned f dp id s).originalID = s.originalID ∧
      (rescanned f dp id s).desiredEntries = s.desiredEntries ∧
      (rescanned f dp id s).deleted = s.deleted ∧
      ∀ e, (rescanned f dp id s).Programmed e ↔ e ∈ f.visited dp ∧ IPSetEntry.setID e = id := by
  obtain ⟨h₁, h₂, h₃, h₄, h₅, h₆⟩ := foldl_scanned ((f.visited dp).filter fun e =>
    IPSetEntry.setID e = id) { s with pendingAdds := s.desiredEntries, pendingRemoves := ∅ }
  simp only [List.mem_filter, decide_eq_true_eq, IterSet.not_mem_empty, false_or] at h₅ h₆
  unfold rescanned
  refine ⟨⟨h₂.trans hs.id_eq, ?_, fun e he => ((h₆ e).mp he).1.2, ?_, ?_, ?_⟩, h₁, h₃, h₄,
    fun e => ?_⟩
  · rw [h₃]
    exact hs.desired_setID
  · rw [h₃]
    exact fun e he => ((h₅ e).mp he).1
  · rw [h₃]
    exact fun e he => ((h₆ e).mp he).2
  · rw [h₃, h₄]
    exact hs.deleted_empty
  · simp only [BpfIPSet.Programmed, h₃, h₅, h₆]
    by_cases hd : e ∈ s.desiredEntries <;> simp [hd]

/-- A resync keeps the manager consistent and its sets. A scan of the whole map makes each
set's view of the map right; and if it schedules no resync, the manager is in sync. -/
theorem Wf.resync (hm : m.Wf) (f : IPSetMapFailures) (dp : IterSet IPSetEntry) :
    (m.resync f dp).1.Wf ∧ Shrinks m (m.resync f dp).1 ∧
      (∀ x, x ∈ (m.resync f dp).1.ipSets ↔ x ∈ m.ipSets) ∧
      (f.iterFailsAfter = none → (m.resync f dp).1.EntriesSynced (m.resync f dp).2) ∧
      ((m.resync f dp).1.resyncScheduled = false → (m.resync f dp).1.Synced (m.resync f dp).2) := by
  have hmem : ∀ x, x ∈ (m.resync f dp).1.ipSets ↔ x ∈ m.ipSets := fun x => by
    rw [← AList.lookup_isSome, ← AList.lookup_isSome, lookup_resync, Option.isSome_map]
  -- every set is rebuilt in place
  have hset : ∀ x t, (m.resync f dp).1.ipSets.lookup x = some t →
      ∃ s, m.ipSets.lookup x = some s ∧ t = rescanned f dp x s := fun x t ht => by
    rw [lookup_resync, Option.map_eq_some_iff] at ht
    obtain ⟨s, hs, rfl⟩ := ht
    exact ⟨s, hs, rfl⟩
  have hwf : (m.resync f dp).1.Wf := by
    refine ⟨fun x hx => (hmem x).mpr (hm.allocated x hx), fun x t ht => ?_, fun x hx => ?_⟩
    · obtain ⟨s, hs, rfl⟩ := hset x t ht
      obtain ⟨hw, hname⟩ := hm.sets x s hs
      obtain ⟨hw', horig, -⟩ := rescanned_spec f dp hw
      exact ⟨hw', horig ▸ hname⟩
    · obtain ⟨kv, hkv, -, rfl⟩ := (mem_resync_dirtyIPSetIDs f dp x).mp hx
      have hl : (m.resync f dp).1.ipSets.lookup kv.1 = some kv.2 :=
        (AList.mem_lookup_iff).mpr hkv
      obtain ⟨s, hs, hkv2⟩ := hset kv.1 kv.2 hl
      have hid := (rescanned_spec f dp (hm.sets kv.1 s hs).1).1.id_eq
      rw [← hkv2] at hid
      rw [hid]
      exact mem_of_lookup hl
  -- a whole scan: each set's view is the map's entries with its ID
  have hentries : f.iterFailsAfter = none → (m.resync f dp).1.EntriesSynced (m.resync f dp).2 := by
    intro hf x t ht e he
    obtain ⟨s, hs, rfl⟩ := hset x t ht
    rw [(rescanned_spec f dp (hm.sets x s hs).1).2.2.2.2, mem_resync_dataplane,
      IPSetMapFailures.visited, hf, he, hs]
    simp
  refine ⟨hwf, ⟨fun x t ht => ?_, fun x s hs _ => (hmem x).mpr (mem_of_lookup hs),
    fun _ _ h => h⟩, hmem, hentries, fun hr => ⟨hentries ?_, fun e he => ?_, fun x t ht htd => ?_⟩⟩
  · obtain ⟨s, hs, rfl⟩ := hset x t ht
    obtain ⟨-, horig, hdes, hdel, -⟩ := rescanned_spec f dp (hm.sets x s hs).1
    exact ⟨s, hs, horig, hdes, hdel⟩
  · have := (not_congr (resync_resyncScheduled f dp)).mp (by rw [hr]; exact Bool.false_ne_true)
    cases hf : f.iterFailsAfter
    · rfl
    · simp [hf] at this
  · -- every entry the resync kept has a set's ID: it was visited, and a delete failing would
    -- have scheduled a resync
    have hno := (not_congr (resync_resyncScheduled f dp)).mp (by rw [hr]; exact Bool.false_ne_true)
    simp only [not_or, not_exists, not_and] at hno
    have hf : f.iterFailsAfter = none := by
      cases hf : f.iterFailsAfter
      · rfl
      · simp [hf] at hno
    rw [mem_resync_dataplane] at he
    rw [hmem, ← AList.lookup_isSome]
    by_contra hnone
    have hvis : e ∈ f.visited dp := by
      rw [IPSetMapFailures.visited, hf]
      exact he.1
    rw [Option.not_isSome_iff_eq_none] at hnone
    cases hd : f.delete e
    · exact he.2 ⟨hvis, hnone, hd⟩
    · exact absurd hd (by simpa using hno.2 e hvis hnone)
  · rw [mem_resync_dirtyIPSetIDs]
    refine ⟨⟨x, t⟩, (AList.mem_lookup_iff).mp ht, htd, ?_⟩
    exact (hwf.sets x t ht).1.id_eq

/-! ### `ApplyUpdates` -/

/-- `ApplyUpdates` from a consistent manager, in sync with the map unless a resync is
scheduled. It keeps the manager consistent and its sets. A set it releases leaves no entry
behind, unless its resync's scan failed. If it ends with no resync scheduled, the manager is in
sync with the map and no set is dirty. -/
theorem Wf.applyUpdates {f : IPSetMapFailures} (hm : m.Wf) (hS : m.resyncScheduled = false → m.Synced dp)
    (h : m.applyUpdates f dp = .ok (m', dp')) :
    m'.Wf ∧ Shrinks m m' ∧
      ((m.resyncScheduled = true → f.iterFailsAfter = none) →
        ∀ x ∈ m.ipSets, x ∉ m'.ipSets → NoEntry x dp') ∧
      (m'.resyncScheduled = false → m'.Synced dp' ∧ ∀ x, x ∉ m'.dirtyIPSetIDs) := by
  unfold BpfIPSets.applyUpdates at h
  -- the resync, if one is scheduled, then the loop over the dirty sets
  obtain ⟨hw₀, hshr₀, hmem₀, hE₀, hS₀⟩ : (if m.resyncScheduled then m.resync f dp else (m, dp)).1.Wf ∧
      Shrinks m (if m.resyncScheduled then m.resync f dp else (m, dp)).1 ∧
      (∀ x ∈ m.ipSets, x ∈ (if m.resyncScheduled then m.resync f dp else (m, dp)).1.ipSets) ∧
      ((m.resyncScheduled = true → f.iterFailsAfter = none) →
        (if m.resyncScheduled then m.resync f dp else (m, dp)).1.EntriesSynced
          (if m.resyncScheduled then m.resync f dp else (m, dp)).2) ∧
      ((if m.resyncScheduled then m.resync f dp else (m, dp)).1.resyncScheduled = false →
        (if m.resyncScheduled then m.resync f dp else (m, dp)).1.Synced
          (if m.resyncScheduled then m.resync f dp else (m, dp)).2) := by
    cases hr : m.resyncScheduled
    · have hS' := hS hr
      exact ⟨hm, Shrinks.refl m, fun x hx => hx, fun _ => hS'.entries, fun _ => hS'⟩
    · obtain ⟨hw, hshr, hmem, hE, hS'⟩ := hm.resync f dp
      exact ⟨hw, hshr, fun x hx => (hmem x).mpr hx, fun hf => hE (hf rfl), hS'⟩
  obtain ⟨hw, hshr, hE, hmono, hS', hdirty⟩ := foldlM_flushIPSet hw₀ h
  refine ⟨hw, hshr₀.trans hshr, fun hf x hx hx' => ((hE (hE₀ hf)).2 x hx' (.inl (hmem₀ x hx))),
    fun hr => ⟨hS' hr (hS₀ ?_), fun x hx => (hdirty hr x hx).2 (IterSet.mem_toList.mpr (hdirty hr x hx).1)⟩⟩
  cases hr₀ : (if m.resyncScheduled then m.resync f dp else (m, dp)).1.resyncScheduled
  · rfl
  · have := hmono hr₀
    rw [hr] at this
    cases this

/-- `ApplyUpdates` never panics from a consistent manager. -/
theorem Wf.applyUpdates_ok (hm : m.Wf) (f : IPSetMapFailures) (dp : IterSet IPSetEntry) :
    ∃ st', m.applyUpdates f dp = .ok st' := by
  have hw₀ : (if m.resyncScheduled then m.resync f dp else (m, dp)).1.Wf := by
    split
    · exact (hm.resync _ _).1
    · exact hm
  obtain ⟨st', h, -⟩ := foldlM_ok_of_step (fun st : BpfIPSets × IterSet IPSetEntry => st.1.Wf)
    (l := (if m.resyncScheduled then m.resync f dp else (m, dp)).1.dirtyIPSetIDs.toList)
    (fun st setID _ hw => by
      obtain ⟨st', h⟩ := hw.flushIPSet_ok f st.2 setID
      exact ⟨st', h, (hw.flushIPSet h).1⟩) hw₀
  exact ⟨st', h⟩

/-! ### `ApplyUpdates` with no failing call -/

/-- With no failing call, a dirty set's turn schedules no resync and keeps every other set. -/
theorem flushIPSet_none {setID : UInt64} (hm : m.Wf) (hmem : setID ∈ m.ipSets)
    (h : flushIPSet IPSetMapFailures.none (m, dp) setID = .ok (m', dp')) :
    m'.resyncScheduled = m.resyncScheduled ∧ ∀ x ∈ m.ipSets, x ≠ setID → x ∈ m'.ipSets := by
  rcases flushIPSet_eq_ok h with ⟨hl, -, -⟩ | ⟨s, pR, dp₁, l₁, pA, l₂, hl, h₁, h₂, hcase⟩
  · rw [← AList.lookup_isSome, hl] at hmem
    cases hmem
  · -- neither loop meets a failing call, so the set is not left dirty
    have hl₂ : l₂ = false := by
      obtain ⟨-, -, hl₁⟩ := flushPending_eq mem_discard_iff h₁
      obtain ⟨-, -, hl₂⟩ := flushPending_eq mem_add_iff h₂
      simp only [IPSetMapFailures.none, Bool.false_eq_true, and_false, exists_false, or_false] at hl₁ hl₂
      rw [hl₁] at hl₂
      simpa using hl₂
    have hid : ({ s with pendingRemoves := pR, pendingAdds := pA } : BpfIPSet).id = setID :=
      (hm.sets setID s hl).1.id_eq
    have hput : ∀ x ∈ m.ipSets, x ∈ (m.putIPSet { s with pendingRemoves := pR, pendingAdds := pA }).ipSets :=
      fun x hx => (AList.mem_insert _).mpr (.inr hx)
    rcases hcase with ⟨hl₂', -⟩ | ⟨-, -, m₂, hm₂, rfl⟩ | ⟨-, -, rfl⟩
    · rw [hl₂] at hl₂'
      cases hl₂'
    · obtain ⟨alloc, -, rfl⟩ := deleteIPSetAndReleaseID_eq_ok hm₂
      refine ⟨rfl, fun x hx hne => AList.mem_erase.mpr ⟨?_, hput x hx⟩⟩
      rw [hid]
      exact hne
    · exact ⟨rfl, fun x hx _ => hput x hx⟩

/-- With no failing call, the loop over the dirty sets schedules no resync: it visits each
dirty ID once, and the turns before an ID keep its set. -/
theorem foldlM_flushIPSet_none : ∀ {l : List UInt64} {st st' : BpfIPSets × IterSet IPSetEntry},
    st.1.Wf → l.Nodup → (∀ x ∈ l, x ∈ st.1.ipSets) →
    l.foldlM (flushIPSet IPSetMapFailures.none) st = .ok st' → st'.1.resyncScheduled = st.1.resyncScheduled
  | [], _, _, _, _, _, h => by
    cases h
    rfl
  | x :: l, (m, dp), st', hm, hnd, hmem, h => by
    rw [List.foldlM_cons] at h
    obtain ⟨⟨m₁, dp₁⟩, h₁, h⟩ := bind_eq_ok h
    obtain ⟨hr₁, hkeep⟩ := flushIPSet_none hm (hmem x List.mem_cons_self) h₁
    have hnd' := List.nodup_cons.mp hnd
    have hmem' : ∀ y ∈ l, y ∈ m₁.ipSets := fun y hy =>
      hkeep y (hmem y (List.mem_cons_of_mem x hy)) fun hyx => hnd'.1 (hyx ▸ hy)
    exact (foldlM_flushIPSet_none (hm.flushIPSet h₁).1 hnd'.2 hmem' h).trans hr₁

/-- `ApplyUpdates` in which no call fails ends with no resync scheduled. -/
theorem Wf.applyUpdates_none (hm : m.Wf) (h : m.applyUpdates IPSetMapFailures.none dp = .ok (m', dp')) :
    m'.resyncScheduled = false := by
  unfold BpfIPSets.applyUpdates at h
  have hw₀ : (if m.resyncScheduled then m.resync IPSetMapFailures.none dp else (m, dp)).1.Wf := by
    split
    · exact (hm.resync _ _).1
    · exact hm
  have hr₀ : (if m.resyncScheduled then m.resync IPSetMapFailures.none dp else (m, dp)).1.resyncScheduled =
      false := by
    split
    · -- the scan visits the whole map and no deletion of an unknown entry fails
      rw [← Bool.not_eq_true, resync_resyncScheduled]
      simp [IPSetMapFailures.none]
    · rename_i hr
      simpa using hr
  rw [← hr₀]
  exact foldlM_flushIPSet_none hw₀ (IterSet.nodup _) (fun x hx => hw₀.dirty x (IterSet.mem_toList.mp hx)) h

end BpfIPSets

end Felix.Bpf
