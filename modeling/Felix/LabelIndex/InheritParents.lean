import Felix.LabelIndex.InheritIndex

/-!
# Parent records of the label inheritance index

An item reads its parents' labels through their records in `parentDataByParentID`, and
each record lists, in `itemIDs`, the items that name the parent. `flushChildren` re-evaluates
exactly the listed items, so the index is right only if every item that names a parent is
listed in the parent's record (`Tracks`), and a record is dropped only when nothing names it.

This module says what each function that writes the records does to the labels the items
read (`parentLabel`) and to the listings: `getOrCreateParent`, `modifyParent` (a write
through the pointer to a record), `discardParentIfEmpty`, and the two loops of
`onItemParentsUpdate`. None of them touches anything but the records (`ParentsOnly`).

## Main definitions

* `parentLabel`: a parent's labels as `itemData.Get` reads them
* `Tracks idx i p`: the record of `p` lists the item `i`
* `ParentsOnly idx idx'`: `idx'` differs from `idx` in its parent records only

## Main results

* `get_congr`: an item's labels depend only on its own labels and its parents'
* `onItemParentsUpdate_spec`: the item leaves its old parents and joins its new ones, the
  other items stay listed, and no label any item reads changes
-/

namespace Felix.LabelIndex

namespace InheritIndex

variable {ItemID SelID Sel : Type*} {idx idx' : InheritIndex ItemID SelID Sel}

/-! ## Labels -/

/-- The label `labelName` of the parent `p`, as `itemData.Get` reads it. -/
def parentLabel (idx : InheritIndex ItemID SelID Sel) (p labelName : String) : Option String :=
  (idx.parentDataByParentID.lookup p).bind fun parent => parent.get labelName

/-- The labels and tags of the parent `p`: those of its record, none without one. -/
def parentFields (idx : InheritIndex ItemID SelID Sel) (p : String) :
    Option Labels × Option (List String) :=
  ((idx.parentDataByParentID.lookup p).bind (·.labels), (idx.parentDataByParentID.lookup p).bind (·.tags))

/-- A parent's labels, as an item reads them, come from its labels and tags alone. -/
theorem parentLabel_eq_get_parentFields (p labelName : String) :
    idx.parentLabel p labelName =
      (⟨(idx.parentFields p).1, (idx.parentFields p).2, none⟩ : ParentData ItemID).get labelName := by
  unfold parentLabel parentFields
  cases idx.parentDataByParentID.lookup p with
  | none => simp [ParentData.get]
  | some x => rfl

theorem parentLabel_eq_of_parentFields (h : idx'.parentFields = idx.parentFields) :
    idx'.parentLabel = idx.parentLabel := by
  funext p labelName
  rw [parentLabel_eq_get_parentFields, parentLabel_eq_get_parentFields, h]

/-- An item's labels depend only on its own labels and its parents' labels. -/
theorem get_congr {d : ItemData} (h : ∀ p ∈ d.parents, idx'.parentLabel p = idx.parentLabel p) :
    idx'.get d = idx.get d := by
  funext labelName
  unfold get
  split
  · rfl
  · -- the parents are read in order, each through `parentLabel`
    show d.parents.findSome? (fun p => idx'.parentLabel p labelName) =
      d.parents.findSome? (fun p => idx.parentLabel p labelName)
    generalize d.parents = ps at h ⊢
    induction ps with
    | nil => rfl
    | cons p ps ih =>
      rw [List.findSome?_cons, List.findSome?_cons, h p List.mem_cons_self,
        ih fun q hq => h q (List.mem_cons_of_mem _ hq)]

theorem get_eq_of_parentLabel (h : idx'.parentLabel = idx.parentLabel) : idx'.get = idx.get := by
  funext d
  exact get_congr fun p _ => by rw [h]

theorem get_eq_of_parentFields (h : idx'.parentFields = idx.parentFields) : idx'.get = idx.get :=
  get_eq_of_parentLabel (parentLabel_eq_of_parentFields h)

theorem get_eq_of_parents (h : idx'.parentDataByParentID = idx.parentDataByParentID) :
    idx'.get = idx.get := by
  refine get_eq_of_parentLabel ?_
  unfold parentLabel
  rw [h]

/-! ## Listings -/

/-- The record of the parent `p` lists the item `i`. -/
def Tracks (idx : InheritIndex ItemID SelID Sel) (i : ItemID) (p : String) : Prop :=
  ∃ parent itemIDs, idx.parentDataByParentID.lookup p = some parent ∧
    parent.itemIDs = some itemIDs ∧ i ∈ itemIDs

/-- Two indexes whose records of `p` list the same items track the same items at `p`. -/
theorem tracks_congr {p : String}
    (h : (idx'.parentDataByParentID.lookup p).map ParentData.itemIDs =
      (idx.parentDataByParentID.lookup p).map ParentData.itemIDs) (i : ItemID) :
    Tracks idx' i p ↔ Tracks idx i p := by
  unfold Tracks
  cases h' : idx'.parentDataByParentID.lookup p <;>
    cases h'' : idx.parentDataByParentID.lookup p <;> simp_all

/-- `idx'` differs from `idx` in its parent records only. -/
structure ParentsOnly (idx idx' : InheritIndex ItemID SelID Sel) : Prop where
  items : idx'.itemDataByID = idx.itemDataByID
  selectors : idx'.selectorsById = idx.selectorsById
  bySel : idx'.labelIdsBySelId = idx.labelIdsBySelId
  byLabel : idx'.selIdsByLabelId = idx.selIdsByLabelId
  dirty : idx'.dirtyItemIDs = idx.dirtyItemIDs

theorem ParentsOnly.refl (idx : InheritIndex ItemID SelID Sel) : ParentsOnly idx idx :=
  ⟨rfl, rfl, rfl, rfl, rfl⟩

theorem ParentsOnly.trans {idx'' : InheritIndex ItemID SelID Sel} (h : ParentsOnly idx idx')
    (h' : ParentsOnly idx' idx'') : ParentsOnly idx idx'' :=
  ⟨h'.items.trans h.items, h'.selectors.trans h.selectors, h'.bySel.trans h.bySel,
    h'.byLabel.trans h.byLabel, h'.dirty.trans h.dirty⟩

/-! ## Writes to one record -/

section Record

variable {q p : String}

theorem lookup_modifyParent (f : ParentData ItemID → ParentData ItemID) (p : String) :
    (idx.modifyParent q f).parentDataByParentID.lookup p =
      if p = q then (idx.parentDataByParentID.lookup q).map f
      else idx.parentDataByParentID.lookup p := by
  unfold modifyParent
  cases h : idx.parentDataByParentID.lookup q with
  | none =>
    split_ifs with hp
    · subst hp
      exact h
    · rfl
  | some x =>
    split_ifs with hp
    · subst hp
      simp [AList.lookup_insert]
    · simp [AList.lookup_insert_ne hp]

theorem modifyParent_parentsOnly (f : ParentData ItemID → ParentData ItemID) :
    ParentsOnly idx (idx.modifyParent q f) := by
  unfold modifyParent
  split <;> exact ⟨rfl, rfl, rfl, rfl, rfl⟩

theorem parentLabel_modifyParent_ne (f : ParentData ItemID → ParentData ItemID) (hp : p ≠ q) :
    (idx.modifyParent q f).parentLabel p = idx.parentLabel p := by
  unfold parentLabel
  rw [lookup_modifyParent, if_neg hp]

theorem parentFields_modifyParent_ne (f : ParentData ItemID → ParentData ItemID) (hp : p ≠ q) :
    (idx.modifyParent q f).parentFields p = idx.parentFields p := by
  unfold parentFields
  rw [lookup_modifyParent, if_neg hp]

/-- A write that leaves the record's items keeps every listing. -/
theorem tracks_modifyParent {f : ParentData ItemID → ParentData ItemID}
    (hf : ∀ x, (f x).itemIDs = x.itemIDs) (i : ItemID) (p : String) :
    Tracks (idx.modifyParent q f) i p ↔ Tracks idx i p := by
  refine tracks_congr ?_ i
  rw [lookup_modifyParent]
  split_ifs with hp
  · subst hp
    cases idx.parentDataByParentID.lookup p <;> simp [hf]
  · rfl

theorem lookup_getOrCreateParent (q p : String) :
    (idx.getOrCreateParent q).parentDataByParentID.lookup p =
      if p = q then some ((idx.parentDataByParentID.lookup q).getD .empty)
      else idx.parentDataByParentID.lookup p := by
  unfold getOrCreateParent
  cases h : idx.parentDataByParentID.lookup q with
  | some x =>
    split_ifs with hp
    · subst hp
      exact h
    · rfl
  | none =>
    split_ifs with hp
    · subst hp
      simp [AList.lookup_insert]
    · simp [AList.lookup_insert_ne hp]

theorem getOrCreateParent_parentsOnly (q : String) : ParentsOnly idx (idx.getOrCreateParent q) := by
  unfold getOrCreateParent
  split <;> exact ⟨rfl, rfl, rfl, rfl, rfl⟩

/-- A created record is empty, and has the labels and tags of no record. -/
theorem parentFields_getOrCreateParent (q : String) :
    (idx.getOrCreateParent q).parentFields = idx.parentFields := by
  funext p
  unfold parentFields
  rw [lookup_getOrCreateParent]
  split_ifs with hp
  · subst hp
    cases idx.parentDataByParentID.lookup p <;> rfl
  · rfl

theorem parentLabel_getOrCreateParent (q : String) :
    (idx.getOrCreateParent q).parentLabel = idx.parentLabel :=
  parentLabel_eq_of_parentFields (parentFields_getOrCreateParent q)

theorem tracks_getOrCreateParent {i : ItemID} (h : Tracks idx i p) (q : String) :
    Tracks (idx.getOrCreateParent q) i p := by
  obtain ⟨x, s, hx, hs, hi⟩ := h
  refine ⟨x, s, ?_, hs, hi⟩
  rw [lookup_getOrCreateParent]
  split_ifs with hp
  · subst hp
    simp [hx]
  · exact hx

theorem isSome_getOrCreateParent (q p : String)
    (h : p = q ∨ (idx.parentDataByParentID.lookup p).isSome) :
    ((idx.getOrCreateParent q).parentDataByParentID.lookup p).isSome := by
  rw [lookup_getOrCreateParent]
  split_ifs with hp
  · rfl
  · exact h.resolve_left hp

theorem lookup_discardParentIfEmpty_ne (hp : p ≠ q) :
    (idx.discardParentIfEmpty q).parentDataByParentID.lookup p =
      idx.parentDataByParentID.lookup p := by
  unfold discardParentIfEmpty
  split
  · exact AList.lookup_erase_ne hp
  · rfl

/-- A record that lists items is kept. -/
theorem lookup_discardParentIfEmpty_of_itemIDs {x : ParentData ItemID}
    (hx : idx.parentDataByParentID.lookup q = some x) (hs : x.itemIDs.isSome) :
    (idx.discardParentIfEmpty q).parentDataByParentID.lookup q = some x := by
  unfold discardParentIfEmpty
  rw [hx]
  obtain ⟨l, t, s⟩ := x
  cases s with
  | none => simp at hs
  | some s => cases l <;> cases t <;> exact hx

theorem discardParentIfEmpty_parentsOnly (q : String) :
    ParentsOnly idx (idx.discardParentIfEmpty q) := by
  unfold discardParentIfEmpty
  split <;> exact ⟨rfl, rfl, rfl, rfl, rfl⟩

/-- Only a record with no labels or tags is dropped. -/
theorem parentFields_discardParentIfEmpty (q : String) :
    (idx.discardParentIfEmpty q).parentFields = idx.parentFields := by
  funext p
  by_cases hp : p = q
  · subst hp
    unfold parentFields discardParentIfEmpty
    split
    · rename_i h
      simp [h]
    · rfl
  · unfold parentFields
    rw [lookup_discardParentIfEmpty_ne hp]

theorem parentLabel_discardParentIfEmpty (q : String) :
    (idx.discardParentIfEmpty q).parentLabel = idx.parentLabel :=
  parentLabel_eq_of_parentFields (parentFields_discardParentIfEmpty q)

theorem tracks_discardParentIfEmpty {i : ItemID} (h : Tracks idx i p) (q : String) :
    Tracks (idx.discardParentIfEmpty q) i p := by
  obtain ⟨x, s, hx, hs, hi⟩ := h
  refine ⟨x, s, ?_, hs, hi⟩
  by_cases hp : p = q
  · subst hp
    exact lookup_discardParentIfEmpty_of_itemIDs hx (by simp [hs])
  · rw [lookup_discardParentIfEmpty_ne hp]
    exact hx

/-- The records created before an item names its parents: every named parent has one, and
nothing an item reads or a record lists changes. -/
theorem getOrCreateParents_spec :
    ∀ (ps : List String) (idx : InheritIndex ItemID SelID Sel),
      let idx' := ps.foldl (fun idx parentID => idx.getOrCreateParent parentID) idx
      ParentsOnly idx idx' ∧ idx'.parentFields = idx.parentFields ∧
        (∀ i p, Tracks idx i p → Tracks idx' i p) ∧
        ∀ p, p ∈ ps ∨ (idx.parentDataByParentID.lookup p).isSome →
          (idx'.parentDataByParentID.lookup p).isSome
  | [], idx => ⟨ParentsOnly.refl idx, rfl, fun _ _ h => h, fun _ h => by simpa using h⟩
  | q :: qs, idx => by
    obtain ⟨hp, hl, ht, hs⟩ := getOrCreateParents_spec qs (idx.getOrCreateParent q)
    refine ⟨(getOrCreateParent_parentsOnly q).trans hp, hl.trans (parentFields_getOrCreateParent q),
      fun i p h => ht i p (tracks_getOrCreateParent h q), fun p h => hs p ?_⟩
    rcases h with h | h
    · rcases List.mem_cons.mp h with rfl | h
      · exact .inr (isSome_getOrCreateParent p p (.inl rfl))
      · exact .inl h
    · exact .inr (isSome_getOrCreateParent q p (.inr h))

end Record

/-! ## `onItemParentsUpdate` -/

section Update

variable [DecidableEq ItemID] {id : ItemID} {q p : String}

theorem leaveParent_spec (h : idx.leaveParent id q = .ok idx') :
    ParentsOnly idx idx' ∧ idx'.parentFields = idx.parentFields ∧
      (∀ i p, i ≠ id → Tracks idx i p → Tracks idx' i p) ∧
      ∀ p, p ≠ q → idx'.parentDataByParentID.lookup p = idx.parentDataByParentID.lookup p := by
  unfold leaveParent at h
  split at h
  · rename_i labels tags itemIDs hq
    cases h
    -- the record with the item dropped from its listing, before the discard
    set idx₁ : InheritIndex ItemID SelID Sel := { idx with
      parentDataByParentID := idx.parentDataByParentID.insert q
        ⟨labels, tags, if (itemIDs.discard id).toList = [] then none else some (itemIDs.discard id)⟩ }
    have hlook : ∀ p, p ≠ q → idx₁.parentDataByParentID.lookup p =
        idx.parentDataByParentID.lookup p := fun p hp => AList.lookup_insert_ne hp
    have hfields : idx₁.parentFields = idx.parentFields := by
      funext p
      by_cases hp : p = q
      · subst hp
        simp only [parentFields, idx₁, AList.lookup_insert, hq, Option.bind_some]
      · simp only [parentFields, hlook p hp]
    refine ⟨(⟨rfl, rfl, rfl, rfl, rfl⟩ : ParentsOnly idx idx₁).trans
      (discardParentIfEmpty_parentsOnly q), ?_, fun i p hi ht => ?_, fun p hp => ?_⟩
    · rw [parentFields_discardParentIfEmpty, hfields]
    · refine tracks_discardParentIfEmpty ?_ q
      by_cases hp : p = q
      · -- the item stays listed, so the listing is not empty
        subst hp
        obtain ⟨x, s, hx, hs, hmem⟩ := ht
        rw [hq] at hx
        cases hx
        cases hs
        have hmem' : i ∈ itemIDs.discard id := IterSet.mem_discard.mpr ⟨hi, hmem⟩
        have hne : (itemIDs.discard id).toList ≠ [] := List.ne_nil_of_mem hmem'
        exact ⟨_, _, AList.lookup_insert _, by simp [hne], hmem'⟩
      · obtain ⟨x, s, hx, hs, hmem⟩ := ht
        exact ⟨x, s, (hlook p hp).trans hx, hs, hmem⟩
    · rw [lookup_discardParentIfEmpty_ne hp, hlook p hp]
  · cases h

theorem joinParent_spec (id : ItemID) (q : String) :
    ParentsOnly idx (idx.joinParent id q) ∧ (idx.joinParent id q).parentFields = idx.parentFields ∧
      (∀ i p, Tracks idx i p → Tracks (idx.joinParent id q) i p) ∧
      ((idx.parentDataByParentID.lookup q).isSome → Tracks (idx.joinParent id q) id q) ∧
      ∀ p, (idx.parentDataByParentID.lookup p).isSome →
        ((idx.joinParent id q).parentDataByParentID.lookup p).isSome := by
  refine ⟨modifyParent_parentsOnly _, ?_, fun i p ht => ?_, fun hq => ?_, fun p hp => ?_⟩
  · funext p
    unfold parentFields joinParent
    rw [lookup_modifyParent]
    split_ifs with hp
    · subst hp
      cases idx.parentDataByParentID.lookup p <;> rfl
    · rfl
  · obtain ⟨x, s, hx, hs, hmem⟩ := ht
    unfold joinParent
    rw [Tracks, lookup_modifyParent]
    split_ifs with hp
    · subst hp
      exact ⟨{ x with itemIDs := some (s.add id) }, s.add id, by rw [hx]; simp [hs], rfl,
        IterSet.mem_add.mpr (.inr hmem)⟩
    · exact ⟨x, s, hx, hs, hmem⟩
  · obtain ⟨x, hx⟩ := Option.isSome_iff_exists.mp hq
    unfold joinParent
    rw [Tracks, lookup_modifyParent, if_pos rfl, hx]
    exact ⟨_, _, rfl, rfl, IterSet.mem_add.mpr (.inl rfl)⟩
  · unfold joinParent
    rw [lookup_modifyParent]
    split_ifs with h
    · subst h
      simpa using hp
    · exact hp

/-- The first loop: the item leaves every old parent that is not a new one. -/
theorem leaveParents_spec (newParents : List String) :
    ∀ (oldParents : List String) (idx idx' : InheritIndex ItemID SelID Sel),
      oldParents.foldlM (fun idx parentID =>
        if parentID ∈ newParents then pure idx else idx.leaveParent id parentID) idx = .ok idx' →
      ParentsOnly idx idx' ∧ idx'.parentFields = idx.parentFields ∧
        (∀ i p, i ≠ id → Tracks idx i p → Tracks idx' i p) ∧
        ∀ p ∈ newParents, idx'.parentDataByParentID.lookup p = idx.parentDataByParentID.lookup p
  | [], idx, idx', h => by
    cases h
    exact ⟨ParentsOnly.refl idx, rfl, fun _ _ _ h => h, fun _ _ => rfl⟩
  | q :: qs, idx, idx', h => by
    rw [List.foldlM_cons] at h
    obtain ⟨idx₁, h₁, hrest⟩ := Replication.bind_eq_ok h
    obtain ⟨hp₂, hl₂, ht₂, hk₂⟩ := leaveParents_spec newParents qs idx₁ idx' hrest
    -- one turn: the parent is skipped when it is a new one
    have hturn : ParentsOnly idx idx₁ ∧ idx₁.parentFields = idx.parentFields ∧
        (∀ i p, i ≠ id → Tracks idx i p → Tracks idx₁ i p) ∧
        ∀ p ∈ newParents, idx₁.parentDataByParentID.lookup p = idx.parentDataByParentID.lookup p := by
      split_ifs at h₁ with hq
      · cases h₁
        exact ⟨ParentsOnly.refl idx, rfl, fun _ _ _ h => h, fun _ _ => rfl⟩
      · obtain ⟨hp, hl, ht, hk⟩ := leaveParent_spec h₁
        exact ⟨hp, hl, ht, fun p hp' => hk p fun e => hq (e ▸ hp')⟩
    obtain ⟨hp₁, hl₁, ht₁, hk₁⟩ := hturn
    exact ⟨hp₁.trans hp₂, hl₂.trans hl₁, fun i p hi h => ht₂ i p hi (ht₁ i p hi h),
      fun p hp => (hk₂ p hp).trans (hk₁ p hp)⟩

/-- The second loop: the item joins every new parent that has a record. -/
theorem joinParents_spec (id : ItemID) :
    ∀ (newParents : List String) (idx : InheritIndex ItemID SelID Sel),
      let idx' := newParents.foldl (fun idx parentID => idx.joinParent id parentID) idx
      ParentsOnly idx idx' ∧ idx'.parentFields = idx.parentFields ∧
        (∀ i p, Tracks idx i p → Tracks idx' i p) ∧
        ∀ p ∈ newParents, (idx.parentDataByParentID.lookup p).isSome → Tracks idx' id p
  | [], idx => ⟨ParentsOnly.refl idx, rfl, fun _ _ h => h, fun _ h => absurd h List.not_mem_nil⟩
  | q :: qs, idx => by
    obtain ⟨hp₁, hl₁, ht₁, hq₁, hs₁⟩ := @joinParent_spec _ _ _ idx _ id q
    obtain ⟨hp₂, hl₂, ht₂, hq₂⟩ := joinParents_spec id qs (idx.joinParent id q)
    refine ⟨hp₁.trans hp₂, hl₂.trans hl₁, fun i p h => ht₂ i p (ht₁ i p h), fun p hp hs => ?_⟩
    rcases List.mem_cons.mp hp with rfl | hp
    · exact ht₂ id p (hq₁ hs)
    · exact hq₂ p hp (hs₁ p hs)

/-- **`onItemParentsUpdate`**, when it does not panic: it writes the parent records alone
and changes no parent's labels or tags; every other item stays listed wherever it was; and the
item is listed by each of its new parents that has a record. -/
theorem onItemParentsUpdate_spec {oldParents newParents : List String}
    (h : idx.onItemParentsUpdate id oldParents newParents = .ok idx') :
    ParentsOnly idx idx' ∧ idx'.parentFields = idx.parentFields ∧
      (∀ i p, i ≠ id → Tracks idx i p → Tracks idx' i p) ∧
      ∀ p ∈ newParents, (idx.parentDataByParentID.lookup p).isSome → Tracks idx' id p := by
  unfold onItemParentsUpdate at h
  obtain ⟨idx₁, h₁, h₂⟩ := Replication.bind_eq_ok h
  cases h₂
  obtain ⟨hp₁, hl₁, ht₁, hk₁⟩ := leaveParents_spec newParents oldParents idx idx₁ h₁
  obtain ⟨hp₂, hl₂, ht₂, hq₂⟩ := joinParents_spec id newParents idx₁
  refine ⟨hp₁.trans hp₂, hl₂.trans hl₁, fun i p hi h => ht₂ i p (ht₁ i p hi h), fun p hp hs => ?_⟩
  exact hq₂ p hp (by rw [hk₁ p hp]; exact hs)

end Update

end InheritIndex

end Felix.LabelIndex
