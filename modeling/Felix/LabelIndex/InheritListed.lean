import Felix.LabelIndex.InheritData
import Mathlib

/-!
# Records list only the items that name them

`Consistent.tracked` says that a parent's record lists every item that names the parent. The
converse holds too (`Listed`): the record operations add an item to a listing only when the item
joins the parent, and `onItemParentsUpdate` drops the item from every old parent it no longer
names. Every operation keeps it (`Listed.apply`).

So the record of a parent that only one item names lists that item alone, and deleting an item
that names such a parent twice panics: `onItemParentsUpdate` leaves the parent once per
listing, the first leave empties the record's item set, and the second dereferences `nil`
(`deleteLabels_of_duplicate`).

## Main definitions

* `Listed`: every item a parent's record lists names the parent

## Main results

* `Listed.apply`: every operation keeps `Listed`
* `deleteLabels_of_duplicate`: deleting an item that alone names a parent twice panics
-/

namespace Felix.LabelIndex

open Replication

namespace InheritIndex

variable {ItemID SelID Sel : Type*} [DecidableEq ItemID]
  {idx idx' : InheritIndex ItemID SelID Sel} {o : List (MatchCallback SelID ItemID)}
  {i id : ItemID} {p q : String}

/-- Every item a parent's record lists names the parent. -/
def Listed (idx : InheritIndex ItemID SelID Sel) : Prop :=
  ∀ i p, Tracks idx i p → ∃ d, idx.itemDataByID.lookup i = some d ∧ p ∈ d.parents

theorem listed_new : Listed (new : InheritIndex ItemID SelID Sel) := by
  rintro i p ⟨parent, s, h, -, -⟩
  simp [new] at h

omit [DecidableEq ItemID] in
theorem tracks_iff_of_parents (h : idx'.parentDataByParentID = idx.parentDataByParentID) :
    Tracks idx' i p ↔ Tracks idx i p := by
  unfold Tracks
  rw [h]

/-! ## The listings each record operation adds -/

section Record

omit [DecidableEq ItemID]

/-- A created record lists nothing. -/
theorem tracks_of_getOrCreateParent (h : Tracks (idx.getOrCreateParent q) i p) : Tracks idx i p := by
  obtain ⟨x, s, hx, hs, hi⟩ := h
  rw [lookup_getOrCreateParent] at hx
  split_ifs at hx with hp
  · subst hp
    cases hq : idx.parentDataByParentID.lookup p with
    | none =>
      rw [hq, Option.getD_none, Option.some.injEq] at hx
      subst hx
      simp [ParentData.empty] at hs
    | some y =>
      rw [hq, Option.getD_some] at hx
      exact ⟨x, s, hq.trans hx, hs, hi⟩
  · exact ⟨x, s, hx, hs, hi⟩

theorem tracks_of_getOrCreateParents :
    ∀ (ps : List String) (idx : InheritIndex ItemID SelID Sel) (i : ItemID) (p : String),
      Tracks (ps.foldl (fun idx parentID => idx.getOrCreateParent parentID) idx) i p →
        Tracks idx i p
  | [], _, _, _, ht => ht
  | q :: qs, idx, i, p, ht =>
    tracks_of_getOrCreateParent (tracks_of_getOrCreateParents qs (idx.getOrCreateParent q) i p ht)

/-- Dropping a record lists nothing new. -/
theorem tracks_of_discardParentIfEmpty (h : Tracks (idx.discardParentIfEmpty q) i p) :
    Tracks idx i p := by
  obtain ⟨x, s, hx, hs, hi⟩ := h
  by_cases hp : p = q
  · subst hp
    unfold discardParentIfEmpty at hx
    split at hx
    · simp at hx
    · exact ⟨x, s, hx, hs, hi⟩
  · rw [lookup_discardParentIfEmpty_ne hp] at hx
    exact ⟨x, s, hx, hs, hi⟩

end Record

/-- Leaving drops the item from the parent's listing and lists nothing new. -/
theorem tracks_of_leaveParent (h : idx.leaveParent id q = .ok idx') (ht : Tracks idx' i p) :
    Tracks idx i p ∧ ¬(i = id ∧ p = q) := by
  unfold leaveParent at h
  split at h
  · rename_i labels tags itemIDs hq
    cases h
    obtain ⟨x, s, hx, hs, hi⟩ := tracks_of_discardParentIfEmpty ht
    by_cases hp : p = q
    · -- the record of the parent left lists the others of its items
      subst hp
      rw [AList.lookup_insert, Option.some.injEq] at hx
      subst hx
      -- an emptied record lists nothing, so the record kept the others of its items
      split_ifs at hs
      cases hs
      obtain ⟨hne, hmem⟩ := IterSet.mem_discard.mp hi
      exact ⟨⟨_, itemIDs, hq, rfl, hmem⟩, fun ⟨hi', _⟩ => hne hi'⟩
    · rw [AList.lookup_insert_ne hp] at hx
      exact ⟨⟨x, s, hx, hs, hi⟩, fun ⟨_, hp'⟩ => hp hp'⟩
  · cases h

/-- Joining lists the item at the parent, and nothing else new. -/
theorem tracks_of_joinParent (ht : Tracks (idx.joinParent id q) i p) :
    Tracks idx i p ∨ (i = id ∧ p = q) := by
  obtain ⟨x, s, hx, hs, hi⟩ := ht
  unfold joinParent at hx
  rw [lookup_modifyParent] at hx
  split_ifs at hx with hp
  · subst hp
    cases hq : idx.parentDataByParentID.lookup p with
    | none =>
      rw [hq] at hx
      cases hx
    | some y =>
      rw [hq, Option.map_some, Option.some.injEq] at hx
      subst hx
      cases hs
      rcases IterSet.mem_add.mp hi with rfl | hmem
      · exact .inr ⟨rfl, rfl⟩
      · cases hy : y.itemIDs with
        | none =>
          rw [hy] at hmem
          simp at hmem
        | some t =>
          rw [hy] at hmem
          exact .inl ⟨y, t, hq, hy, hmem⟩
  · exact .inl ⟨x, s, hx, hs, hi⟩

/-- The first loop of `onItemParentsUpdate` lists nothing new, and leaves the item listed by no
old parent that is not a new one. -/
theorem tracks_of_leaveParents (newParents : List String) :
    ∀ (oldParents : List String) (idx idx' : InheritIndex ItemID SelID Sel),
      oldParents.foldlM (fun idx parentID =>
        if parentID ∈ newParents then pure idx else idx.leaveParent id parentID) idx = .ok idx' →
      ∀ i p, Tracks idx' i p → Tracks idx i p ∧ ¬(i = id ∧ p ∈ oldParents ∧ p ∉ newParents)
  | [], idx, idx', h => by
    cases h
    exact fun i p ht => ⟨ht, fun ⟨_, hp, _⟩ => absurd hp List.not_mem_nil⟩
  | q :: qs, idx, idx', h => by
    rw [List.foldlM_cons] at h
    obtain ⟨idx₁, h₁, hrest⟩ := Replication.bind_eq_ok h
    intro i p ht
    obtain ⟨ht₁, hnot⟩ := tracks_of_leaveParents newParents qs idx₁ idx' hrest i p ht
    -- the first old parent is skipped when it is a new one, and left otherwise
    have hfirst : Tracks idx i p ∧ ¬(i = id ∧ p = q ∧ p ∉ newParents) := by
      split_ifs at h₁ with hq
      · cases h₁
        exact ⟨ht₁, fun ⟨_, hpq, hpn⟩ => hpn (hpq ▸ hq)⟩
      · obtain ⟨ht₀, hne⟩ := tracks_of_leaveParent h₁ ht₁
        exact ⟨ht₀, fun ⟨hi, hpq, _⟩ => hne ⟨hi, hpq⟩⟩
    refine ⟨hfirst.1, fun ⟨hi, hp, hpn⟩ => ?_⟩
    rcases List.mem_cons.mp hp with hpq | hp
    · exact hfirst.2 ⟨hi, hpq, hpn⟩
    · exact hnot ⟨hi, hp, hpn⟩

/-- The second loop of `onItemParentsUpdate` lists the item at its new parents, and nothing
else new. -/
theorem tracks_of_joinParents (id : ItemID) :
    ∀ (newParents : List String) (idx : InheritIndex ItemID SelID Sel) (i : ItemID) (p : String),
      Tracks (newParents.foldl (fun idx parentID => idx.joinParent id parentID) idx) i p →
        Tracks idx i p ∨ (i = id ∧ p ∈ newParents)
  | [], _, _, _, ht => .inl ht
  | q :: qs, idx, i, p, ht => by
    rcases tracks_of_joinParents id qs (idx.joinParent id q) i p ht with ht₁ | ⟨hi, hp⟩
    · rcases tracks_of_joinParent ht₁ with ht₀ | ⟨hi, rfl⟩
      · exact .inl ht₀
      · exact .inr ⟨hi, List.mem_cons_self⟩
    · exact .inr ⟨hi, List.mem_cons_of_mem _ hp⟩

theorem tracks_of_onItemParentsUpdate {oldParents newParents : List String}
    (h : idx.onItemParentsUpdate id oldParents newParents = .ok idx') (ht : Tracks idx' i p) :
    (Tracks idx i p ∧ ¬(i = id ∧ p ∈ oldParents ∧ p ∉ newParents)) ∨ (i = id ∧ p ∈ newParents) := by
  unfold onItemParentsUpdate at h
  obtain ⟨idx₁, h₁, h₂⟩ := Replication.bind_eq_ok h
  cases h₂
  rcases tracks_of_joinParents id newParents idx₁ i p ht with ht₁ | hnew
  · exact .inl (tracks_of_leaveParents newParents oldParents idx idx₁ h₁ i p ht₁)
  · exact .inr hnew

/-! ## Every operation keeps `Listed` -/

section Operations

/-- An operation that leaves the items and the parent records keeps `Listed`. -/
theorem Listed.congr (h : Listed idx) (hitems : idx'.itemDataByID = idx.itemDataByID)
    (hparents : idx'.parentDataByParentID = idx.parentDataByParentID) : Listed idx' := by
  intro i p ht
  rw [hitems]
  exact h i p ((tracks_iff_of_parents hparents).mp ht)

variable [DecidableEq SelID] (evaluateLabels : Sel → (String → Option String) → Bool)

theorem Listed.updateLabels (h : Listed idx) {labels : Labels} {parentIDs : List String}
    (hop : idx.updateLabels evaluateLabels id labels parentIDs = .ok (idx', o)) : Listed idx' := by
  have hitems := (updateLabels_data evaluateLabels hop).1
  unfold InheritIndex.updateLabels at hop
  obtain ⟨idx₂, hpar, hflush⟩ := bind_eq_ok hop
  have hs := flushUpdates_sameData evaluateLabels hflush
  intro i p ht
  rw [hitems]
  rw [tracks_iff_of_parents hs.parents] at ht
  rcases tracks_of_onItemParentsUpdate hpar ht with ⟨ht₁, hnot⟩ | ⟨rfl, hp⟩
  · -- a listing of the old index: the item named the parent, and still does unless it is `id`
    obtain ⟨d, hd, hpd⟩ := h i p (tracks_of_getOrCreateParents parentIDs idx i p ht₁)
    by_cases hi : i = id
    · subst hi
      refine ⟨_, AList.lookup_insert _, ?_⟩
      by_contra hpn
      exact hnot ⟨rfl, by simpa [hd] using hpd, hpn⟩
    · exact ⟨d, by rw [AList.lookup_insert_ne hi, hd], hpd⟩
  · exact ⟨_, AList.lookup_insert _, hp⟩

theorem Listed.deleteLabels (h : Listed idx) (hop : idx.deleteLabels evaluateLabels id = .ok (idx', o)) :
    Listed idx' := by
  have hitems := (deleteLabels_data evaluateLabels hop).1
  unfold InheritIndex.deleteLabels at hop
  obtain ⟨idx₂, hpar, hflush⟩ := bind_eq_ok hop
  have hs := flushUpdates_sameData evaluateLabels hflush
  intro i p ht
  rw [hitems]
  rw [tracks_iff_of_parents hs.parents] at ht
  rcases tracks_of_onItemParentsUpdate hpar ht with ⟨ht₁, hnot⟩ | ⟨-, hp⟩
  · obtain ⟨d, hd, hpd⟩ := h i p ht₁
    -- the deleted item left every parent it named
    have hi : i ≠ id := fun hi => hnot ⟨hi, by subst hi; simpa [hd] using hpd, List.not_mem_nil⟩
    exact ⟨d, by rw [AList.lookup_erase_ne hi, hd], hpd⟩
  · exact absurd hp List.not_mem_nil

variable {f : ParentData ItemID → ParentData ItemID} (hf : ∀ x, (f x).itemIDs = x.itemIDs)
include hf

theorem Listed.updateParent (h : Listed idx) (hop : updateParent evaluateLabels f p idx = .ok (idx', o)) :
    Listed idx' := by
  have hs := flushChildren_sameData evaluateLabels hop
  intro i q ht
  rw [(updateParent_data evaluateLabels hop).1]
  rw [tracks_iff_of_parents hs.parents, tracks_modifyParent hf] at ht
  exact h i q (tracks_of_getOrCreateParent ht)

theorem Listed.deleteParent (h : Listed idx) (hop : deleteParent evaluateLabels f p idx = .ok (idx', o)) :
    Listed idx' := by
  have hitems := (deleteParent_data evaluateLabels hop).1
  unfold InheritIndex.deleteParent at hop
  split at hop
  · obtain ⟨rfl, rfl⟩ := Prod.mk.inj (Except.ok.inj hop)
    exact h
  · have hs := flushChildren_sameData evaluateLabels hop
    intro i q ht
    rw [hitems]
    rw [tracks_iff_of_parents hs.parents] at ht
    exact h i q ((tracks_modifyParent hf i q).mp (tracks_of_discardParentIfEmpty ht))

end Operations

/-- **Every operation** that does not panic keeps `Listed`. -/
theorem Listed.apply [DecidableEq SelID] {UID : Type*} [DecidableEq UID] {evaluateLabels : Sel → (String → Option String) → Bool}
    {uniqueID : Sel → UID} (h : Listed idx) {op : Op ItemID SelID Sel}
    (hop : idx.apply evaluateLabels uniqueID op = .ok (idx', o)) : Listed idx' := by
  cases op with
  | updateSelector s sel =>
    exact h.congr (updateSelector_data evaluateLabels hop).1 (updateSelector_sameData evaluateLabels hop)
  | deleteSelector s => exact h.congr (deleteSelector_data hop).1 (deleteSelector_sameData hop)
  | updateLabels id labels parentIDs => exact h.updateLabels evaluateLabels hop
  | deleteLabels id => exact h.deleteLabels evaluateLabels hop
  | updateParentLabels p labels => exact h.updateParent evaluateLabels (by intro; rfl) hop
  | deleteParentLabels p => exact h.deleteParent evaluateLabels (by intro; rfl) hop
  | updateParentTags p tags => exact h.updateParent evaluateLabels (by intro; rfl) hop
  | deleteParentTags p => exact h.deleteParent evaluateLabels (by intro; rfl) hop

/-! ## Deleting an item that names a parent twice -/

/-- `leaveParent` fails only by dereferencing `nil`. -/
theorem leaveParent_eq_error {e : String} (h : idx.leaveParent id q = .error e) : e = nilDereference := by
  unfold leaveParent at h
  split at h
  · cases h
  · cases h
    rfl

/-- Leaving a parent whose record lists no item dereferences `nil`. -/
theorem leaveParent_of_unlisted
    (h : ∀ parent, idx.parentDataByParentID.lookup q = some parent → parent.itemIDs = none) :
    idx.leaveParent id q = .error nilDereference := by
  unfold leaveParent
  split
  · rename_i labels tags itemIDs hq
    cases h _ hq
  · rfl

/-- Leaving a parent whose record lists only the item leaves the record listing none. -/
theorem leaveParent_unlists (h : idx.leaveParent id q = .ok idx') (honly : ∀ i, Tracks idx i q → i = id) :
    ∀ parent, idx'.parentDataByParentID.lookup q = some parent → parent.itemIDs = none := by
  intro parent hparent
  unfold leaveParent at h
  split at h
  · rename_i labels tags itemIDs hq
    cases h
    -- the record after the item left, whether or not it was then dropped
    have hempty : (itemIDs.discard id).toList = [] := by
      refine List.eq_nil_iff_forall_not_mem.mpr fun i hi => ?_
      obtain ⟨hne, hmem⟩ := IterSet.mem_discard.mp hi
      exact hne (honly i ⟨_, itemIDs, hq, rfl, hmem⟩)
    unfold discardParentIfEmpty at hparent
    split at hparent
    · simp at hparent
    · rw [AList.lookup_insert, if_pos hempty, Option.some.injEq] at hparent
      rw [← hparent]
  · cases h

/-- The first loop of `onItemParentsUpdate` with no new parents: reaching a parent whose record
lists no item dereferences `nil`, if no earlier parent did. -/
theorem leaveAll_of_unlisted :
    ∀ (l : List String) (idx : InheritIndex ItemID SelID Sel), p ∈ l →
      (∀ parent, idx.parentDataByParentID.lookup p = some parent → parent.itemIDs = none) →
      l.foldlM (fun idx parentID =>
        if parentID ∈ ([] : List String) then pure idx else idx.leaveParent id parentID) idx =
          .error nilDereference
  | [], _, hp, _ => absurd hp List.not_mem_nil
  | q :: qs, idx, hp, hun => by
    rw [List.foldlM_cons, if_neg List.not_mem_nil]
    by_cases hq : q = p
    · subst hq
      rw [leaveParent_of_unlisted hun]
      rfl
    cases hstep : idx.leaveParent id q with
    | error e =>
      rw [leaveParent_eq_error hstep]
      rfl
    | ok idx₁ =>
      -- the record of `p` is as it was
      have hlook := (leaveParent_spec hstep).2.2.2 p (Ne.symm hq)
      exact leaveAll_of_unlisted qs idx₁ ((List.mem_cons.mp hp).resolve_left (Ne.symm hq))
        (by rw [hlook]; exact hun)

/-- The first loop of `onItemParentsUpdate` with no new parents, over a list that names `p`
twice while `p`'s record lists only the item: it dereferences `nil`. -/
theorem leaveAll_of_duplicate :
    ∀ (l : List String) (idx : InheritIndex ItemID SelID Sel), List.Duplicate p l →
      (∀ i, Tracks idx i p → i = id) →
      l.foldlM (fun idx parentID =>
        if parentID ∈ ([] : List String) then pure idx else idx.leaveParent id parentID) idx =
          .error nilDereference
  | [], _, hdup, _ => absurd hdup.mem List.not_mem_nil
  | q :: qs, idx, hdup, honly => by
    rw [List.foldlM_cons, if_neg List.not_mem_nil]
    cases hstep : idx.leaveParent id q with
    | error e =>
      rw [leaveParent_eq_error hstep]
      rfl
    | ok idx₁ =>
      by_cases hq : q = p
      · -- the first leave empties the record, and `p` comes again
        subst hq
        have hmem : q ∈ qs := by
          rcases List.duplicate_cons_iff.mp hdup with ⟨-, h⟩ | h
          · exact h
          · exact h.mem
        exact leaveAll_of_unlisted qs idx₁ hmem (leaveParent_unlists hstep honly)
      · have hlook := (leaveParent_spec hstep).2.2.2 p (Ne.symm hq)
        have hdup' : List.Duplicate p qs := by
          rcases List.duplicate_cons_iff.mp hdup with ⟨h, -⟩ | h
          · exact absurd h hq
          · exact h
        refine leaveAll_of_duplicate qs idx₁ hdup' fun i ht => honly i ?_
        exact (tracks_congr (by rw [hlook]) i).mp ht

/-- **Deleting an item that alone names a parent twice panics**: the first loop of
`onItemParentsUpdate` leaves the parent twice, and the second time its item set is `nil`. -/
theorem deleteLabels_of_duplicate [DecidableEq SelID] (evaluateLabels : Sel → (String → Option String) → Bool)
    (h : Listed idx) {d : ItemData} (hd : idx.itemDataByID.lookup id = some d) (hdup : List.Duplicate p d.parents)
    (honly : ∀ i d', i ≠ id → idx.itemDataByID.lookup i = some d' → p ∉ d'.parents) :
    idx.deleteLabels evaluateLabels id = .error nilDereference := by
  -- only the item names `p`, so `p`'s record lists the item alone
  have hlisted : ∀ i, Tracks idx i p → i = id := fun i ht => by
    obtain ⟨d', hd', hpd'⟩ := h i p ht
    by_contra hi
    exact honly i d' hi hd' hpd'
  have hloop := leaveAll_of_duplicate d.parents
    { idx with itemDataByID := idx.itemDataByID.erase id } hdup hlisted
  unfold InheritIndex.deleteLabels onItemParentsUpdate
  rw [hd, Option.map_some, Option.getD_some]
  dsimp only
  rw [hloop]
  rfl

end InheritIndex

end Felix.LabelIndex
