import Felix.LabelIndex.InheritInvariant

/-!
# What the operations leave in the held data

The loops of `InheritIndex` that bring the matches up to date read the items, the parent
records and the selectors, and write none of them (`SameData`), whatever state they start
from. So what an operation leaves in `itemDataByID` and `selectorsById` is what it writes
there itself: an item's labels and parents as last given, no record of a deleted item, and
for a selector, the one last given or one of the same unique ID already held.

## Main results

* `flushUpdates_sameData`: a flush writes no data
* `updateLabels_data`, `deleteLabels_data`, `updateParent_data`, `deleteParent_data`,
  `updateSelector_data`, `deleteSelector_data`: the items and selectors after each operation
-/

namespace Felix.LabelIndex

open Replication

namespace InheritIndex

variable {ItemID SelID Sel : Type*} [DecidableEq ItemID] [DecidableEq SelID]
  {idx idx' : InheritIndex ItemID SelID Sel} {o : List (MatchCallback SelID ItemID)}

/-! ## The loops write no data -/

theorem storeMatch_sameData (s : SelID) (i : ItemID) : SameData idx (idx.storeMatch s i).1 := by
  unfold storeMatch
  split <;> exact ⟨rfl, rfl, rfl⟩

theorem deleteMatch_sameData {s : SelID} {i : ItemID} (h : idx.deleteMatch s i = .ok (idx', o)) :
    SameData idx idx' := by
  unfold deleteMatch at h
  split at h
  · cases h
    exact SameData.refl idx
  · -- the missing set of the error case is ruled out by the split
    split_ifs at h
    · cases h
      exact ⟨rfl, rfl, rfl⟩
    · cases h
      exact SameData.refl idx

omit [DecidableEq ItemID] [DecidableEq SelID] in
/-- A loop whose turns write no data writes none. -/
theorem forEach_sameData {α ω : Type*}
    {body : α → InheritIndex ItemID SelID Sel →
      Except String (InheritIndex ItemID SelID Sel × List ω)}
    (hbody : ∀ a idx idx' o, body a idx = .ok (idx', o) → SameData idx idx') {l : List α}
    {o : List ω} (h : forEach body l idx = .ok (idx', o)) : SameData idx idx' :=
  forEach_ok_induction (SameData idx) (fun a _ _ o hs ha => hs.trans (hbody a _ _ o ha))
    (SameData.refl idx) h

variable (evaluateLabels : Sel → (String → Option String) → Bool)

theorem updateMatches_sameData {s : SelID} {sel : Sel} {i : ItemID} {d : ItemData}
    (h : idx.updateMatches evaluateLabels s sel i d = .ok (idx', o)) : SameData idx idx' := by
  unfold updateMatches at h
  split_ifs at h
  · have hst : (idx.storeMatch s i).1 = idx' := congrArg Prod.fst (Except.ok.inj h)
    exact hst ▸ storeMatch_sameData s i
  · exact deleteMatch_sameData h

theorem flushItem_sameData {i : ItemID} (h : idx.flushItem evaluateLabels i = .ok (idx', o)) :
    SameData idx idx' := by
  unfold flushItem at h
  split at h
  · -- a deleted item: its stored pairs are dropped
    split at h
    · cases h
      exact SameData.refl idx
    · exact forEach_sameData (fun _ _ _ _ => deleteMatch_sameData) h
  · exact forEach_sameData (fun _ _ _ _ => updateMatches_sameData evaluateLabels) h

theorem flushUpdates_sameData (h : idx.flushUpdates evaluateLabels = .ok (idx', o)) :
    SameData idx idx' := by
  unfold flushUpdates at h
  obtain ⟨⟨idx₁, o₁⟩, hloop, hrest⟩ := bind_eq_ok h
  obtain ⟨rfl, rfl⟩ := Prod.mk.inj (Except.ok.inj hrest)
  have hs := forEach_sameData (fun _ _ _ _ => flushItem_sameData evaluateLabels) hloop
  exact ⟨hs.items, hs.parents, hs.selectors⟩

theorem flushChildren_sameData {p : String}
    (h : idx.flushChildren evaluateLabels p = .ok (idx', o)) : SameData idx idx' := by
  obtain ⟨D, -, heq⟩ := flushChildren_eq evaluateLabels p idx
  rw [heq] at h
  have hs := flushUpdates_sameData evaluateLabels h
  exact ⟨hs.items, hs.parents, hs.selectors⟩

/-! ## Items and selectors after each operation -/

theorem updateLabels_data {id : ItemID} {labels : Labels} {parentIDs : List String}
    (hop : idx.updateLabels evaluateLabels id labels parentIDs = .ok (idx', o)) :
    idx'.itemDataByID = idx.itemDataByID.insert id ⟨labels, parentIDs⟩ ∧
      idx'.selectorsById = idx.selectorsById := by
  unfold InheritIndex.updateLabels at hop
  obtain ⟨idx₂, hpar, hflush⟩ := bind_eq_ok hop
  have hgp := (getOrCreateParents_spec parentIDs idx).1
  have hpp := (onItemParentsUpdate_spec hpar).1
  have hf := flushUpdates_sameData evaluateLabels hflush
  -- the parents' records are created, then the item is stored, then its parents are told
  refine ⟨?_, ?_⟩
  · rw [hf.items]
    show idx₂.itemDataByID = _
    rw [hpp.items, ← hgp.items]
  · rw [hf.selectors]
    show idx₂.selectorsById = _
    rw [hpp.selectors, ← hgp.selectors]

theorem deleteLabels_data {id : ItemID} (hop : idx.deleteLabels evaluateLabels id = .ok (idx', o)) :
    idx'.itemDataByID = idx.itemDataByID.erase id ∧ idx'.selectorsById = idx.selectorsById := by
  unfold InheritIndex.deleteLabels at hop
  obtain ⟨idx₂, hpar, hflush⟩ := bind_eq_ok hop
  have hpp := (onItemParentsUpdate_spec hpar).1
  have hf := flushUpdates_sameData evaluateLabels hflush
  exact ⟨hf.items.trans hpp.items, hf.selectors.trans hpp.selectors⟩

section Parents

variable {f : ParentData ItemID → ParentData ItemID} {p : String}

theorem updateParent_data (hop : updateParent evaluateLabels f p idx = .ok (idx', o)) :
    idx'.itemDataByID = idx.itemDataByID ∧ idx'.selectorsById = idx.selectorsById := by
  have hs := flushChildren_sameData evaluateLabels hop
  have hpo : ParentsOnly idx ((idx.getOrCreateParent p).modifyParent p f) :=
    (getOrCreateParent_parentsOnly p).trans (modifyParent_parentsOnly f)
  exact ⟨hs.items.trans hpo.items, hs.selectors.trans hpo.selectors⟩

theorem deleteParent_data (hop : deleteParent evaluateLabels f p idx = .ok (idx', o)) :
    idx'.itemDataByID = idx.itemDataByID ∧ idx'.selectorsById = idx.selectorsById := by
  unfold InheritIndex.deleteParent at hop
  split at hop
  · cases hop
    exact ⟨rfl, rfl⟩
  · have hs := flushChildren_sameData evaluateLabels hop
    have hpo : ParentsOnly idx ((idx.modifyParent p f).discardParentIfEmpty p) :=
      (modifyParent_parentsOnly f).trans (discardParentIfEmpty_parentsOnly p)
    exact ⟨hs.items.trans hpo.items, hs.selectors.trans hpo.selectors⟩

end Parents

/-- `UpdateSelector` holds, for its selector ID, the selector given or one of the same unique
ID held before; every other selector stays. -/
theorem updateSelector_data {UID : Type*} [DecidableEq UID] {uniqueID : Sel → UID} {id : SelID}
    {sel : Sel} (hop : idx.updateSelector evaluateLabels uniqueID id sel = .ok (idx', o)) :
    idx'.itemDataByID = idx.itemDataByID ∧
      (∀ s, s ≠ id → idx'.selectorsById.lookup s = idx.selectorsById.lookup s) ∧
      ∃ held, idx'.selectorsById.lookup id = some held ∧ uniqueID held = uniqueID sel := by
  unfold InheritIndex.updateSelector at hop
  split_ifs at hop with hsame
  · -- the held selector has the same unique ID: it stays
    cases hop
    obtain ⟨held, hheld, huid⟩ := (Option.any_eq_true _ _).mp hsame
    exact ⟨rfl, fun _ _ => rfl, held, hheld, of_decide_eq_true huid⟩
  obtain ⟨⟨idx₁, o₁⟩, hscan, hrest⟩ := bind_eq_ok hop
  obtain ⟨rfl, rfl⟩ := Prod.mk.inj (Except.ok.inj hrest)
  have hs := forEach_sameData (fun _ _ _ _ => updateMatches_sameData evaluateLabels) hscan
  refine ⟨hs.items, fun s hs' => ?_, sel, AList.lookup_insert _, rfl⟩
  rw [AList.lookup_insert_ne hs', hs.selectors]

theorem deleteSelector_data {id : SelID} (hop : idx.deleteSelector id = .ok (idx', o)) :
    idx'.itemDataByID = idx.itemDataByID ∧ idx'.selectorsById = idx.selectorsById.erase id := by
  unfold InheritIndex.deleteSelector at hop
  obtain ⟨⟨idx₁, o₁⟩, hloop, hrest⟩ := bind_eq_ok hop
  obtain ⟨rfl, rfl⟩ := Prod.mk.inj (Except.ok.inj hrest)
  have hs := forEach_sameData (fun _ _ _ _ => deleteMatch_sameData) hloop
  exact ⟨hs.items, by rw [hs.selectors]⟩

/-! ## Parents' labels and tags after each operation -/

section Fields

variable {f : ParentData ItemID → ParentData ItemID} {p : String}

omit [DecidableEq ItemID] [DecidableEq SelID] in
/-- A parent's labels and tags are those of its record, or those of an empty one. -/
theorem parentFields_eq_getD (p : String) :
    idx.parentFields p = (((idx.parentDataByParentID.lookup p).getD .empty).labels,
      ((idx.parentDataByParentID.lookup p).getD .empty).tags) := by
  unfold parentFields
  cases idx.parentDataByParentID.lookup p <;> rfl

omit [DecidableEq ItemID] [DecidableEq SelID] in
theorem parentFields_of_sameData (h : SameData idx idx') : idx'.parentFields = idx.parentFields := by
  funext q
  unfold parentFields
  rw [h.parents]

/-- `UpdateParentLabels` and `UpdateParentTags` write the record of the parent, created if there
was none; every other parent keeps its labels and tags. -/
theorem updateParent_fields (hop : updateParent evaluateLabels f p idx = .ok (idx', o)) (q : String) :
    idx'.parentFields q =
      if q = p then
        ((f ((idx.parentDataByParentID.lookup p).getD .empty)).labels,
          (f ((idx.parentDataByParentID.lookup p).getD .empty)).tags)
      else idx.parentFields q := by
  rw [parentFields_of_sameData (flushChildren_sameData evaluateLabels hop)]
  unfold parentFields
  rw [lookup_modifyParent]
  split_ifs with hq
  · subst hq
    rw [lookup_getOrCreateParent, if_pos rfl]
    rfl
  · rw [lookup_getOrCreateParent, if_neg hq]

/-- `DeleteParentLabels` and `DeleteParentTags` write the record of a known parent; every other
parent keeps its labels and tags. -/
theorem deleteParent_fields (hop : deleteParent evaluateLabels f p idx = .ok (idx', o)) (q : String) :
    idx'.parentFields q =
      if q = p then
        (((idx.parentDataByParentID.lookup p).map f).bind (·.labels),
          ((idx.parentDataByParentID.lookup p).map f).bind (·.tags))
      else idx.parentFields q := by
  unfold InheritIndex.deleteParent at hop
  split at hop
  · -- an unknown parent: nothing changes, and it has no labels or tags
    rename_i hp
    obtain ⟨rfl, rfl⟩ := Prod.mk.inj (Except.ok.inj hop)
    split_ifs with hq
    · subst hq
      simp [parentFields, hp]
    · rfl
  · rw [parentFields_of_sameData (flushChildren_sameData evaluateLabels hop),
      parentFields_discardParentIfEmpty]
    unfold parentFields
    rw [lookup_modifyParent]
    split_ifs <;> rfl

theorem updateLabels_fields {id : ItemID} {labels : Labels} {parentIDs : List String}
    (hop : idx.updateLabels evaluateLabels id labels parentIDs = .ok (idx', o)) :
    idx'.parentFields = idx.parentFields := by
  unfold InheritIndex.updateLabels at hop
  obtain ⟨idx₂, hpar, hflush⟩ := bind_eq_ok hop
  rw [parentFields_of_sameData (flushUpdates_sameData evaluateLabels hflush)]
  exact (onItemParentsUpdate_spec hpar).2.1.trans (getOrCreateParents_spec parentIDs idx).2.1

theorem deleteLabels_fields {id : ItemID} (hop : idx.deleteLabels evaluateLabels id = .ok (idx', o)) :
    idx'.parentFields = idx.parentFields := by
  unfold InheritIndex.deleteLabels at hop
  obtain ⟨idx₂, hpar, hflush⟩ := bind_eq_ok hop
  rw [parentFields_of_sameData (flushUpdates_sameData evaluateLabels hflush)]
  exact (onItemParentsUpdate_spec hpar).2.1

theorem updateSelector_sameData {UID : Type*} [DecidableEq UID] {uniqueID : Sel → UID} {id : SelID}
    {sel : Sel} (hop : idx.updateSelector evaluateLabels uniqueID id sel = .ok (idx', o)) :
    idx'.parentDataByParentID = idx.parentDataByParentID := by
  unfold InheritIndex.updateSelector at hop
  split_ifs at hop
  · cases hop
    rfl
  obtain ⟨⟨idx₁, o₁⟩, hscan, hrest⟩ := bind_eq_ok hop
  obtain ⟨rfl, rfl⟩ := Prod.mk.inj (Except.ok.inj hrest)
  exact (forEach_sameData (fun _ _ _ _ => updateMatches_sameData evaluateLabels) hscan).parents

theorem deleteSelector_sameData {id : SelID} (hop : idx.deleteSelector id = .ok (idx', o)) :
    idx'.parentDataByParentID = idx.parentDataByParentID := by
  unfold InheritIndex.deleteSelector at hop
  obtain ⟨⟨idx₁, o₁⟩, hloop, hrest⟩ := bind_eq_ok hop
  obtain ⟨rfl, rfl⟩ := Prod.mk.inj (Except.ok.inj hrest)
  exact (forEach_sameData (fun _ _ _ _ => deleteMatch_sameData) hloop).parents

end Fields

end InheritIndex

/-- The labels and tags of the parent `q` after an operation, from those `fs` it had before. -/
def Op.parentFields {ItemID SelID Sel : Type*} (q : String) (fs : Option Labels × Option (List String)) :
    Op ItemID SelID Sel → Option Labels × Option (List String)
  | .updateParentLabels p labels => if q = p then (some labels, fs.2) else fs
  | .deleteParentLabels p => if q = p then (none, fs.2) else fs
  | .updateParentTags p tags => if q = p then (fs.1, some tags) else fs
  | .deleteParentTags p => if q = p then (fs.1, none) else fs
  | _ => fs

/-- The item `i` after an operation, from what it was before. -/
def Op.itemData {ItemID SelID Sel : Type*} [DecidableEq ItemID] (i : ItemID) (d : Option ItemData) :
    Op ItemID SelID Sel → Option ItemData
  | .updateLabels id labels parentIDs => if i = id then some ⟨labels, parentIDs⟩ else d
  | .deleteLabels id => if i = id then none else d
  | _ => d

namespace InheritIndex

variable {ItemID SelID Sel UID : Type*} [DecidableEq ItemID] [DecidableEq SelID] [DecidableEq UID]
  {idx idx' : InheritIndex ItemID SelID Sel} {o : List (MatchCallback SelID ItemID)}
  {evaluateLabels : Sel → (String → Option String) → Bool} {uniqueID : Sel → UID}
  {op : Op ItemID SelID Sel}

/-- **The parents' labels and tags** after an operation: those it sets or clears, the others
as they were. -/
theorem apply_parentFields (hop : idx.apply evaluateLabels uniqueID op = .ok (idx', o)) (q : String) :
    idx'.parentFields q = op.parentFields q (idx.parentFields q) := by
  cases op with
  | updateSelector id sel =>
    unfold parentFields
    rw [updateSelector_sameData evaluateLabels hop]
    rfl
  | deleteSelector id =>
    unfold parentFields
    rw [deleteSelector_sameData hop]
    rfl
  | updateLabels id labels parentIDs => rw [updateLabels_fields evaluateLabels hop]; rfl
  | deleteLabels id => rw [deleteLabels_fields evaluateLabels hop]; rfl
  | updateParentLabels p labels =>
    rw [updateParent_fields evaluateLabels hop]
    simp only [Op.parentFields]
    split_ifs with hq
    · subst hq
      rw [parentFields_eq_getD]
    · rfl
  | deleteParentLabels p =>
    rw [deleteParent_fields evaluateLabels hop]
    simp only [Op.parentFields]
    unfold parentFields
    split_ifs with hq
    · subst hq
      cases idx.parentDataByParentID.lookup q <;> rfl
    · rfl
  | updateParentTags p tags =>
    rw [updateParent_fields evaluateLabels hop]
    simp only [Op.parentFields]
    split_ifs with hq
    · subst hq
      rw [parentFields_eq_getD]
    · rfl
  | deleteParentTags p =>
    rw [deleteParent_fields evaluateLabels hop]
    simp only [Op.parentFields]
    unfold parentFields
    split_ifs with hq
    · subst hq
      cases idx.parentDataByParentID.lookup q <;> rfl
    · rfl

/-- **The items** after an operation: the one it stores or deletes, the others as they were. -/
theorem apply_itemData (hop : idx.apply evaluateLabels uniqueID op = .ok (idx', o)) (i : ItemID) :
    idx'.itemDataByID.lookup i = op.itemData i (idx.itemDataByID.lookup i) := by
  cases op with
  | updateSelector id sel => rw [(updateSelector_data evaluateLabels hop).1]; rfl
  | deleteSelector id => rw [(deleteSelector_data hop).1]; rfl
  | updateLabels id labels parentIDs =>
    rw [(updateLabels_data evaluateLabels hop).1]
    by_cases hi : i = id
    · subst hi
      simp [Op.itemData]
    · simp [Op.itemData, hi, AList.lookup_insert_ne hi]
  | deleteLabels id =>
    rw [(deleteLabels_data evaluateLabels hop).1]
    by_cases hi : i = id
    · subst hi
      simp [Op.itemData]
    · simp [Op.itemData, hi, AList.lookup_erase_ne hi]
  | updateParentLabels p labels => rw [(updateParent_data evaluateLabels hop).1]; rfl
  | deleteParentLabels p => rw [(deleteParent_data evaluateLabels hop).1]; rfl
  | updateParentTags p tags => rw [(updateParent_data evaluateLabels hop).1]; rfl
  | deleteParentTags p => rw [(deleteParent_data evaluateLabels hop).1]; rfl

end InheritIndex

end Felix.LabelIndex
