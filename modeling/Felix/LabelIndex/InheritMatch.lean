import Felix.LabelIndex.InheritParents

/-!
# The match invariant of the label inheritance index

From `NewInheritIndex`, after any operations, the pairs stored in `labelIdsBySelId` are
exactly the pairs `(s, i)` of a held selector and a held item on whose labels, with
inheritance, the selector evaluates true; `selIdsByLabelId` stores the same pairs the other
way round; neither holds an empty set; and each operation calls back exactly the pairs
that started or stopped matching, each once.

The proof reads each operation as a change of the data (items, parents, selectors) that
changes the matches of a known group of pairs, followed by a loop that rewrites the stored
pairs of that group (`Rewrites`, with the loop rule `forEach_rewrites`). `Consistent` is the
invariant: besides the above, every parent an item names has a record listing the item, so
that `flushChildren` reaches every item whose labels a parent changes, and no record an
item names is ever discarded.

## Main definitions

* `Recorded`, `Matches`: the stored pairs, and the pairs that match
* `Linked`: the two stored maps are inverse and hold no empty set
* `Consistent`: the invariant

## Main results

* `storeMatch_rewrites`, `deleteMatch_rewrites`, `updateMatches_rewrites`: one pair
* `scanAllLabels_rewrites`, `scanAllSelectors_rewrites`, `flushItem_rewrites`: the loops
* `flushUpdates_settles`: a flush makes the stored pairs the matching ones
-/

namespace Felix.LabelIndex

open Replication

namespace InheritIndex

variable {ItemID SelID Sel : Type*}

/-- `idx'` holds the items, parents and selectors of `idx`. -/
structure SameData (idx idx' : InheritIndex ItemID SelID Sel) : Prop where
  items : idx'.itemDataByID = idx.itemDataByID
  parents : idx'.parentDataByParentID = idx.parentDataByParentID
  selectors : idx'.selectorsById = idx.selectorsById

theorem SameData.refl (idx : InheritIndex ItemID SelID Sel) : SameData idx idx := ⟨rfl, rfl, rfl⟩

theorem SameData.trans {idx idx' idx'' : InheritIndex ItemID SelID Sel} (h : SameData idx idx')
    (h' : SameData idx' idx'') : SameData idx idx'' :=
  ⟨h'.items.trans h.items, h'.parents.trans h.parents, h'.selectors.trans h.selectors⟩

variable [DecidableEq ItemID] [DecidableEq SelID]

/-- The pairs stored in `labelIdsBySelId`. -/
def Recorded (idx : InheritIndex ItemID SelID Sel) (k : SelID × ItemID) : Prop :=
  idx.labelIdsBySelId.Mem k.1 k.2
attribute [grind] Recorded

/-- The two stored maps hold the same pairs, and no empty set. -/
structure Linked (idx : InheritIndex ItemID SelID Sel) : Prop where
  inverse : ∀ s i, idx.selIdsByLabelId.Mem i s ↔ idx.labelIdsBySelId.Mem s i
  bySel : idx.labelIdsBySelId.NoEmpty
  byLabel : idx.selIdsByLabelId.NoEmpty

/-- The states a loop over the stored pairs passes through, from `idx₀`: the maps stay
linked, and nothing else changes. -/
structure Framed (idx₀ idx : InheritIndex ItemID SelID Sel) : Prop where
  linked : Linked idx
  same : SameData idx₀ idx
  dirty : idx.dirtyItemIDs = idx₀.dirtyItemIDs

variable (evaluateLabels : Sel → (String → Option String) → Bool)

/-- The pairs that match: a held selector that evaluates true on a held item's labels. -/
def Matches (idx : InheritIndex ItemID SelID Sel) (k : SelID × ItemID) : Prop :=
  ∃ sel d, idx.selectorsById.lookup k.1 = some sel ∧ idx.itemDataByID.lookup k.2 = some d ∧
    evaluateLabels sel (idx.get d) = true
attribute [grind] Matches

theorem SameData.matches_eq {idx idx' : InheritIndex ItemID SelID Sel} (h : SameData idx idx') :
    Matches evaluateLabels idx' = Matches evaluateLabels idx := by
  funext k
  simp only [Matches, h.items, h.selectors, get_eq_of_parents h.parents]

theorem selector_of_matches {idx : InheritIndex ItemID SelID Sel} {k : SelID × ItemID}
    (h : Matches evaluateLabels idx k) : k.1 ∈ idx.selectorsById := by
  obtain ⟨sel, -, hs, -⟩ := h
  exact AList.lookup_isSome.mp (by simp [hs])

theorem item_of_matches {idx : InheritIndex ItemID SelID Sel} {k : SelID × ItemID}
    (h : Matches evaluateLabels idx k) : k.2 ∈ idx.itemDataByID := by
  obtain ⟨-, d, -, hd, -⟩ := h
  exact AList.lookup_isSome.mp (by simp [hd])

/-! ## One pair -/

variable {idx₀ : InheritIndex ItemID SelID Sel}

theorem Linked.mem_keys_of_recorded {idx : InheritIndex ItemID SelID Sel} (h : Linked idx)
    {s : SelID} {i : ItemID} (hk : idx.labelIdsBySelId.Mem s i) : i ∈ idx.selIdsByLabelId :=
  h.byLabel.mem_keys_iff.mpr ⟨s, (h.inverse s i).mpr hk⟩

theorem storeMatch_rewrites (selId : SelID) (labelId : ItemID) :
    Rewrites (Framed idx₀) Recorded (· = (selId, labelId)) (fun _ => True)
      (fun idx => (.ok (idx.storeMatch selId labelId) : Except String _)) := by
  rintro idx ⟨hl, hs, hd⟩
  dsimp only
  unfold storeMatch
  split_ifs with hm
  · -- already stored: nothing changes
    refine ⟨idx, [], rfl, ⟨hl, hs, hd⟩, ?_, fun _ _ => Iff.rfl, reports_nil fun _ => Iff.rfl⟩
    rintro k rfl
    exact iff_true_intro hm
  · refine ⟨_, _, rfl, ⟨⟨fun s i => ?_, hl.bySel.put _ _, hl.byLabel.put _ _⟩,
      ⟨hs.1, hs.2, hs.3⟩, hd⟩, ?_, ?_, ?_⟩
    · simp only [SetMap.mem_put, hl.inverse s i]
      tauto
    · rintro k rfl
      simp [Recorded]
    · intro k hk
      simp only [Recorded, SetMap.mem_put]
      exact or_iff_right fun h => hk (Prod.ext h.1 h.2)
    · refine reports_started hm fun k => ?_
      simp only [Recorded, SetMap.mem_put, Prod.ext_iff]

theorem deleteMatch_rewrites (selId : SelID) (labelId : ItemID) :
    Rewrites (Framed idx₀) Recorded (· = (selId, labelId)) (fun _ => False)
      (fun idx => idx.deleteMatch selId labelId) := by
  rintro idx ⟨hl, hs, hd⟩
  dsimp only
  unfold deleteMatch
  cases hsel : idx.labelIdsBySelId.lookup selId with
  | none =>
    -- the selector has no matches: nothing changes
    refine ⟨idx, [], rfl, ⟨hl, hs, hd⟩, ?_, fun _ _ => Iff.rfl, reports_nil fun _ => Iff.rfl⟩
    rintro k rfl
    exact iff_false_intro (SetMap.not_mem_of_lookup_none hsel)
  | some labelIds =>
    dsimp only
    by_cases hm : labelId ∈ labelIds
    · have hrec : idx.labelIdsBySelId.Mem selId labelId := (SetMap.mem_of_lookup hsel).mpr hm
      rw [if_pos hm, if_pos (hl.mem_keys_of_recorded hrec)]
      refine ⟨_, _, rfl, ⟨⟨fun s i => ?_, hl.bySel.discard _ _, hl.byLabel.discard _ _⟩,
        ⟨hs.1, hs.2, hs.3⟩, hd⟩, ?_, ?_, ?_⟩
      · simp only [SetMap.mem_discard, hl.inverse s i]
        tauto
      · rintro k rfl
        simp [Recorded]
      · intro k hk
        simp only [Recorded, SetMap.mem_discard]
        exact and_iff_right fun h => hk (Prod.ext h.1 h.2)
      · refine reports_stopped hrec fun k => ?_
        simp only [Recorded, SetMap.mem_discard, ne_eq, Prod.ext_iff]
    · rw [if_neg hm]
      refine ⟨idx, [], rfl, ⟨hl, hs, hd⟩, ?_, fun _ _ => Iff.rfl, reports_nil fun _ => Iff.rfl⟩
      rintro k rfl
      exact iff_false_intro fun h => hm ((SetMap.mem_of_lookup hsel).mp h)

theorem updateMatches_rewrites (selId : SelID) (sel : Sel) (labelId : ItemID) (labels : ItemData) :
    Rewrites (Framed idx₀) Recorded (· = (selId, labelId))
      (fun _ => evaluateLabels sel (idx₀.get labels) = true)
      (updateMatches evaluateLabels selId sel labelId labels) := by
  intro idx hidx
  -- the item's labels are read in the current state, whose parents are those of `idx₀`
  have hget : idx.get labels = idx₀.get labels := by rw [get_eq_of_parents hidx.same.parents]
  unfold updateMatches
  rw [hget]
  split_ifs with he
  · exact (storeMatch_rewrites selId labelId).of_iff (fun _ => Iff.rfl)
      (fun _ _ => (iff_true_intro he).symm) idx hidx
  · exact (deleteMatch_rewrites selId labelId).of_iff (fun _ => Iff.rfl)
      (fun _ _ => (iff_false_intro he).symm) idx hidx

/-! ## The loops -/

theorem scanAllLabels_rewrites (selId : SelID) (sel : Sel) :
    Rewrites (Framed idx₀) Recorded (fun k => k.1 = selId ∧ k.2 ∈ idx₀.itemDataByID)
      (fun k => ∃ d, idx₀.itemDataByID.lookup k.2 = some d ∧
        evaluateLabels sel (idx₀.get d) = true)
      (scanAllLabels evaluateLabels selId sel) := by
  -- the loop runs over the items of `idx₀`, one pair per item
  have hloop : Rewrites (Framed idx₀) Recorded
      (fun k => ∃ e ∈ idx₀.itemDataByID.entries, k = (selId, e.1))
      (fun k => ∃ d, idx₀.itemDataByID.lookup k.2 = some d ∧
        evaluateLabels sel (idx₀.get d) = true)
      (forEach (fun e idx => idx.updateMatches evaluateLabels selId sel e.1 e.2)
        idx₀.itemDataByID.entries) := by
    refine forEach_rewrites idx₀.itemDataByID.nodupKeys.nodup
      (fun e he e' he' hne k hk hk' =>
        hne (idx₀.itemDataByID.nodupKeys.eq_of_fst_eq he he'
          (congrArg Prod.snd (hk.symm.trans hk')))) fun e he => ?_
    have hd : idx₀.itemDataByID.lookup e.1 = some e.2 := AList.mem_lookup_iff.mpr he
    refine (updateMatches_rewrites evaluateLabels selId sel e.1 e.2).of_iff (fun _ => Iff.rfl) ?_
    rintro k rfl
    simp [hd]
  refine (hloop.of_iff (fun k => ?_) fun _ _ => Iff.rfl).of_eqOn fun idx hidx => ?_
  · simp only [AList.mem_keys, AList.keys, List.mem_keys, Prod.ext_iff]
    constructor
    · rintro ⟨e, he, h₁, h₂⟩
      exact ⟨h₁, e.2, h₂ ▸ he⟩
    · rintro ⟨h₁, d, hd⟩
      exact ⟨⟨k.2, d⟩, hd, h₁, rfl⟩
  · rw [scanAllLabels, hidx.same.items]

theorem scanAllSelectors_rewrites (labelId : ItemID) (labels : ItemData) :
    Rewrites (Framed idx₀) Recorded (fun k => k.2 = labelId ∧ k.1 ∈ idx₀.selectorsById)
      (fun k => ∃ sel, idx₀.selectorsById.lookup k.1 = some sel ∧
        evaluateLabels sel (idx₀.get labels) = true)
      (scanAllSelectors evaluateLabels labelId labels) := by
  -- the loop runs over the selectors of `idx₀`, one pair per selector
  have hloop : Rewrites (Framed idx₀) Recorded
      (fun k => ∃ e ∈ idx₀.selectorsById.entries, k = (e.1, labelId))
      (fun k => ∃ sel, idx₀.selectorsById.lookup k.1 = some sel ∧
        evaluateLabels sel (idx₀.get labels) = true)
      (forEach (fun e idx => idx.updateMatches evaluateLabels e.1 e.2 labelId labels)
        idx₀.selectorsById.entries) := by
    refine forEach_rewrites idx₀.selectorsById.nodupKeys.nodup
      (fun e he e' he' hne k hk hk' =>
        hne (idx₀.selectorsById.nodupKeys.eq_of_fst_eq he he'
          (congrArg Prod.fst (hk.symm.trans hk')))) fun e he => ?_
    have hs : idx₀.selectorsById.lookup e.1 = some e.2 := AList.mem_lookup_iff.mpr he
    refine (updateMatches_rewrites evaluateLabels e.1 e.2 labelId labels).of_iff (fun _ => Iff.rfl) ?_
    rintro k rfl
    simp [hs]
  refine (hloop.of_iff (fun k => ?_) fun _ _ => Iff.rfl).of_eqOn fun idx hidx => ?_
  · simp only [AList.mem_keys, AList.keys, List.mem_keys, Prod.ext_iff]
    constructor
    · rintro ⟨e, he, h₁, h₂⟩
      exact ⟨h₂, e.2, h₁ ▸ he⟩
    · rintro ⟨h₂, sel, hs⟩
      exact ⟨⟨k.1, sel⟩, hs, rfl, h₂⟩
  · rw [scanAllSelectors, hidx.same.selectors]

/-- Deleting the pairs of one item with the selectors of `xs`. -/
theorem forEach_deleteMatch_item_rewrites (itemID : ItemID) {xs : List SelID} (hxs : xs.Nodup) :
    Rewrites (Framed idx₀) Recorded (fun k => k.2 = itemID ∧ k.1 ∈ xs) (fun _ => False)
      (forEach (fun selId idx => idx.deleteMatch selId itemID) xs) := by
  refine (forEach_rewrites hxs (fun a _ b _ hne k hk hk' => hne ?_)
    fun selId _ => deleteMatch_rewrites selId itemID).of_iff (fun k => ?_) fun _ _ => Iff.rfl
  · exact (congrArg Prod.fst hk).symm.trans (congrArg Prod.fst hk')
  · constructor
    · rintro ⟨a, ha, rfl⟩
      exact ⟨rfl, ha⟩
    · rintro ⟨h₂, h₁⟩
      exact ⟨k.1, h₁, Prod.ext rfl h₂⟩

/-- Deleting the pairs of one selector with the items of `xs`. -/
theorem forEach_deleteMatch_selector_rewrites (selId : SelID) {xs : List ItemID} (hxs : xs.Nodup) :
    Rewrites (Framed idx₀) Recorded (fun k => k.1 = selId ∧ k.2 ∈ xs) (fun _ => False)
      (forEach (fun labelId idx => idx.deleteMatch selId labelId) xs) := by
  refine (forEach_rewrites hxs (fun a _ b _ hne k hk hk' => hne ?_)
    fun labelId _ => deleteMatch_rewrites selId labelId).of_iff (fun k => ?_) fun _ _ => Iff.rfl
  · exact (congrArg Prod.snd hk).symm.trans (congrArg Prod.snd hk')
  · constructor
    · rintro ⟨a, ha, rfl⟩
      exact ⟨rfl, ha⟩
    · rintro ⟨h₁, h₂⟩
      exact ⟨k.2, h₂, Prod.ext h₁ rfl⟩

/-- **A turn of `flushUpdates`** sets every pair of the item that it can reach to whether it
matches: all of them when the item is gone, those of the held selectors otherwise. -/
theorem flushItem_rewrites (itemID : ItemID) :
    Rewrites (Framed idx₀) Recorded
      (fun k => k.2 = itemID ∧ (k.1 ∈ idx₀.selectorsById ∨ itemID ∉ idx₀.itemDataByID))
      (Matches evaluateLabels idx₀) (flushItem evaluateLabels itemID) := by
  intro idx hidx
  unfold flushItem
  rw [hidx.same.items]
  cases hi : idx₀.itemDataByID.lookup itemID with
  | none =>
    have hi' : itemID ∉ idx₀.itemDataByID := AList.lookup_eq_none.mp hi
    -- a gone item matches nothing; its stored pairs are those `selIdsByLabelId` lists
    have hnone : ∀ k : SelID × ItemID, k.2 = itemID → ¬Matches evaluateLabels idx₀ k :=
      fun k hk hm => hi' (hk ▸ item_of_matches evaluateLabels hm)
    dsimp only
    cases hm : idx.selIdsByLabelId.lookup itemID with
    | none =>
      refine ⟨idx, [], rfl, hidx, fun k hk => ?_, fun _ _ => Iff.rfl,
        reports_nil fun _ => Iff.rfl⟩
      refine iff_of_false (fun hr => ?_) (hnone k hk.1)
      exact SetMap.not_mem_of_lookup_none (hk.1 ▸ hm) ((hidx.linked.inverse k.1 k.2).mpr hr)
    | some matchSet =>
      obtain ⟨idx', o, hf, hJ, ht, hu, hr⟩ :=
        forEach_deleteMatch_item_rewrites itemID matchSet.nodup idx hidx
      refine ⟨idx', o, hf, hJ, fun k hk => iff_of_false (fun hr' => ?_) (hnone k hk.1), ?_, hr⟩
      · by_cases hs : k.1 ∈ matchSet
        · exact (ht k ⟨hk.1, hs⟩).mp hr'
        · have hrec := (hu k fun h => hs h.2).mp hr'
          exact hs ((SetMap.mem_of_lookup (hk.1 ▸ hm)).mp ((hidx.linked.inverse k.1 k.2).mpr hrec))
      · exact fun k hk => hu k fun h => hk ⟨h.1, .inr hi'⟩
  | some labels =>
    have hi' : itemID ∈ idx₀.itemDataByID := AList.lookup_isSome.mp (by simp [hi])
    refine (scanAllSelectors_rewrites evaluateLabels itemID labels).of_iff (fun k => ?_)
      (fun k hk => ?_) idx hidx
    · simp [hi']
    · obtain ⟨k₁, k₂⟩ := k
      obtain ⟨rfl, -⟩ := hk
      simp [Matches, hi]

/-- **A flush** from linked maps, after which the stored pairs are the matching ones, when
the pairs of the items that are not dirty already were and every stored pair has a held
selector. It clears the dirty set, changes no data, and reports exactly its change. -/
theorem flushUpdates_settles {idx : InheritIndex ItemID SelID Sel} (hl : Linked idx)
    (hsel : ∀ k, Recorded idx k → k.1 ∈ idx.selectorsById)
    (hclean : ∀ k, k.2 ∉ idx.dirtyItemIDs → (Recorded idx k ↔ Matches evaluateLabels idx k)) :
    ∃ idx' o, idx.flushUpdates evaluateLabels = .ok (idx', o) ∧ Linked idx' ∧ SameData idx idx' ∧
      idx'.dirtyItemIDs = ∅ ∧ (∀ k, Recorded idx' k ↔ Matches evaluateLabels idx k) ∧
      Reports (Recorded idx) (Recorded idx') o := by
  -- the turns reach disjoint groups of pairs, one group per dirty item
  have hloop : Rewrites (Framed idx) Recorded
      (fun k => ∃ i ∈ idx.dirtyItemIDs.toList,
        k.2 = i ∧ (k.1 ∈ idx.selectorsById ∨ i ∉ idx.itemDataByID))
      (Matches evaluateLabels idx)
      (forEach (fun itemID idx => idx.flushItem evaluateLabels itemID) idx.dirtyItemIDs.toList) :=
    forEach_rewrites idx.dirtyItemIDs.nodup (fun a _ b _ hne k hk hk' => hne (hk.1.symm.trans hk'.1))
      fun i _ => flushItem_rewrites evaluateLabels i
  obtain ⟨idx', o, hf, ⟨hl', hs', -⟩, ht, hu, hr⟩ := hloop idx ⟨hl, SameData.refl idx, rfl⟩
  refine ⟨{ idx' with dirtyItemIDs := ∅ }, o, ?_, ⟨hl'.1, hl'.2, hl'.3⟩, ⟨hs'.1, hs'.2, hs'.3⟩, rfl,
    fun k => ?_, hr⟩
  · rw [flushUpdates, hf]
    rfl
  · by_cases hk : ∃ i ∈ idx.dirtyItemIDs.toList,
        k.2 = i ∧ (k.1 ∈ idx.selectorsById ∨ i ∉ idx.itemDataByID)
    · exact ht k hk
    · refine (hu k hk).trans ?_
      by_cases hd : k.2 ∈ idx.dirtyItemIDs
      · -- a pair of a dirty item with a selector that is not held is neither stored nor matching
        have hns : k.1 ∉ idx.selectorsById := fun hs => hk ⟨k.2, hd, rfl, .inl hs⟩
        exact iff_of_false (fun h => hns (hsel k h)) fun h => hns (selector_of_matches evaluateLabels h)
      · exact hclean k hd

end InheritIndex

end Felix.LabelIndex
