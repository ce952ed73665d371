import Felix.LabelIndex.InheritMatch

/-!
# Every operation keeps the label inheritance index consistent

`Consistent` is the invariant of the index: the two stored maps are inverse and hold no
empty set, the stored pairs are the matching ones, every parent an item names has a record
that lists the item, and no item is dirty. `NewInheritIndex` is consistent, and every
operation that does not panic keeps it so and calls back exactly the pairs that started or
stopped matching. The operations on items and parents change the data and then flush
(`Consistent.flush`); those on selectors rewrite the selector's pairs directly.

## Main results

* `Consistent.apply`: one operation
* `inheritIndex_match_invariant`: every run from `NewInheritIndex`
-/

namespace Felix.LabelIndex

open Replication

namespace InheritIndex

variable {ItemID SelID Sel : Type*} [DecidableEq ItemID] [DecidableEq SelID]
  (evaluateLabels : Sel → (String → Option String) → Bool)

/-- The invariant of the index. -/
structure Consistent (idx : InheritIndex ItemID SelID Sel) : Prop where
  linked : Linked idx
  recorded_iff : ∀ k, Recorded idx k ↔ Matches evaluateLabels idx k
  tracked : ∀ i d p, idx.itemDataByID.lookup i = some d → p ∈ d.parents → Tracks idx i p
  dirty_eq : idx.dirtyItemIDs = ∅

theorem consistent_new : Consistent evaluateLabels (new : InheritIndex ItemID SelID Sel) where
  linked := ⟨fun _ _ => by simp [new, SetMap.Mem], fun _ _ h => by simp [new] at h,
    fun _ _ h => by simp [new] at h⟩
  recorded_iff _ := by simp [new, Recorded, Matches, SetMap.Mem]
  tracked _ _ _ h := by simp [new] at h
  dirty_eq := rfl

/-- `flushChildren` is a flush with the parent's listed items added to the dirty ones. -/
theorem flushChildren_eq (p : String) (idx : InheritIndex ItemID SelID Sel) :
    ∃ D : IterSet ItemID, (∀ i, i ∈ D ↔ i ∈ idx.dirtyItemIDs ∨ Tracks idx i p) ∧
      idx.flushChildren evaluateLabels p =
        flushUpdates evaluateLabels { idx with dirtyItemIDs := D } := by
  unfold flushChildren Tracks
  split
  · rename_i l t itemIDs hp
    refine ⟨_, fun i => ?_, rfl⟩
    simp [IterSet.mem_foldl_add, hp, or_comm]
  · rename_i hp
    refine ⟨idx.dirtyItemIDs, fun i => ?_, rfl⟩
    -- a parent with no record, or with no listing, tracks nothing
    refine (or_iff_left ?_).symm
    rintro ⟨⟨l, t, s⟩, itemIDs, hx, hs, -⟩
    cases hs
    exact hp l t itemIDs hx

variable {evaluateLabels} {idx idx₁ idx' : InheritIndex ItemID SelID Sel}
  {o : List (MatchCallback SelID ItemID)}

/-- Two indexes agree on whether `k` matches when they hold the same selector and item, and
read the item's labels alike. -/
theorem matches_congr {k : SelID × ItemID}
    (hs : idx'.selectorsById.lookup k.1 = idx.selectorsById.lookup k.1)
    (hi : idx'.itemDataByID.lookup k.2 = idx.itemDataByID.lookup k.2)
    (hg : ∀ d, idx.itemDataByID.lookup k.2 = some d → idx'.get d = idx.get d) :
    Matches evaluateLabels idx' k ↔ Matches evaluateLabels idx k := by
  simp only [Matches, hs, hi]
  constructor
  · rintro ⟨sel, d, hsel, hd, he⟩
    exact ⟨sel, d, hsel, hd, hg d hd ▸ he⟩
  · rintro ⟨sel, d, hsel, hd, he⟩
    exact ⟨sel, d, hsel, hd, (hg d hd).symm ▸ he⟩

/-- Whether `k` matches, for a selector that is held. -/
theorem matches_of_lookup {k : SelID × ItemID} {sel : Sel}
    (hs : idx.selectorsById.lookup k.1 = some sel) :
    Matches evaluateLabels idx k ↔
      ∃ d, idx.itemDataByID.lookup k.2 = some d ∧ evaluateLabels sel (idx.get d) = true := by
  simp [Matches, hs]

/-- **A change of data, then a flush.** If `idx₁` holds the stored pairs and the selectors
of a consistent `idx`, every pair whose matching may have changed belongs to a dirty item,
and every parent an item names has a record that lists it, then the flush leaves a
consistent index and reports exactly the change of the matches. -/
theorem Consistent.flush (h : Consistent evaluateLabels idx)
    (hflush : idx₁.flushUpdates evaluateLabels = .ok (idx', o))
    (hbySel : idx₁.labelIdsBySelId = idx.labelIdsBySelId)
    (hbyLabel : idx₁.selIdsByLabelId = idx.selIdsByLabelId)
    (hsel : idx₁.selectorsById = idx.selectorsById)
    (hdirty : ∀ k, k.2 ∉ idx₁.dirtyItemIDs →
      (Matches evaluateLabels idx₁ k ↔ Matches evaluateLabels idx k))
    (htracked : ∀ i d p, idx₁.itemDataByID.lookup i = some d → p ∈ d.parents → Tracks idx₁ i p) :
    Consistent evaluateLabels idx' ∧
      Reports (Matches evaluateLabels idx) (Matches evaluateLabels idx') o := by
  have hrec : ∀ k, Recorded idx₁ k ↔ Recorded idx k := fun k => by
    simp only [Recorded, hbySel]
  have hl₁ : Linked idx₁ := by
    refine ⟨fun s i => ?_, ?_, ?_⟩
    · rw [hbySel, hbyLabel]
      exact h.linked.inverse s i
    · rw [hbySel]
      exact h.linked.bySel
    · rw [hbyLabel]
      exact h.linked.byLabel
  obtain ⟨idx'', o', hf, hl', hs', hd', hr', hrep⟩ := flushUpdates_settles evaluateLabels hl₁
    (fun k hk => hsel ▸ selector_of_matches evaluateLabels ((h.recorded_iff k).mp ((hrec k).mp hk)))
    (fun k hk => (hrec k).trans ((h.recorded_iff k).trans (hdirty k hk).symm))
  rw [hflush] at hf
  obtain ⟨rfl, rfl⟩ := Prod.mk.inj (Except.ok.inj hf)
  -- the flush changes no data, so the matches after it are those before it
  have hm : ∀ k, Recorded idx' k ↔ Matches evaluateLabels idx' k := fun k => by
    rw [hr' k, hs'.matches_eq evaluateLabels]
  refine ⟨⟨hl', hm, fun i d p hi hp => ?_, hd'⟩, ?_⟩
  · have ht := htracked i d p (hs'.items ▸ hi) hp
    unfold Tracks at ht ⊢
    rwa [hs'.parents]
  · exact hrep.congr (fun k => (hrec k).trans (h.recorded_iff k)) hm

/-! ## Selectors -/

variable {UID : Type*} [DecidableEq UID] {uniqueID : Sel → UID}

theorem Consistent.updateSelector (h : Consistent evaluateLabels idx) {id : SelID} {sel : Sel}
    (hop : idx.updateSelector evaluateLabels uniqueID id sel = .ok (idx', o)) :
    Consistent evaluateLabels idx' ∧
      Reports (Matches evaluateLabels idx) (Matches evaluateLabels idx') o := by
  unfold InheritIndex.updateSelector at hop
  split_ifs at hop
  · -- the held selector has the same unique ID: nothing changes
    obtain ⟨rfl, rfl⟩ := Prod.mk.inj (Except.ok.inj hop)
    exact ⟨h, reports_nil fun _ => Iff.rfl⟩
  obtain ⟨⟨idx₁, o₁⟩, hscan, hrest⟩ := bind_eq_ok hop
  obtain ⟨rfl, rfl⟩ := Prod.mk.inj (Except.ok.inj hrest)
  obtain ⟨idx₂, o₂, hf, ⟨hl, hs, hd⟩, ht, hu, hr⟩ :=
    scanAllLabels_rewrites evaluateLabels id sel idx ⟨h.linked, SameData.refl idx, rfl⟩
  rw [hscan] at hf
  obtain ⟨rfl, rfl⟩ := Prod.mk.inj (Except.ok.inj hf)
  have hget : ({ idx₁ with selectorsById := idx₁.selectorsById.insert id sel }).get = idx.get :=
    get_eq_of_parents hs.parents
  -- the selector's pairs are rescanned; every other pair keeps its stored and matching state
  have hm : ∀ k, Recorded idx₁ k ↔
      Matches evaluateLabels { idx₁ with selectorsById := idx₁.selectorsById.insert id sel } k := by
    rintro ⟨s, i⟩
    by_cases hsid : s = id
    · subst hsid
      by_cases hi : i ∈ idx.itemDataByID
      · rw [ht (s, i) ⟨rfl, hi⟩, matches_of_lookup (AList.lookup_insert _), hget]
        simp [hs.items]
      · rw [hu (s, i) fun hk => hi hk.2, h.recorded_iff]
        refine iff_of_false (fun hm => hi (item_of_matches evaluateLabels hm)) ?_
        rintro ⟨-, d, -, hd, -⟩
        exact hi (AList.lookup_isSome.mp (by simp [← hs.items, hd]))
    · rw [hu (s, i) fun hk => hsid hk.1, h.recorded_iff]
      refine (matches_congr ?_ ?_ fun d _ => congrFun hget d).symm
      · simp [AList.lookup_insert_ne hsid, hs.selectors]
      · simp [hs.items]
  refine ⟨⟨⟨hl.1, hl.2, hl.3⟩, hm, fun i d p hi hp => ?_, hd.trans h.dirty_eq⟩,
    hr.congr h.recorded_iff hm⟩
  have htr := h.tracked i d p (hs.items ▸ hi) hp
  unfold Tracks at htr ⊢
  rwa [hs.parents]

theorem Consistent.deleteSelector (h : Consistent evaluateLabels idx) {id : SelID}
    (hop : idx.deleteSelector id = .ok (idx', o)) :
    Consistent evaluateLabels idx' ∧
      Reports (Matches evaluateLabels idx) (Matches evaluateLabels idx') o := by
  unfold InheritIndex.deleteSelector at hop
  obtain ⟨⟨idx₁, o₁⟩, hloop, hrest⟩ := bind_eq_ok hop
  obtain ⟨rfl, rfl⟩ := Prod.mk.inj (Except.ok.inj hrest)
  obtain ⟨idx₂, o₂, hf, ⟨hl, hs, hd⟩, ht, hu, hr⟩ := forEach_deleteMatch_selector_rewrites id
    ((idx.labelIdsBySelId.lookup id).getD ∅).nodup idx ⟨h.linked, SameData.refl idx, rfl⟩
  rw [hloop] at hf
  obtain ⟨rfl, rfl⟩ := Prod.mk.inj (Except.ok.inj hf)
  -- the loop drops exactly the selector's stored pairs: those are the ones it visits
  have hrec : ∀ k, Recorded idx₁ k ↔ k.1 ≠ id ∧ Recorded idx k := by
    intro k
    by_cases hk : k.1 = id
    · by_cases hi : k.2 ∈ (idx.labelIdsBySelId.lookup id).getD ∅
      · exact iff_of_false ((ht k ⟨hk, hi⟩).mp) fun h' => h'.1 hk
      · rw [hu k fun h' => hi h'.2]
        exact iff_of_false (fun hr' => hi (hk ▸ hr')) fun h' => h'.1 hk
    · rw [hu k fun h' => hk h'.1]
      exact ⟨fun hr' => ⟨hk, hr'⟩, fun h' => h'.2⟩
  have hget : ({ idx₁ with selectorsById := idx₁.selectorsById.erase id }).get = idx.get :=
    get_eq_of_parents hs.parents
  have hm : ∀ k, Recorded idx₁ k ↔
      Matches evaluateLabels { idx₁ with selectorsById := idx₁.selectorsById.erase id } k := by
    rintro ⟨s, i⟩
    rw [hrec, h.recorded_iff]
    by_cases hsid : s = id
    · subst hsid
      refine iff_of_false (fun h' => h'.1 rfl) ?_
      rintro ⟨sel, -, hsel, -⟩
      simp [AList.lookup_erase] at hsel
    · rw [and_iff_right hsid]
      refine (matches_congr ?_ ?_ fun d _ => congrFun hget d).symm
      · simp [AList.lookup_erase_ne hsid, hs.selectors]
      · simp [hs.items]
  refine ⟨⟨⟨hl.1, hl.2, hl.3⟩, hm, fun i d p hi hp => ?_, hd.trans h.dirty_eq⟩,
    hr.congr h.recorded_iff hm⟩
  have htr := h.tracked i d p (hs.items ▸ hi) hp
  unfold Tracks at htr ⊢
  rwa [hs.parents]

/-- A change to the record of `p` alone leaves the matches of every item that the record does
not list. -/
theorem Consistent.matches_of_not_tracks (h : Consistent evaluateLabels idx) {p : String}
    (hpo : ParentsOnly idx idx₁) (hl : ∀ q, q ≠ p → idx₁.parentLabel q = idx.parentLabel q)
    {k : SelID × ItemID} (hk : ¬Tracks idx k.2 p) :
    Matches evaluateLabels idx₁ k ↔ Matches evaluateLabels idx k := by
  refine matches_congr (by rw [hpo.selectors]) (by rw [hpo.items]) fun d hd => get_congr ?_
  -- the item does not name `p`, or its listing would be there
  intro q hq
  exact hl q fun e => hk (h.tracked k.2 d p hd (e ▸ hq))

/-! ## Items -/

theorem Consistent.updateLabels (h : Consistent evaluateLabels idx) {id : ItemID}
    {labels : Labels} {parentIDs : List String}
    (hop : idx.updateLabels evaluateLabels id labels parentIDs = .ok (idx', o)) :
    Consistent evaluateLabels idx' ∧
      Reports (Matches evaluateLabels idx) (Matches evaluateLabels idx') o := by
  unfold InheritIndex.updateLabels at hop
  obtain ⟨idx₂, hpar, hflush⟩ := bind_eq_ok hop
  obtain ⟨hgp, hgl, hgt, hgs⟩ := getOrCreateParents_spec parentIDs idx
  obtain ⟨hpp, hpl, hpt, hpn⟩ := onItemParentsUpdate_spec hpar
  refine h.flush hflush (hpp.bySel.trans hgp.bySel) (hpp.byLabel.trans hgp.byLabel)
    (hpp.selectors.trans hgp.selectors) (fun k hk => ?_) (fun i d p hi hp => ?_)
  · -- only the item itself is dirty, and every other item reads the same labels
    have hki : k.2 ≠ id := fun e => hk (IterSet.mem_add.mpr (.inl e))
    refine matches_congr (by rw [hpp.selectors, hgp.selectors]) ?_
      fun d _ => congrFun (get_eq_of_parentFields (hpl.trans hgl)) d
    show idx₂.itemDataByID.lookup k.2 = _
    rw [hpp.items]
    dsimp only
    rw [AList.lookup_insert_ne hki, hgp.items]
  · have hi₂ : idx₂.itemDataByID.lookup i = some d := hi
    rw [hpp.items] at hi₂
    dsimp only at hi₂
    by_cases hid : i = id
    · subst hid
      rw [AList.lookup_insert] at hi₂
      cases hi₂
      exact hpn p hp (hgs p (.inl hp))
    · rw [AList.lookup_insert_ne hid, hgp.items] at hi₂
      exact hpt i p hid (hgt i p (h.tracked i d p hi₂ hp))

theorem Consistent.deleteLabels (h : Consistent evaluateLabels idx) {id : ItemID}
    (hop : idx.deleteLabels evaluateLabels id = .ok (idx', o)) :
    Consistent evaluateLabels idx' ∧
      Reports (Matches evaluateLabels idx) (Matches evaluateLabels idx') o := by
  unfold InheritIndex.deleteLabels at hop
  obtain ⟨idx₂, hpar, hflush⟩ := bind_eq_ok hop
  obtain ⟨hpp, hpl, hpt, -⟩ := onItemParentsUpdate_spec hpar
  refine h.flush hflush hpp.bySel hpp.byLabel hpp.selectors (fun k hk => ?_) (fun i d p hi hp => ?_)
  · have hki : k.2 ≠ id := fun e => hk (IterSet.mem_add.mpr (.inl e))
    refine matches_congr (by rw [hpp.selectors]) ?_
      fun d _ => congrFun (get_eq_of_parentFields hpl) d
    show idx₂.itemDataByID.lookup k.2 = _
    rw [hpp.items]
    exact AList.lookup_erase_ne hki
  · -- the item itself is gone; every other item stays listed
    have hi₂ : idx₂.itemDataByID.lookup i = some d := hi
    rw [hpp.items] at hi₂
    dsimp only at hi₂
    have hid : i ≠ id := by
      rintro rfl
      simp [AList.lookup_erase] at hi₂
    rw [AList.lookup_erase_ne hid] at hi₂
    exact hpt i p hid (h.tracked i d p hi₂ hp)

/-! ## Parents -/

section Parents

variable {f : ParentData ItemID → ParentData ItemID}

theorem Consistent.updateParent (h : Consistent evaluateLabels idx) {p : String}
    (hop : updateParent evaluateLabels f p idx = .ok (idx', o))
    (hf : ∀ x, (f x).itemIDs = x.itemIDs) :
    Consistent evaluateLabels idx' ∧
      Reports (Matches evaluateLabels idx) (Matches evaluateLabels idx') o := by
  unfold InheritIndex.updateParent at hop
  obtain ⟨D, hD, heq⟩ := flushChildren_eq evaluateLabels p ((idx.getOrCreateParent p).modifyParent p f)
  rw [heq] at hop
  -- a listing of `idx` survives the creation of the record and the write to it
  have htr : ∀ i q, Tracks idx i q → Tracks ((idx.getOrCreateParent p).modifyParent p f) i q :=
    fun i q ht => (tracks_modifyParent hf i q).mpr (tracks_getOrCreateParent ht p)
  have hpo : ParentsOnly idx ((idx.getOrCreateParent p).modifyParent p f) :=
    (getOrCreateParent_parentsOnly p).trans (modifyParent_parentsOnly f)
  refine h.flush hop hpo.bySel hpo.byLabel hpo.selectors (fun k hk => ?_) (fun i d q hi hq => ?_)
  · refine h.matches_of_not_tracks hpo (fun q hq => ?_) fun ht => hk ((hD k.2).mpr (.inr (htr _ _ ht)))
    rw [parentLabel_modifyParent_ne f hq, parentLabel_getOrCreateParent]
  · exact htr i q (h.tracked i d q (hpo.items ▸ hi) hq)

theorem Consistent.deleteParent (h : Consistent evaluateLabels idx) {p : String}
    (hop : deleteParent evaluateLabels f p idx = .ok (idx', o))
    (hf : ∀ x, (f x).itemIDs = x.itemIDs) :
    Consistent evaluateLabels idx' ∧
      Reports (Matches evaluateLabels idx) (Matches evaluateLabels idx') o := by
  unfold InheritIndex.deleteParent at hop
  split at hop
  · -- an unknown parent: nothing changes
    obtain ⟨rfl, rfl⟩ := Prod.mk.inj (Except.ok.inj hop)
    exact ⟨h, reports_nil fun _ => Iff.rfl⟩
  obtain ⟨D, hD, heq⟩ :=
    flushChildren_eq evaluateLabels p ((idx.modifyParent p f).discardParentIfEmpty p)
  rw [heq] at hop
  -- a listing of `idx` survives the write, and keeps the record from being discarded
  have htr : ∀ i q, Tracks idx i q → Tracks ((idx.modifyParent p f).discardParentIfEmpty p) i q :=
    fun i q ht => tracks_discardParentIfEmpty ((tracks_modifyParent hf i q).mpr ht) p
  have hpo : ParentsOnly idx ((idx.modifyParent p f).discardParentIfEmpty p) :=
    (modifyParent_parentsOnly f).trans (discardParentIfEmpty_parentsOnly p)
  refine h.flush hop hpo.bySel hpo.byLabel hpo.selectors (fun k hk => ?_) (fun i d q hi hq => ?_)
  · refine h.matches_of_not_tracks hpo (fun q hq => ?_) fun ht => hk ((hD k.2).mpr (.inr (htr _ _ ht)))
    rw [parentLabel_discardParentIfEmpty, parentLabel_modifyParent_ne f hq]
  · exact htr i q (h.tracked i d q (hpo.items ▸ hi) hq)

end Parents

/-! ## Runs -/

/-- **One operation** that does not panic keeps the index consistent, and calls back exactly
the pairs that started or stopped matching. -/
theorem Consistent.apply (h : Consistent evaluateLabels idx) {op : Op ItemID SelID Sel}
    (hop : idx.apply evaluateLabels uniqueID op = .ok (idx', o)) :
    Consistent evaluateLabels idx' ∧
      Reports (Matches evaluateLabels idx) (Matches evaluateLabels idx') o := by
  cases op with
  | updateSelector id sel => exact h.updateSelector hop
  | deleteSelector id => exact h.deleteSelector hop
  | updateLabels id labels parentIDs => exact h.updateLabels hop
  | deleteLabels id => exact h.deleteLabels hop
  | updateParentLabels p labels => exact h.updateParent hop fun _ => rfl
  | deleteParentLabels p => exact h.deleteParent hop fun _ => rfl
  | updateParentTags p tags => exact h.updateParent hop fun _ => rfl
  | deleteParentTags p => exact h.deleteParent hop fun _ => rfl

/-- **A run**: every operation keeps the index consistent. -/
theorem Consistent.runFrom (h : Consistent evaluateLabels idx) (ops : List (Op ItemID SelID Sel))
    (hrun : runFrom evaluateLabels uniqueID ops idx = .ok (idx', o)) :
    Consistent evaluateLabels idx' := by
  induction ops generalizing idx idx' o with
  | nil =>
    obtain ⟨rfl, -⟩ := Prod.mk.inj (Except.ok.inj hrun)
    exact h
  | cons op ops ih =>
    obtain ⟨idx₁, o₁, idx₂, o₂, h₁, h₂, hr⟩ := forEach_cons_eq_ok hrun
    obtain ⟨rfl, -⟩ := Prod.mk.inj hr
    exact ih (h.apply h₁).1 h₂

end InheritIndex

/-- **The match invariant of `InheritIndex`.** After any operations from `NewInheritIndex`,
the pairs stored in `labelIdsBySelId` are exactly those of a held selector that evaluates
true on a held item's labels (its own, then each parent's labels and tags in order);
`selIdsByLabelId` stores the same pairs the other way round; neither map holds an empty
set; and every further operation that does not panic calls back each pair that starts
matching once as started, each that stops once as stopped, and nothing else. -/
theorem inheritIndex_match_invariant {ItemID SelID Sel UID : Type*} [DecidableEq ItemID]
    [DecidableEq SelID] [DecidableEq UID] (evaluateLabels : Sel → (String → Option String) → Bool)
    (uniqueID : Sel → UID) (ops : List (Op ItemID SelID Sel)) {idx : InheritIndex ItemID SelID Sel}
    {o : List (MatchCallback SelID ItemID)}
    (hrun : InheritIndex.runFrom evaluateLabels uniqueID ops .new = .ok (idx, o)) :
    (∀ s i, idx.labelIdsBySelId.Mem s i ↔ InheritIndex.Matches evaluateLabels idx (s, i)) ∧
      (∀ s i, idx.selIdsByLabelId.Mem i s ↔ idx.labelIdsBySelId.Mem s i) ∧
      idx.labelIdsBySelId.NoEmpty ∧ idx.selIdsByLabelId.NoEmpty ∧
      ∀ op idx' o', idx.apply evaluateLabels uniqueID op = .ok (idx', o') →
        Reports (InheritIndex.Matches evaluateLabels idx) (InheritIndex.Matches evaluateLabels idx') o' := by
  have h := (InheritIndex.consistent_new evaluateLabels).runFrom ops hrun
  exact ⟨fun s i => h.recorded_iff (s, i), h.linked.inverse, h.linked.bySel, h.linked.byLabel,
    fun _ _ _ hop => (h.apply hop).2⟩


/-- An endpoint that inherits a label and a tag from its profile, with selectors on both,
and the profile's labels and the endpoint then taken away. -/
def inheritDemo : List (Op ℕ ℕ String) :=
  [.updateParentLabels "prof" ((∅ : Labels).insert "env" "prod"), .updateLabels 1 ∅ ["prof"],
    .updateSelector 7 "env", .updateParentTags "prof" ["web"], .updateSelector 8 "web",
    .deleteParentLabels "prof", .deleteLabels 1]

theorem inheritIndex_match_invariant_demo :
    ∃ idx o, InheritIndex.runFrom hasLabel (fun sel : String => sel) inheritDemo .new =
        .ok (idx, o) ∧
      (∀ s i, idx.labelIdsBySelId.Mem s i ↔ InheritIndex.Matches hasLabel idx (s, i)) ∧
      (∀ s i, idx.selIdsByLabelId.Mem i s ↔ idx.labelIdsBySelId.Mem s i) ∧
      idx.labelIdsBySelId.NoEmpty ∧ idx.selIdsByLabelId.NoEmpty ∧
      ∀ op idx' o', idx.apply hasLabel (fun sel : String => sel) op = .ok (idx', o') →
        Reports (InheritIndex.Matches hasLabel idx) (InheritIndex.Matches hasLabel idx') o' :=
  ⟨_, _, rfl, inheritIndex_match_invariant hasLabel (fun sel : String => sel) inheritDemo rfl⟩

end Felix.LabelIndex
