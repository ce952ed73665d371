import Felix.Ipsets.IPSets
import Felix.Replication.Report

/-!
# The two modes of an IP set record

An IP set record is in rewrite mode (a pending rewrite, no programmed members, no deltas) or
in delta mode (programmed members and no pending rewrite), and in delta mode its pending
additions are members it does not hold and its pending deletions members it holds
(`IPSet.Wf`). `GetMembers` reads from either mode the set the record is to have (`Wants`).

A resync of a record in delta mode against the dataplane's listing makes its members the
listing's, keeps it well formed and leaves what it wants unchanged (`resyncWith_spec`). Both
of its loops are proved one member at a time: a turn on one member changes only that member's
view, so after a loop each member's view is its turn applied to its view before
(`foldl_pointwise`), and the two turns compose to `resyncView`, a function of four booleans.
-/

namespace Felix.Ipsets

open Replication

theorem mem_applyDeltas {M A D : IterSet String} {x : String} :
    x ∈ applyDeltas M A D ↔ (x ∈ A ∨ x ∈ M) ∧ x ∉ D := by
  unfold applyDeltas
  rw [IterSet.mem_foldl_discard, IterSet.mem_foldl_add]
  simp only [IterSet.mem_toList]
  tauto

namespace IPSet

variable {ipSet : IPSet} {M : IterSet String} {x : String}

/-- A record as every reachable state holds it. -/
structure Wf (ipSet : IPSet) : Prop where
  one_mode : ipSet.members.isSome = ipSet.pendingReplace.isNone
  adds_fresh : ∀ M, ipSet.members = some M → ∀ x ∈ ipSet.pendingAdds, x ∉ M
  dels_programmed : ∀ M, ipSet.members = some M → ∀ x ∈ ipSet.pendingDeletions, x ∈ M
  no_deltas : ipSet.pendingReplace.isSome → ∀ x, x ∉ ipSet.pendingAdds ∧ x ∉ ipSet.pendingDeletions

/-- The record wants member `x`: `GetMembers` succeeds and gives it. -/
def Wants (ipSet : IPSet) (x : String) : Prop := ∃ ms, ipSet.getMembers = .ok ms ∧ x ∈ ms
attribute [grind] Wants

theorem getMembers_of_rewrite {r : IterSet String} (h : ipSet.pendingReplace = some r) :
    ipSet.getMembers = .ok r := by
  simp [getMembers, h]

theorem getMembers_of_delta (hM : ipSet.members = some M) (hr : ipSet.pendingReplace = none) :
    ipSet.getMembers = .ok (applyDeltas M ipSet.pendingAdds ipSet.pendingDeletions) := by
  simp only [getMembers, hr, hM, deref]
  rfl

theorem wants_of_rewrite {r : IterSet String} (h : ipSet.pendingReplace = some r) :
    ipSet.Wants x ↔ x ∈ r := by
  simp [Wants, getMembers_of_rewrite h]

theorem wants_of_delta (hM : ipSet.members = some M) (hr : ipSet.pendingReplace = none) :
    ipSet.Wants x ↔ (x ∈ ipSet.pendingAdds ∨ x ∈ M) ∧ x ∉ ipSet.pendingDeletions := by
  simp [Wants, getMembers_of_delta hM hr, mem_applyDeltas]

/-- A well-formed record with no pending rewrite holds programmed members. -/
theorem Wf.exists_members (h : ipSet.Wf) (hr : ipSet.pendingReplace = none) :
    ∃ M, ipSet.members = some M :=
  Option.isSome_iff_exists.mp (by simpa [hr] using h.one_mode)

/-- A well-formed record's `GetMembers` does not panic. -/
theorem Wf.getMembers_ok (h : ipSet.Wf) : ∃ ms, ipSet.getMembers = .ok ms := by
  cases hr : ipSet.pendingReplace with
  | some r => exact ⟨r, getMembers_of_rewrite hr⟩
  | none =>
    obtain ⟨M, hM⟩ := h.exists_members hr
    exact ⟨_, getMembers_of_delta hM hr⟩

/-! ## Every change to a record keeps it well formed -/

/-- A record changed by an operation: well formed, with the metadata and main name it had. -/
structure Keeps (ipSet ipSet' : IPSet) : Prop where
  wf : ipSet'.Wf
  meta_eq : ipSet'.toIPSetMetadata = ipSet.toIPSetMetadata
  name_eq : ipSet'.mainIPSetName = ipSet.mainIPSetName

theorem Keeps.trans {ipSet₁ ipSet₂ : IPSet} (h₁ : Keeps ipSet ipSet₁) (h₂ : Keeps ipSet₁ ipSet₂) :
    Keeps ipSet ipSet₂ :=
  ⟨h₂.wf, h₂.meta_eq.trans h₁.meta_eq, h₂.name_eq.trans h₁.name_eq⟩

theorem Wf.of_delta {A D : IterSet String} (hM : ipSet.members = some M)
    (hr : ipSet.pendingReplace = none) (hA : ∀ x ∈ A, x ∉ M) (hD : ∀ x ∈ D, x ∈ M) :
    ({ ipSet with pendingAdds := A, pendingDeletions := D } : IPSet).Wf where
  one_mode := by simp [hM, hr]
  adds_fresh N hN x hx := by
    cases hM.symm.trans hN
    exact hA x hx
  dels_programmed N hN x hx := by
    cases hM.symm.trans hN
    exact hD x hx
  no_deltas h := by simp [hr] at h

/-- A delta-mode turn of `AddMembers` keeps the record well formed. -/
theorem Wf.addMemberDelta (h : ipSet.Wf) (hr : ipSet.pendingReplace = none) {a : String}
    {ipSet' : IPSet} (ha : ipSet.addMemberDelta a = .ok ipSet') :
    Keeps ipSet ipSet' ∧ ipSet'.pendingReplace = none := by
  unfold IPSet.addMemberDelta at ha
  obtain ⟨M, hM, ha⟩ := bind_eq_ok ha
  have hM' : ipSet.members = some M := by cases hm : ipSet.members <;> simp_all [deref]
  have hD : ∀ x ∈ ipSet.pendingDeletions.discard a, x ∈ M :=
    fun x hx => h.dels_programmed M hM' x (IterSet.mem_discard.mp hx).2
  split_ifs at ha with hm
  · cases ha
    exact ⟨⟨Wf.of_delta hM' hr (h.adds_fresh M hM') hD, rfl, rfl⟩, hr⟩
  · cases ha
    refine ⟨⟨Wf.of_delta hM' hr (fun x hx => ?_) hD, rfl, rfl⟩, hr⟩
    rcases IterSet.mem_add.mp hx with rfl | hx
    · exact hm
    · exact h.adds_fresh M hM' x hx

/-- A delta-mode turn of `RemoveMembers` keeps the record well formed. -/
theorem Wf.removeMemberDelta (h : ipSet.Wf) (hr : ipSet.pendingReplace = none) {a : String}
    {ipSet' : IPSet} (ha : ipSet.removeMemberDelta a = .ok ipSet') :
    Keeps ipSet ipSet' ∧ ipSet'.pendingReplace = none := by
  unfold IPSet.removeMemberDelta at ha
  obtain ⟨M, hM, ha⟩ := bind_eq_ok ha
  have hM' : ipSet.members = some M := by cases hm : ipSet.members <;> simp_all [deref]
  have hA : ∀ x ∈ ipSet.pendingAdds.discard a, x ∉ M :=
    fun x hx => h.adds_fresh M hM' x (IterSet.mem_discard.mp hx).2
  split_ifs at ha with hm
  · cases ha
    refine ⟨⟨Wf.of_delta hM' hr hA (fun x hx => ?_), rfl, rfl⟩, hr⟩
    rcases IterSet.mem_add.mp hx with rfl | hx
    · exact hm
    · exact h.dels_programmed M hM' x hx
  · cases ha
    exact ⟨⟨Wf.of_delta hM' hr hA (h.dels_programmed M hM'), rfl, rfl⟩, hr⟩

/-- A rewrite-mode record keeps its shape whatever its pending rewrite becomes. -/
theorem Wf.setPendingReplace (h : ipSet.Wf) {r r' : IterSet String}
    (hr : ipSet.pendingReplace = some r) :
    Keeps ipSet { ipSet with pendingReplace := some r' } := by
  have hm : ipSet.members = none := by simpa [hr] using h.one_mode
  refine ⟨⟨by simp [hm], fun N hN => ?_, fun N hN => ?_, fun _ => h.no_deltas (by simp [hr])⟩,
    rfl, rfl⟩
  · simp [hm] at hN
  · simp [hm] at hN

/-- `AddMembers` keeps the record well formed. -/
theorem Wf.addMembers (h : ipSet.Wf) {c : IterSet String} {ipSet' : IPSet}
    (ha : ipSet.addMembers c = .ok ipSet') : Keeps ipSet ipSet' := by
  unfold IPSet.addMembers at ha
  cases hr : ipSet.pendingReplace with
  | some r =>
    rw [hr] at ha
    cases ha
    exact h.setPendingReplace hr
  | none =>
    rw [hr] at ha
    refine (foldlM_ok_induction (fun t : IPSet => Keeps ipSet t ∧ t.pendingReplace = none)
      (fun t a t' ht hstep => ?_) (s := ipSet) ⟨⟨h, rfl, rfl⟩, hr⟩ ha).1
    obtain ⟨hk, hr'⟩ := ht.1.wf.addMemberDelta ht.2 hstep
    exact ⟨ht.1.trans hk, hr'⟩

/-- `RemoveMembers` keeps the record well formed. -/
theorem Wf.removeMembers (h : ipSet.Wf) {c : IterSet String} {ipSet' : IPSet}
    (ha : ipSet.removeMembers c = .ok ipSet') : Keeps ipSet ipSet' := by
  unfold IPSet.removeMembers at ha
  cases hr : ipSet.pendingReplace with
  | some r =>
    rw [hr] at ha
    cases ha
    exact h.setPendingReplace hr
  | none =>
    rw [hr] at ha
    refine (foldlM_ok_induction (fun t : IPSet => Keeps ipSet t ∧ t.pendingReplace = none)
      (fun t a t' ht hstep => ?_) (s := ipSet) ⟨⟨h, rfl, rfl⟩, hr⟩ ha).1
    obtain ⟨hk, hr'⟩ := ht.1.wf.removeMemberDelta ht.2 hstep
    exact ⟨ht.1.trans hk, hr'⟩

/-- Folding the deltas into a record in delta mode gives a set. -/
theorem withDeltas_of_delta (hM : ipSet.members = some M) :
    withDeltas ipSet.members ipSet.pendingAdds ipSet.pendingDeletions =
      .ok (some (applyDeltas M ipSet.pendingAdds ipSet.pendingDeletions)) := by
  rw [hM]
  rfl

/-- `deleteIPSet`'s rebuild keeps the record well formed, and what it wants. -/
theorem Wf.rewriteAfterDeletion (h : ipSet.Wf) {ipSet' : IPSet}
    (ha : ipSet.rewriteAfterDeletion = .ok ipSet') :
    Keeps ipSet ipSet' ∧ ∀ x, ipSet'.Wants x ↔ ipSet.Wants x := by
  unfold IPSet.rewriteAfterDeletion at ha
  cases hr : ipSet.pendingReplace with
  | some r =>
    rw [hr] at ha
    cases ha
    exact ⟨⟨h, rfl, rfl⟩, fun _ => Iff.rfl⟩
  | none =>
    rw [hr] at ha
    obtain ⟨M, hM⟩ := h.exists_members hr
    rw [withDeltas_of_delta hM] at ha
    cases ha
    refine ⟨⟨⟨rfl, fun N hN => by simp at hN, fun N hN => by simp at hN, fun _ x => by simp⟩,
      rfl, rfl⟩, fun x => ?_⟩
    rw [wants_of_rewrite rfl, wants_of_delta hM hr, mem_applyDeltas]

/-- `tryUpdates`' bookkeeping keeps the record well formed, and what it wants; afterwards the
record is in delta mode holding what it wants, with no deltas. -/
theorem Wf.markProgrammed (h : ipSet.Wf) {ipSet' : IPSet}
    (ha : ipSet.markProgrammed = .ok ipSet') :
    Keeps ipSet ipSet' ∧ (∀ x, ipSet'.Wants x ↔ ipSet.Wants x) ∧
      ipSet'.pendingReplace = none ∧ ∀ x, x ∉ ipSet'.pendingAdds ∧ x ∉ ipSet'.pendingDeletions := by
  unfold IPSet.markProgrammed at ha
  cases hr : ipSet.pendingReplace with
  | some r =>
    rw [hr] at ha
    cases ha
    have hnd := h.no_deltas (by simp [hr])
    refine ⟨⟨⟨rfl, fun N hN x hx => ((hnd x).1 hx).elim, fun N hN x hx => ((hnd x).2 hx).elim,
      fun h' => by simp at h'⟩, rfl, rfl⟩, fun x => ?_, rfl, hnd⟩
    rw [wants_of_delta rfl rfl, wants_of_rewrite hr]
    simp [(hnd x).1, (hnd x).2]
  | none =>
    rw [hr] at ha
    obtain ⟨M, hM⟩ := h.exists_members hr
    rw [withDeltas_of_delta hM] at ha
    cases ha
    refine ⟨⟨⟨rfl, fun N hN x hx => by simp at hx, fun N hN x hx => by simp at hx,
      fun h' => by simp at h'⟩, rfl, rfl⟩, fun x => ?_, rfl, fun x => by simp⟩
    rw [wants_of_delta hM hr,
      wants_of_delta (M := applyDeltas M ipSet.pendingAdds ipSet.pendingDeletions) rfl rfl,
      mem_applyDeltas]
    simp

/-- On a well-formed record, `deleteIPSet`'s rebuild does not panic. -/
theorem Wf.rewriteAfterDeletion_ok (h : ipSet.Wf) :
    ∃ ipSet', ipSet.rewriteAfterDeletion = .ok ipSet' := by
  unfold IPSet.rewriteAfterDeletion
  cases hr : ipSet.pendingReplace with
  | some r => exact ⟨_, rfl⟩
  | none =>
    obtain ⟨M, hM⟩ := h.exists_members hr
    rw [withDeltas_of_delta hM]
    exact ⟨_, rfl⟩

/-- On a well-formed record, `tryUpdates`' bookkeeping does not panic. -/
theorem Wf.markProgrammed_ok (h : ipSet.Wf) : ∃ ipSet', ipSet.markProgrammed = .ok ipSet' := by
  unfold IPSet.markProgrammed
  cases hr : ipSet.pendingReplace with
  | some r => exact ⟨_, rfl⟩
  | none =>
    obtain ⟨M, hM⟩ := h.exists_members hr
    rw [withDeltas_of_delta hM]
    exact ⟨_, rfl⟩

/-! ## The resync loops, one member at a time -/

/-- What `resyncMember`'s state says of member `x`: whether the record holds it, the listing
still has it unmatched, and it is pending addition or deletion. -/
def memberView (st : IPSet × IterSet String × IterSet String) (x : String) :
    Bool × Bool × Bool × Bool :=
  (st.1.members.any fun M => decide (x ∈ M), decide (x ∈ st.2.1), decide (x ∈ st.1.pendingAdds),
    decide (x ∈ st.1.pendingDeletions))
attribute [grind] memberView

/-- `resyncMember`'s turn on a member, on its view. -/
def resyncMemberView : Bool × Bool × Bool × Bool → Bool × Bool × Bool × Bool
  | (m, true, a, d) => (m, false, a, d)
  | (_, false, a, true) => (false, false, a, false)
  | (_, false, _, false) => (false, false, true, false)

/-- What `resyncExtraMember`'s state says of member `x`: whether the record holds it (or holds
no member set at all), and whether it is pending addition or deletion. -/
def extraView (st : IPSet × IterSet String) (x : String) : Bool × Bool × Bool :=
  (st.1.members.all fun M => decide (x ∈ M), decide (x ∈ st.1.pendingAdds),
    decide (x ∈ st.1.pendingDeletions))
attribute [grind] extraView

/-- `resyncExtraMember`'s turn on a member, on its view. -/
def resyncExtraView : Bool × Bool × Bool → Bool × Bool × Bool
  | (_, true, d) => (true, false, d)
  | (_, false, _) => (true, false, true)

/-- Both loops of `resyncWith` on one member, from whether the record holds it, the listing has
it, and it is pending addition or deletion: the first loop visits the members the record
holds, the second those the listing has left unmatched. -/
def resyncView (v : Bool × Bool × Bool × Bool) : Bool × Bool × Bool :=
  let v₁ := if v.1 then resyncMemberView v else v
  if v₁.2.1 then resyncExtraView (v₁.1, v₁.2.2) else (v₁.1, v₁.2.2)

/-- After a resync the record holds a member exactly when the listing has it. -/
theorem resyncView_held : ∀ m p a d : Bool, (resyncView (m, p, a, d)).1 = p := by decide

/-- A resync keeps the delta-mode conditions of a member. -/
theorem resyncView_wf : ∀ m p a d : Bool, (a → !m) → (d → m) →
    ((resyncView (m, p, a, d)).2.1 → !(resyncView (m, p, a, d)).1) ∧
      ((resyncView (m, p, a, d)).2.2 → (resyncView (m, p, a, d)).1) := by
  decide

/-- A resync keeps whether a well-formed record wants a member. -/
theorem resyncView_wants : ∀ m p a d : Bool, (a → !m) → (d → m) →
    (((resyncView (m, p, a, d)).2.1 || (resyncView (m, p, a, d)).1) &&
      !(resyncView (m, p, a, d)).2.2) = ((a || m) && !d) := by
  decide

theorem memberView_resyncMember_of_ne (st : IPSet × IterSet String × IterSet String) {a : String}
    (hx : x ≠ a) : memberView (resyncMember st a) x = memberView st x := by
  obtain ⟨ipSet, dp, dirty⟩ := st
  dsimp only [resyncMember]
  split_ifs <;> cases h : ipSet.members <;> simp [memberView, h, hx]

theorem memberView_resyncMember_self (st : IPSet × IterSet String × IterSet String) (a : String) :
    memberView (resyncMember st a) a = resyncMemberView (memberView st a) := by
  obtain ⟨ipSet, dp, dirty⟩ := st
  dsimp only [resyncMember]
  -- the member is matched, its deletion was pending, or it is to be added back
  by_cases h₁ : a ∈ dp
  · simp [memberView, resyncMemberView, h₁]
  · by_cases h₂ : a ∈ ipSet.pendingDeletions <;> cases h : ipSet.members <;>
      simp [memberView, resyncMemberView, h, h₁, h₂]

theorem extraView_resyncExtraMember_of_ne (st : IPSet × IterSet String) {a : String}
    (hx : x ≠ a) : extraView (resyncExtraMember st a) x = extraView st x := by
  obtain ⟨ipSet, dirty⟩ := st
  dsimp only [resyncExtraMember]
  split_ifs <;> cases h : ipSet.members <;> simp [extraView, h, hx]

theorem extraView_resyncExtraMember_self (st : IPSet × IterSet String) (a : String) :
    extraView (resyncExtraMember st a) a = resyncExtraView (extraView st a) := by
  obtain ⟨ipSet, dirty⟩ := st
  dsimp only [resyncExtraMember]
  by_cases h₁ : a ∈ ipSet.pendingAdds <;> cases h : ipSet.members <;>
    simp [extraView, resyncExtraView, h, h₁]

/-! ## What the resync loops keep -/

/-- What both loops of a resync keep, against the record and dirty set they started from: the
record's metadata, name and mode, and that the dirty set grows by the record's ID at most,
which it holds once the loops have queued a delta. -/
structure ResyncFrame (ipSet₀ : IPSet) (dirty₀ : IterSet String) (ipSet : IPSet)
    (dirty : IterSet String) : Prop where
  meta_eq : ipSet.toIPSetMetadata = ipSet₀.toIPSetMetadata
  name_eq : ipSet.mainIPSetName = ipSet₀.mainIPSetName
  replace_eq : ipSet.pendingReplace = ipSet₀.pendingReplace
  isSome_eq : ipSet.members.isSome = ipSet₀.members.isSome
  dirty_mono : ∀ y ∈ dirty₀, y ∈ dirty
  dirty_le : ∀ y ∈ dirty, y ∈ dirty₀ ∨ y = ipSet₀.setID
  adds_queued : ∀ x ∈ ipSet.pendingAdds, x ∈ ipSet₀.pendingAdds ∨ ipSet₀.setID ∈ dirty
  dels_queued : ∀ x ∈ ipSet.pendingDeletions, x ∈ ipSet₀.pendingDeletions ∨ ipSet₀.setID ∈ dirty

theorem ResyncFrame.refl (ipSet : IPSet) (dirty : IterSet String) :
    ResyncFrame ipSet dirty ipSet dirty where
  meta_eq := rfl
  name_eq := rfl
  replace_eq := rfl
  isSome_eq := rfl
  dirty_mono _ h := h
  dirty_le _ h := .inl h
  adds_queued _ h := .inl h
  dels_queued _ h := .inl h

variable {ipSet₀ : IPSet} {dirty₀ : IterSet String}

theorem ResyncFrame.resyncMember {st : IPSet × IterSet String × IterSet String}
    (h : ResyncFrame ipSet₀ dirty₀ st.1 st.2.2) (a : String) :
    ResyncFrame ipSet₀ dirty₀ (IPSet.resyncMember st a).1 (IPSet.resyncMember st a).2.2 := by
  obtain ⟨ipSet, dp, dirty⟩ := st
  obtain ⟨hmeta, hname, hrep, hsome, hmono, hle, hadds, hdels⟩ := h
  dsimp only at *
  dsimp only [IPSet.resyncMember]
  split_ifs with h₁ h₂
  · exact ⟨hmeta, hname, hrep, hsome, hmono, hle, hadds, hdels⟩
  · -- a pending deletion found done: the deletions shrink
    refine ⟨hmeta, hname, hrep, by simpa using hsome, hmono, hle, hadds, fun x hx => ?_⟩
    exact hdels x (IterSet.mem_discard.mp hx).2
  · -- a member to add back: the record's ID joins the dirty set
    have hid : ipSet.setID = ipSet₀.setID := congrArg IPSetMetadata.setID hmeta
    refine ⟨hmeta, hname, hrep, by simpa using hsome, fun y hy => ?_, fun y hy => ?_,
      fun x _ => .inr ?_, fun x hx => ?_⟩
    · exact IterSet.mem_add.mpr (.inr (hmono y hy))
    · rcases IterSet.mem_add.mp hy with rfl | hy
      · exact .inr hid
      · exact hle y hy
    · exact IterSet.mem_add.mpr (.inl hid.symm)
    · rcases hdels x hx with hx | hx
      · exact .inl hx
      · exact .inr (IterSet.mem_add.mpr (.inr hx))

theorem ResyncFrame.resyncExtraMember {st : IPSet × IterSet String}
    (h : ResyncFrame ipSet₀ dirty₀ st.1 st.2) (a : String) :
    ResyncFrame ipSet₀ dirty₀ (IPSet.resyncExtraMember st a).1
      (IPSet.resyncExtraMember st a).2 := by
  obtain ⟨ipSet, dirty⟩ := st
  obtain ⟨hmeta, hname, hrep, hsome, hmono, hle, hadds, hdels⟩ := h
  dsimp only at *
  dsimp only [IPSet.resyncExtraMember]
  split_ifs with h₁
  · -- a pending addition found done: the additions shrink
    refine ⟨hmeta, hname, hrep, by simpa using hsome, hmono, hle, fun x hx => ?_, hdels⟩
    exact hadds x (IterSet.mem_discard.mp hx).2
  · -- a member to delete: the record's ID joins the dirty set
    have hid : ipSet.setID = ipSet₀.setID := congrArg IPSetMetadata.setID hmeta
    refine ⟨hmeta, hname, hrep, by simpa using hsome, fun y hy => ?_, fun y hy => ?_,
      fun x hx => ?_, fun x _ => .inr ?_⟩
    · exact IterSet.mem_add.mpr (.inr (hmono y hy))
    · rcases IterSet.mem_add.mp hy with rfl | hy
      · exact .inr hid
      · exact hle y hy
    · rcases hadds x hx with hx | hx
      · exact .inl hx
      · exact .inr (IterSet.mem_add.mpr (.inr hx))
    · exact IterSet.mem_add.mpr (.inl hid.symm)

/-- What a resync makes of a well-formed record in delta mode that believes it holds `M`, from
the listing `dp` of its main set: it keeps the frame, it is well formed, it holds exactly the
listing's members, and it wants what it wanted. -/
theorem resyncWith_spec (hwf : ipSet.Wf) (hM : ipSet.members = some M)
    (dp dirty : IterSet String) :
    ResyncFrame ipSet dirty (ipSet.resyncWith M dp dirty).1 (ipSet.resyncWith M dp dirty).2 ∧
      (ipSet.resyncWith M dp dirty).1.Wf ∧
      (∃ M', (ipSet.resyncWith M dp dirty).1.members = some M' ∧ ∀ x, x ∈ M' ↔ x ∈ dp) ∧
      ∀ x, (ipSet.resyncWith M dp dirty).1.Wants x ↔ ipSet.Wants x := by
  have hr : ipSet.pendingReplace = none := by simpa [hM] using hwf.one_mode.symm
  unfold resyncWith
  obtain ⟨⟨ipSet₁, extras, dirty₁⟩, h₁⟩ :
      ∃ st, M.toList.foldl IPSet.resyncMember (ipSet, dp, dirty) = st := ⟨_, rfl⟩
  obtain ⟨⟨ipSet₂, dirty₂⟩, h₂⟩ :
      ∃ st, extras.toList.foldl IPSet.resyncExtraMember (ipSet₁, dirty₁) = st := ⟨_, rfl⟩
  simp only [h₁, h₂]
  -- the frame, through both loops
  have hf₁ : ResyncFrame ipSet dirty ipSet₁ dirty₁ := by
    have := List.foldlRecOn (motive := fun st => ResyncFrame ipSet dirty st.1 st.2.2) M.toList
      IPSet.resyncMember (b := (ipSet, dp, dirty)) (ResyncFrame.refl ipSet dirty)
      fun st h a _ => h.resyncMember a
    rwa [h₁] at this
  have hf₂ : ResyncFrame ipSet dirty ipSet₂ dirty₂ := by
    have := List.foldlRecOn (motive := fun st => ResyncFrame ipSet dirty st.1 st.2)
      extras.toList IPSet.resyncExtraMember (b := (ipSet₁, dirty₁)) hf₁
      fun st h a _ => h.resyncExtraMember a
    rwa [h₂] at this
  obtain ⟨M', hM'⟩ : ∃ M', ipSet₂.members = some M' :=
    Option.isSome_iff_exists.mp (by rw [hf₂.isSome_eq, hM]; rfl)
  have hr₂ : ipSet₂.pendingReplace = none := hf₂.replace_eq.trans hr
  -- each member, through both loops
  have hview : ∀ x, extraView (ipSet₂, dirty₂) x =
      resyncView (decide (x ∈ M), decide (x ∈ dp), decide (x ∈ ipSet.pendingAdds),
        decide (x ∈ ipSet.pendingDeletions)) := by
    intro x
    have hl₁ := (foldl_pointwise (fun x : String => x) memberView
      (g := fun _ => resyncMemberView) (fun st _ _ hx => memberView_resyncMember_of_ne st hx)
      memberView_resyncMember_self (by simpa using M.nodup) (ipSet, dp, dirty))
    have hl₂ := (foldl_pointwise (fun x : String => x) extraView
      (g := fun _ => resyncExtraView) (fun st _ _ hx => extraView_resyncExtraMember_of_ne st hx)
      extraView_resyncExtraMember_self (by simpa using extras.nodup) (ipSet₁, dirty₁))
    rw [h₁] at hl₁
    rw [h₂] at hl₂
    have hv₀ : memberView (ipSet, dp, dirty) x = (decide (x ∈ M), decide (x ∈ dp),
        decide (x ∈ ipSet.pendingAdds), decide (x ∈ ipSet.pendingDeletions)) := by
      simp [memberView, hM]
    -- the first loop visits `x` if the record holds it
    have hv₁ : memberView (ipSet₁, extras, dirty₁) x =
        if (memberView (ipSet, dp, dirty) x).1 then resyncMemberView (memberView (ipSet, dp, dirty) x)
        else memberView (ipSet, dp, dirty) x := by
      by_cases hx : x ∈ M
      · rw [if_pos (by simp [hv₀, hx])]
        exact hl₁.1 x (IterSet.mem_toList.mpr hx)
      · rw [if_neg (by simp [hv₀, hx])]
        exact hl₁.2 x (by simpa using hx)
    -- the second visits it if the listing still has it unmatched
    have hv₂ : extraView (ipSet₂, dirty₂) x =
        if (memberView (ipSet₁, extras, dirty₁) x).2.1 then
          resyncExtraView (extraView (ipSet₁, dirty₁) x)
        else extraView (ipSet₁, dirty₁) x := by
      by_cases hx : x ∈ extras
      · rw [if_pos (by simp [memberView, hx])]
        exact hl₂.1 x (IterSet.mem_toList.mpr hx)
      · rw [if_neg (by simp [memberView, hx])]
        exact hl₂.2 x (by simpa using hx)
    obtain ⟨M₁, hM₁⟩ : ∃ M₁, ipSet₁.members = some M₁ :=
      Option.isSome_iff_exists.mp (by rw [hf₁.isSome_eq, hM]; rfl)
    have hx₁ : extraView (ipSet₁, dirty₁) x =
        ((memberView (ipSet₁, extras, dirty₁) x).1, (memberView (ipSet₁, extras, dirty₁) x).2.2) := by
      simp [extraView, memberView, hM₁]
    rw [hv₂, hx₁, hv₁, hv₀]
    rfl
  -- the delta-mode conditions of each member before the resync
  have hcond : ∀ x, (decide (x ∈ ipSet.pendingAdds) = true → (!decide (x ∈ M)) = true) ∧
      (decide (x ∈ ipSet.pendingDeletions) = true → decide (x ∈ M) = true) := by
    intro x
    refine ⟨fun h => ?_, fun h => ?_⟩
    · simpa using hwf.adds_fresh M hM x (by simpa using h)
    · simpa using hwf.dels_programmed M hM x (by simpa using h)
  have hfinal : ∀ x, (decide (x ∈ M'), decide (x ∈ ipSet₂.pendingAdds),
      decide (x ∈ ipSet₂.pendingDeletions)) = resyncView (decide (x ∈ M), decide (x ∈ dp),
        decide (x ∈ ipSet.pendingAdds), decide (x ∈ ipSet.pendingDeletions)) := by
    intro x
    rw [← hview x]
    simp [extraView, hM']
  refine ⟨hf₂, ⟨by simp [hM', hr₂], fun N hN x hx => ?_, fun N hN x hx => ?_, by simp [hr₂]⟩,
    ⟨M', hM', fun x => ?_⟩, fun x => ?_⟩
  · cases hM'.symm.trans hN
    have := (resyncView_wf _ (decide (x ∈ dp)) _ _ (hcond x).1 (hcond x).2).1
    rw [← hfinal x] at this
    simpa using this (by simpa using hx)
  · cases hM'.symm.trans hN
    have := (resyncView_wf _ (decide (x ∈ dp)) _ _ (hcond x).1 (hcond x).2).2
    rw [← hfinal x] at this
    simpa using this (by simpa using hx)
  · have := resyncView_held (decide (x ∈ M)) (decide (x ∈ dp)) (decide (x ∈ ipSet.pendingAdds))
      (decide (x ∈ ipSet.pendingDeletions))
    rw [← hfinal x] at this
    simpa using this
  · have := resyncView_wants _ (decide (x ∈ dp)) _ _ (hcond x).1 (hcond x).2
    rw [← hfinal x] at this
    rw [wants_of_delta hM' hr₂, wants_of_delta hM hr]
    rw [Bool.eq_iff_iff] at this
    simpa using this

end IPSet

end Felix.Ipsets
