import Felix.Dataplane.XdpMembers

/-!
# When the XDP member cache is exact

The IP sets layer means its callbacks in order: added members are in, removed ones out, a
replacement is the new membership and a removed set is empty (`MemberOp.members`). The buffer of
`ipsetIDsToMembers` keeps a replacement exactly, but gathers added and removed members in two
sets that never cancel, and `UpdateCache` discards before it adds. So the cache after a cycle is
the membership the callbacks mean, for every tracked set, exactly when no callback of the batch
removes a member that an earlier one added to the same set (`updateCache_exact`). A member added
and then removed in one batch stays cached (`add_then_remove_cached`).

## Main definitions

* `pendingSet`, `MemberOp.members`

## Main results

* `mem_updatedMembers`: what `UpdateCache` makes of one set
* `mem_updatedMembers_applyOp`: one callback, against the meaning of the callback
* `mem_updatedMembers_foldl`: a batch of callbacks
* `updateCache_exact`: the cache after a cycle
-/

namespace Felix.Dataplane

/-- The pending set of `S` in one of the buffer's maps, empty when it has none. -/
def pendingSet (m : SetMap) (S : String) : IterSet String := (m.lookup S).getD ∅
attribute [grind] pendingSet

/-- The set a callback is for. -/
def MemberOp.setID : MemberOp → String
  | .addMembers setID _ | .removeMembers setID _ | .replace setID _ | .delete setID => setID
attribute [grind] MemberOp.setID

/-- The members of the set `S` after a callback, as the IP sets layer means it. Callbacks of
other sets leave `S` as it was. -/
def MemberOp.members (S : String) (mem : String → Bool) : MemberOp → String → Bool
  | .addMembers setID ms => fun m => (setID == S && decide (m ∈ ms)) || mem m
  | .removeMembers setID ms => fun m => !(setID == S && decide (m ∈ ms)) && mem m
  | .replace setID ms => fun m => if setID = S then decide (m ∈ ms) else mem m
  | .delete setID => fun m => setID != S && mem m
attribute [grind] MemberOp.members

/-- The meaning of a batch of callbacks for the set `S`. -/
def MemberOp.membersAfter (S : String) (ops : List MemberOp) (mem : String → Bool) :
    String → Bool :=
  ops.foldl (fun mem op => op.members S mem) mem

theorem MemberOp.members_of_ne {S : String} {op : MemberOp} (h : op.setID ≠ S)
    (mem : String → Bool) : op.members S mem = mem := by
  funext x
  cases op <;> simp_all [MemberOp.members, MemberOp.setID]

theorem lookup_safeAdd_of_ne {m : SetMap} {setID member S : String} (h : setID ≠ S) :
    (safeAdd m setID member).lookup S = m.lookup S :=
  AList.lookup_insert_ne (Ne.symm h)

theorem lookup_foldl_safeAdd_of_ne {l : List String} {m : SetMap} {setID S : String}
    (h : setID ≠ S) :
    (l.foldl (fun m member => safeAdd m setID member) m).lookup S = m.lookup S := by
  induction l generalizing m with
  | nil => rfl
  | cons a l ih => rw [List.foldl_cons, ih, lookup_safeAdd_of_ne h]

theorem mem_pendingSet_safeAdd {m : SetMap} {setID member S x : String} :
    x ∈ pendingSet (safeAdd m setID member) S ↔
      (setID = S ∧ x = member) ∨ x ∈ pendingSet m S := by
  unfold pendingSet safeAdd
  by_cases h : setID = S
  · subst h
    simp
  · simp [AList.lookup_insert_ne (Ne.symm h), h]

theorem mem_pendingSet_foldl_safeAdd {l : List String} {m : SetMap} {setID S x : String} :
    x ∈ pendingSet (l.foldl (fun m member => safeAdd m setID member) m) S ↔
      (setID = S ∧ x ∈ l) ∨ x ∈ pendingSet m S := by
  induction l generalizing m with
  | nil => simp
  | cons a l ih =>
    rw [List.foldl_cons, ih, mem_pendingSet_safeAdd, List.mem_cons]
    tauto

@[simp] theorem pendingSet_erase_self (m : SetMap) (S : String) :
    pendingSet (m.erase S) S = ∅ := by
  simp [pendingSet]

theorem pendingSet_erase_of_ne {m : SetMap} {setID S : String} (h : setID ≠ S) :
    pendingSet (m.erase setID) S = pendingSet m S := by
  simp [pendingSet, AList.lookup_erase_ne (Ne.symm h)]

theorem foldl_pendingList {m : SetMap} {S : String}
    {f : IterSet String → String → IterSet String} {s : IterSet String} :
    (((m.lookup S).map IterSet.toList).getD []).foldl f s =
      (pendingSet m S).toList.foldl f s := by
  unfold pendingSet
  cases m.lookup S <;> rfl

namespace IPSetIDsToMembers

/-- The members `UpdateCache` gives a tracked set. -/
theorem mem_updatedMembers (i : IPSetIDsToMembers) (S : String) (c : IterSet String) (x : String) :
    x ∈ i.updatedMembers S c ↔
      match i.pendingReplaces.lookup S with
      | some rs => x ∈ rs
      | none =>
        x ∈ pendingSet i.pendingAdds S ∨
          (x ∉ pendingSet i.pendingDeletions S ∧ x ∈ c) := by
  unfold updatedMembers
  cases i.pendingReplaces.lookup S with
  | some rs => rfl
  | none =>
    dsimp only
    rw [foldl_pendingList, foldl_pendingList, IterSet.mem_foldl_add,
      IterSet.mem_foldl_discard]
    simp

/-- `UpdateCache` makes of a set only what the three maps of the buffer hold for it. -/
theorem updatedMembers_congr {i j : IPSetIDsToMembers} {S : String}
    (hr : j.pendingReplaces.lookup S = i.pendingReplaces.lookup S)
    (ha : j.pendingAdds.lookup S = i.pendingAdds.lookup S)
    (hd : j.pendingDeletions.lookup S = i.pendingDeletions.lookup S) (c : IterSet String) :
    j.updatedMembers S c = i.updatedMembers S c := by
  simp only [updatedMembers, hr, ha, hd]

/-- A callback changes the three maps of the buffer only at its own set. -/
theorem lookup_applyOp_of_ne {i : IPSetIDsToMembers} {S : String} {op : MemberOp}
    (h : op.setID ≠ S) :
    (i.applyOp op).pendingReplaces.lookup S = i.pendingReplaces.lookup S ∧
    (i.applyOp op).pendingAdds.lookup S = i.pendingAdds.lookup S ∧
    (i.applyOp op).pendingDeletions.lookup S = i.pendingDeletions.lookup S := by
  have h' := Ne.symm h
  cases op with
  | addMembers setID ms =>
    simp only [applyOp, addMembers]
    split_ifs
    · split
      · exact ⟨AList.lookup_insert_ne h', rfl, rfl⟩
      · exact ⟨rfl, lookup_foldl_safeAdd_of_ne h, rfl⟩
    · exact ⟨rfl, rfl, rfl⟩
  | removeMembers setID ms =>
    simp only [applyOp, removeMembers]
    split_ifs
    · split
      · exact ⟨AList.lookup_insert_ne h', rfl, rfl⟩
      · exact ⟨rfl, rfl, lookup_foldl_safeAdd_of_ne h⟩
    · exact ⟨rfl, rfl, rfl⟩
  | replace setID ms =>
    simp only [applyOp, replace]
    split_ifs
    · exact ⟨AList.lookup_insert_ne h', AList.lookup_erase_ne h', AList.lookup_erase_ne h'⟩
    · exact ⟨rfl, rfl, rfl⟩
  | delete setID =>
    simp only [applyOp, delete]
    split_ifs
    · exact ⟨AList.lookup_insert_ne h', AList.lookup_erase_ne h', AList.lookup_erase_ne h'⟩
    · exact ⟨rfl, rfl, rfl⟩

/-- A callback for another set leaves what `UpdateCache` makes of `S`. -/
theorem updatedMembers_applyOp_of_ne {i : IPSetIDsToMembers} {S : String} {op : MemberOp}
    (h : op.setID ≠ S) (c : IterSet String) :
    (i.applyOp op).updatedMembers S c = i.updatedMembers S c := by
  obtain ⟨hr, ha, hd⟩ := lookup_applyOp_of_ne (i := i) h
  exact updatedMembers_congr hr ha hd c

@[simp] theorem applyOp_cache (i : IPSetIDsToMembers) (op : MemberOp) :
    (i.applyOp op).cache = i.cache := by
  cases op <;>
    simp only [applyOp, addMembers, removeMembers, replace, delete] <;> split_ifs <;>
    (try split) <;> rfl

/-- A callback for a tracked set: what `UpdateCache` makes of the set is what the callback means,
unless it removes a member pending as added while no replacement is pending. -/
theorem mem_updatedMembers_applyOp {i : IPSetIDsToMembers} {S : String} (hS : S ∈ i.cache)
    (c : IterSet String) (op : MemberOp)
    (hop : ∀ ms, op = .removeMembers S ms → i.pendingReplaces.lookup S = none →
      ∀ x ∈ ms, x ∉ pendingSet i.pendingAdds S) (x : String) :
    x ∈ (i.applyOp op).updatedMembers S c ↔
      op.members S (fun y => decide (y ∈ i.updatedMembers S c)) x = true := by
  by_cases hne : op.setID = S
  swap
  · rw [updatedMembers_applyOp_of_ne hne, MemberOp.members_of_ne hne, decide_eq_true_iff]
  have hS' : ¬ op.setID ∉ i.cache := not_not.mpr (hne ▸ hS)
  cases op with
  | addMembers setID ms =>
    simp only [MemberOp.setID] at hne hS'
    subst hne
    cases hr : i.pendingReplaces.lookup setID with
    | some rs =>
      simp [applyOp, addMembers, hS', hr, mem_updatedMembers, IterSet.mem_foldl_add,
        MemberOp.members]
    | none =>
      simp [applyOp, addMembers, hS', hr, mem_updatedMembers, mem_pendingSet_foldl_safeAdd,
        MemberOp.members]
      tauto
  | removeMembers setID ms =>
    simp only [MemberOp.setID] at hne hS'
    subst hne
    cases hr : i.pendingReplaces.lookup setID with
    | some rs =>
      simp [applyOp, removeMembers, hS', hr, mem_updatedMembers, IterSet.mem_foldl_discard,
        MemberOp.members]
    | none =>
      -- the one case the buffer gets wrong: a removed member pending as added stays added
      have hadd := hop ms rfl hr x
      simp [applyOp, removeMembers, hS', hr, mem_updatedMembers, mem_pendingSet_foldl_safeAdd,
        MemberOp.members]
      tauto
  | replace setID ms =>
    simp only [MemberOp.setID] at hne hS'
    subst hne
    simp [applyOp, replace, hS', mem_updatedMembers, MemberOp.members]
  | delete setID =>
    simp only [MemberOp.setID] at hne hS'
    subst hne
    simp [applyOp, delete, hS', mem_updatedMembers, MemberOp.members]

/-- A replacement, once pending, stays pending until `UpdateCache`. -/
theorem lookup_pendingReplaces_applyOp_eq_none {i : IPSetIDsToMembers} {S : String}
    {op : MemberOp} (h : (i.applyOp op).pendingReplaces.lookup S = none) :
    i.pendingReplaces.lookup S = none := by
  cases op <;> simp only [applyOp, addMembers, removeMembers, replace, delete] at h <;>
    split_ifs at h <;> (try split at h) <;> simp_all [AList.lookup_insert_eq_none]

/-- A member pending as added after a callback was pending before, or the callback added it. -/
theorem mem_pendingAdds_applyOp {i : IPSetIDsToMembers} {S x : String} {op : MemberOp}
    (h : x ∈ pendingSet (i.applyOp op).pendingAdds S) :
    x ∈ pendingSet i.pendingAdds S ∨ ∃ ms, op = .addMembers S ms ∧ x ∈ ms := by
  cases op with
  | addMembers setID ms =>
    simp only [applyOp, addMembers] at h
    split_ifs at h
    · split at h
      · exact Or.inl h
      · rcases mem_pendingSet_foldl_safeAdd.mp h with ⟨rfl, hx⟩ | hx
        · exact Or.inr ⟨ms, rfl, hx⟩
        · exact Or.inl hx
    · exact Or.inl h
  | removeMembers setID ms =>
    simp only [applyOp, removeMembers] at h
    split_ifs at h
    · split at h <;> exact Or.inl h
    · exact Or.inl h
  | replace setID ms =>
    simp only [applyOp, replace] at h
    split_ifs at h
    · by_cases hS : setID = S
      · subst hS
        simp at h
      · exact Or.inl (by rwa [pendingSet_erase_of_ne hS] at h)
    · exact Or.inl h
  | delete setID =>
    simp only [applyOp, delete] at h
    split_ifs at h
    · by_cases hS : setID = S
      · subst hS
        simp at h
      · exact Or.inl (by rwa [pendingSet_erase_of_ne hS] at h)
    · exact Or.inl h

/-- **A batch of callbacks.** From a buffer whose pending adds of `S` no later callback removes,
a batch in which no callback removes a member that an earlier one added to `S` leaves what
`UpdateCache` makes of `S` equal to what the batch means. The induction is on the batch, and
the invariant is the hypothesis on the pending adds. -/
theorem mem_updatedMembers_foldl {S : String} (c : IterSet String) (ops : List MemberOp) :
    ∀ i : IPSetIDsToMembers, S ∈ i.cache →
      (i.pendingReplaces.lookup S = none → ∀ x ∈ pendingSet i.pendingAdds S,
        ∀ ms, MemberOp.removeMembers S ms ∈ ops → x ∉ ms) →
      (∀ ms ms', List.Sublist [MemberOp.addMembers S ms, .removeMembers S ms'] ops →
        ∀ x ∈ ms, x ∉ ms') →
      ∀ x, x ∈ (ops.foldl applyOp i).updatedMembers S c ↔
        MemberOp.membersAfter S ops (fun y => decide (y ∈ i.updatedMembers S c)) x = true := by
  induction ops with
  | nil => simp [MemberOp.membersAfter]
  | cons op ops ih =>
    intro i hS hpend hops x
    -- the step: the callback means what the buffer makes of it
    have hstep : (fun y => decide (y ∈ (i.applyOp op).updatedMembers S c)) =
        op.members S (fun y => decide (y ∈ i.updatedMembers S c)) := by
      funext y
      rw [Bool.eq_iff_iff, decide_eq_true_iff]
      refine mem_updatedMembers_applyOp hS c op (fun ms hop hr z hz hadd => ?_) y
      exact hpend hr z hadd ms (hop ▸ List.mem_cons_self) hz
    -- the invariant for the rest of the batch
    have hpend' : (i.applyOp op).pendingReplaces.lookup S = none →
        ∀ x ∈ pendingSet (i.applyOp op).pendingAdds S,
          ∀ ms, MemberOp.removeMembers S ms ∈ ops → x ∉ ms := by
      intro hr z hz ms hms
      rcases mem_pendingAdds_applyOp hz with hold | ⟨ms₀, rfl, hnew⟩
      · exact hpend (lookup_pendingReplaces_applyOp_eq_none hr) z hold ms
          (List.mem_cons_of_mem _ hms)
      · exact hops ms₀ ms (List.cons_sublist_cons.mpr (List.singleton_sublist.mpr hms)) z hnew
    have hops' : ∀ ms ms', List.Sublist [MemberOp.addMembers S ms, .removeMembers S ms'] ops →
        ∀ x ∈ ms, x ∉ ms' := fun ms ms' h => hops ms ms' (h.cons op)
    rw [List.foldl_cons, ih (i.applyOp op) (by rwa [applyOp_cache]) hpend' hops' x, hstep]
    rfl

theorem foldl_applyOp_cache (ops : List MemberOp) (i : IPSetIDsToMembers) :
    (ops.foldl applyOp i).cache = i.cache := by
  induction ops generalizing i with
  | nil => rfl
  | cons op ops ih => rw [List.foldl_cons, ih, applyOp_cache]

/-- `UpdateCache` over the tracked sets, one key after another. -/
theorem lookup_foldl_updateCachedSet (i : IPSetIDsToMembers) {L : List String} (hL : L.Nodup)
    (c₀ : SetMap) (S : String) :
    (L.foldl i.updateCachedSet c₀).lookup S =
      if S ∈ L then (c₀.lookup S).map (i.updatedMembers S) else c₀.lookup S := by
  induction L generalizing c₀ with
  | nil => simp
  | cons k L ih =>
    obtain ⟨hk, hL⟩ := List.nodup_cons.mp hL
    rw [List.foldl_cons, ih hL]
    by_cases hS : S = k
    · subst hS
      cases h : c₀.lookup S <;> simp [updateCachedSet, h, hk]
    · have hstep : (i.updateCachedSet c₀ k).lookup S = c₀.lookup S := by
        unfold updateCachedSet
        split <;> simp [AList.lookup_insert_ne hS]
      simp [hstep, hS]

theorem lookup_updateCache (i : IPSetIDsToMembers) (S : String) :
    i.updateCache.cache.lookup S = (i.cache.lookup S).map (i.updatedMembers S) := by
  rw [updateCache, lookup_foldl_updateCachedSet i (AList.keys_nodup _)]
  split_ifs with hS
  · rfl
  · rw [← AList.mem_keys, ← AList.lookup_eq_none] at hS
    rw [hS, Option.map_none]

/-- **The cache after a cycle.** From a buffer emptied by the last `UpdateCache`, a batch of
callbacks in which no callback removes a member that an earlier one added to a tracked set `S`
leaves the cache of `S`, after the next `UpdateCache`, holding exactly the members the batch
means. -/
theorem updateCache_exact (i : IPSetIDsToMembers) (hr : i.pendingReplaces = ∅)
    (ha : i.pendingAdds = ∅) (hd : i.pendingDeletions = ∅) {S : String} {c : IterSet String}
    (hc : i.cache.lookup S = some c) (ops : List MemberOp)
    (hops : ∀ ms ms', List.Sublist [MemberOp.addMembers S ms, .removeMembers S ms'] ops →
      ∀ x ∈ ms, x ∉ ms') :
    ∃ c', ((ops.foldl applyOp i).updateCache).cache.lookup S = some c' ∧
      ∀ x, x ∈ c' ↔ MemberOp.membersAfter S ops (fun y => decide (y ∈ c)) x = true := by
  have hS : S ∈ i.cache := AList.lookup_isSome.mp (by simp [hc])
  have hempty : i.updatedMembers S c = c := by
    simp [updatedMembers, hr, ha, hd]
  refine ⟨(ops.foldl applyOp i).updatedMembers S c, ?_, fun x => ?_⟩
  · rw [lookup_updateCache, foldl_applyOp_cache, hc, Option.map_some]
  · have hpend : i.pendingReplaces.lookup S = none → ∀ x ∈ pendingSet i.pendingAdds S,
        ∀ ms, MemberOp.removeMembers S ms ∈ ops → x ∉ ms := by
      intro _ x hx
      simp [pendingSet, ha] at hx
    rw [mem_updatedMembers_foldl c ops i hS hpend hops x, hempty]

/-- A batch for the set `S`: add `m`, remove another member `a`, replace the set with `{b, m}`,
delete it, and replace it again with `{d}`. -/
def mixedBatch : List MemberOp :=
  [.addMembers "S" ((∅ : IterSet String).add "m"), .removeMembers "S" ((∅ : IterSet String).add "a"),
    .replace "S" (((∅ : IterSet String).add "b").add "m"), .delete "S",
    .replace "S" ((∅ : IterSet String).add "d")]

/-- The mixed batch removes only `a`, which it never added: the cache of `S`, tracked with the
one member `a`, then holds what the batch means. -/
theorem updateCache_exact_mixed :
    ∃ c', ((mixedBatch.foldl applyOp (new.setCache "S" ((∅ : IterSet String).add "a"))).updateCache).cache.lookup
        "S" = some c' ∧
      ∀ x, x ∈ c' ↔
        MemberOp.membersAfter "S" mixedBatch (fun y => decide (y ∈ (∅ : IterSet String).add "a")) x = true :=
  updateCache_exact _ rfl rfl rfl (AList.lookup_insert _) _ fun ms ms' h x hx hx' => by
    -- the one add of the batch is of `m`, and its one remove is of `a`
    have hadd : MemberOp.addMembers "S" ms ∈ mixedBatch := h.subset List.mem_cons_self
    have hrem : MemberOp.removeMembers "S" ms' ∈ mixedBatch := h.subset (by simp)
    simp only [mixedBatch, List.mem_cons, reduceCtorEq, MemberOp.addMembers.injEq,
      MemberOp.removeMembers.injEq, true_and, List.not_mem_nil, or_false, false_or] at hadd hrem
    subst hadd hrem
    simp only [IterSet.mem_add, IterSet.not_mem_empty, or_false] at hx hx'
    rw [hx] at hx'
    exact absurd hx' (by decide)

/-- The set `S` tracked with the one member `a`, and a batch that adds and then removes `m`. -/
def addThenRemove : List MemberOp :=
  [.addMembers "S" ((∅ : IterSet String).add "m"),
    .removeMembers "S" ((∅ : IterSet String).add "m")]

/-- After the batch that adds and then removes `m`, `S` means `{a}`, but the next `UpdateCache`
discards `m` before it adds it, and the cache of `S` holds `m`. -/
theorem add_then_remove_cached :
    MemberOp.membersAfter "S" addThenRemove (fun y => decide (y ∈ (∅ : IterSet String).add "a"))
        "m" = false ∧
      ((addThenRemove.foldl applyOp (new.setCache "S" ((∅ : IterSet String).add "a"))).updateCache
        |>.cache.lookup "S").map (fun s => decide ("m" ∈ s)) = some true := by
  decide

end IPSetIDsToMembers

end Felix.Dataplane
