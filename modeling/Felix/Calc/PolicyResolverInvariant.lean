import Felix.Calc.PolicyResolver

/-!
# The last update of every endpoint is right

Once the datastore is in sync, every call of the resolver ends with no dirty endpoint and the
sorted tier listing every policy; so an endpoint sent nothing since its last update has had
nothing change that its update reads. `Inv` is that invariant over a run: the two match maps are
inverse, the tier lists the sorter's policies unless a sort is pending, and the last update of
every endpoint that is not dirty is right for the state now (`Carries`). Every call keeps it
(`Inv.apply`): the changes of a call mark dirty every endpoint whose update reads what they
change (`Inv.pre`, from `Frames`), and `maybeFlush` sends those endpoints their updates
(`Pre.maybeFlush`).

## Main results

* `PolicyResolver.Inv.apply`, `PolicyResolver.Inv.runFrom`
* `policyResolver_last_update_carries`
* `policyResolver_last_update_stale_types`: a clean update that reorders a policy's types
-/

namespace Felix.Calc

open Replication PolicySorter

variable {EK Ep O X : Type} [DecidableEq EK]

/-! ## The last update of an endpoint -/

section LastFor

theorem lastFor_append (e : EK) (out out' : List (TierUpdate EK Ep O X)) :
    lastFor e (out ++ out') = (lastFor e out').or (lastFor e out) := by
  simp only [lastFor, List.filter_append, List.getLast?_append]

theorem endpointKey_of_lastFor {e : EK} {out : List (TierUpdate EK Ep O X)}
    {u : TierUpdate EK Ep O X} (h : lastFor e out = some u) : u.endpointKey = e := by
  have hmem := List.mem_of_getLast? h
  simpa using (List.mem_filter.mp hmem).2

/-- The last update of `e` among updates sent to a list of endpoints, each its own. -/
theorem lastFor_map {f : EK → TierUpdate EK Ep O X} (hf : ∀ e, (f e).endpointKey = e) (e : EK)
    (l : List EK) : lastFor e (l.map f) = if e ∈ l then some (f e) else none := by
  induction l with
  | nil => rfl
  | cons a l ih =>
    rw [List.map_cons, ← List.singleton_append, lastFor_append, ih]
    by_cases hl : e ∈ l
    · simp [hl]
    · by_cases ha : a = e
      · subst ha
        simp [lastFor, hf, hl]
      · simp [lastFor, hf, hl, ha, Ne.symm ha]

end LastFor

namespace PolicyResolver

variable {pr pr' : PolicyResolver EK Ep O X} {u : TierUpdate EK Ep O X}

/-! ## What an update reads -/

/-- The data the update of `e` reads is the same in `pr'` as in `pr`, up to the sort fields of
its policies: the endpoint, its matches, and the sorter on the policies matched to it. -/
structure Frames (e : EK) (pr pr' : PolicyResolver EK Ep O X) : Prop where
  endpoint : pr'.endpoints.lookup e = pr.endpoints.lookup e
  matched : ∀ k, pr'.endpointIDToPolicyIDs.Mem e k ↔ pr.endpointIDToPolicyIDs.Mem e k
  keeps : KeepsSortFields (pr.endpointIDToPolicyIDs.Mem e) pr.policySorter pr'.policySorter

theorem Frames.of_data {e : EK} (he : pr'.endpoints = pr.endpoints)
    (hm : pr'.endpointIDToPolicyIDs = pr.endpointIDToPolicyIDs)
    (hs : pr'.policySorter = pr.policySorter) : Frames e pr pr' :=
  ⟨by rw [he], fun _ => by rw [hm], keepsSortFields_of_lookup fun _ _ => by rw [hs]⟩

theorem sendEndpointUpdate_key (pr : PolicyResolver EK Ep O X) (e : EK) :
    (pr.sendEndpointUpdate e).endpointKey = e := by
  unfold sendEndpointUpdate
  split <;> rfl

theorem mem_markEndpointsMatchingPolicyDirty {polKey : PolicyKey} {e : EK} :
    e ∈ (pr.markEndpointsMatchingPolicyDirty polKey).dirtyEndpoints ↔
      pr.policyIDToEndpointIDs.Mem polKey e ∨ e ∈ pr.dirtyEndpoints := by
  unfold markEndpointsMatchingPolicyDirty
  exact IterSet.mem_foldl_add

variable [LinearOrder O]

/-- An update stays right across a change its endpoint does not see. -/
theorem Carries.frame (h : Carries pr u) (hf : Frames u.endpointKey pr pr') : Carries pr' u := by
  unfold Carries at h ⊢
  rw [hf.endpoint]
  cases hl : pr.endpoints.lookup u.endpointKey with
  | none =>
    rw [hl] at h
    exact h
  | some endpoint =>
    rw [hl] at h
    exact ⟨h.1, h.2.frame hf.matched hf.keeps⟩

/-- An update read off a tier that lists every policy is right. -/
theorem carries_sendEndpointUpdate
    (htier : ListsPolicies (fun _ => True) pr.sortedTierData.orderedPolicies pr.policySorter)
    (e : EK) : Carries pr (pr.sendEndpointUpdate e) := by
  unfold Carries
  rw [sendEndpointUpdate_key]
  unfold sendEndpointUpdate
  cases hl : pr.endpoints.lookup e with
  | none => exact ⟨rfl, rfl⟩
  | some endpoint =>
    refine ⟨rfl, ?_⟩
    set filtered := pr.sortedTierData.orderedPolicies.filter fun polKV =>
      decide (pr.endpointIDToPolicyIDs.Mem e polKV.key) with hfiltered
    -- one tier with the filtered policies, or none when there are none: the policies either way
    have hpols : TierUpdate.policies ⟨e, some endpoint,
        if filtered.isEmpty then [] else [⟨pr.sortedTierData.name, filtered⟩]⟩ = filtered := by
      by_cases he : filtered.isEmpty
      · rw [if_pos he, List.isEmpty_iff.mp he]
        rfl
      · rw [if_neg he]
        exact List.flatMap_singleton _ _
    rw [hpols, hfiltered]
    exact htier.filter _

/-! ## The invariant -/

variable {hist : List (ResolverOp EK Ep O X)} {out : List (TierUpdate EK Ep O X)}

/-- The invariant of a run `hist` that left the resolver `pr` and sent `out`, between a call's
changes and its flush. -/
structure Pre (hist : List (ResolverOp EK Ep O X)) (pr : PolicyResolver EK Ep O X)
    (out : List (TierUpdate EK Ep O X)) : Prop where
  linked : ∀ e k, pr.endpointIDToPolicyIDs.Mem e k ↔ pr.policyIDToEndpointIDs.Mem k e
  tier : pr.sortRequired = false →
    ListsPolicies (fun _ => True) pr.sortedTierData.orderedPolicies pr.policySorter
  last : ∀ e u, lastFor e out = some u → e ∉ pr.dirtyEndpoints → Carries pr u
  touched : ∀ e, (∃ op ∈ hist, op.Touches e) → e ∈ pr.dirtyEndpoints ∨ (lastFor e out).isSome
  inSync : .onDatamodelStatus .inSync ∈ hist → pr.inSync = true

/-- The invariant after a call: once in sync, nothing is left dirty and no sort pending. -/
structure Inv (hist : List (ResolverOp EK Ep O X)) (pr : PolicyResolver EK Ep O X)
    (out : List (TierUpdate EK Ep O X)) : Prop extends Pre hist pr out where
  synced : pr.inSync = true → (∀ e, e ∉ pr.dirtyEndpoints) ∧ pr.sortRequired = false

theorem inv_new : Inv [] (newPolicyResolver : PolicyResolver EK Ep O X) [] where
  linked e k := by simp [newPolicyResolver, SetMap.Mem]
  tier _ := by
    refine ⟨fun k => ?_, List.nodup_nil, List.Pairwise.nil, fun _ h => absurd h List.not_mem_nil⟩
    simp [newPolicyResolver, newPolicySorter]
  last _ _ h := by cases h
  touched _ h := by simp at h
  inSync h := by simp at h
  synced h := by cases h

/-- Sorting keeps the invariant, and makes the tier list every policy. -/
theorem Pre.refreshSortOrder (h : Pre hist pr out) : Pre hist pr.refreshSortOrder out where
  linked := h.linked
  tier _ := listsPolicies_sorted pr.policySorter
  last e u hl hd := h.last e u hl hd
  touched := h.touched
  inSync := h.inSync

/-- Sending every dirty endpoint its update, off a tier that lists every policy. -/
theorem Pre.flush (h : Pre hist pr out) (hsr : pr.sortRequired = false) :
    Inv hist { pr with dirtyEndpoints := ∅ }
      (out ++ pr.dirtyEndpoints.toList.map pr.sendEndpointUpdate) where
  linked := h.linked
  tier _ := h.tier hsr
  last e u hl hd := by
    rw [lastFor_append, lastFor_map (sendEndpointUpdate_key pr)] at hl
    by_cases he : e ∈ pr.dirtyEndpoints.toList
    · -- sent now: read off the tier
      rw [if_pos he] at hl
      cases hl
      exact carries_sendEndpointUpdate (h.tier hsr) e
    · rw [if_neg he, Option.none_or] at hl
      exact h.last e u hl he
  touched e ht := by
    rw [lastFor_append, lastFor_map (sendEndpointUpdate_key pr)]
    rcases h.touched e ht with hd | hs
    · exact .inr (by rw [if_pos (IterSet.mem_toList.mpr hd)]; rfl)
    · refine .inr ?_
      split
      · rfl
      · simpa using hs
  inSync := h.inSync
  synced _ := ⟨IterSet.not_mem_empty, hsr⟩

/-- `maybeFlush` turns the invariant between a call's changes and its flush into the invariant
after the call. -/
theorem Pre.maybeFlush (h : Pre hist pr out) :
    Inv hist pr.maybeFlush.1 (out ++ pr.maybeFlush.2) := by
  unfold PolicyResolver.maybeFlush
  split
  · next hsync =>
    by_cases hsr : pr.sortRequired
    · rw [if_pos hsr]
      exact h.refreshSortOrder.flush rfl
    · rw [if_neg hsr]
      exact h.flush (by simpa using hsr)
  · next hsync =>
    rw [List.append_nil]
    exact ⟨h, fun h' => absurd h' hsync⟩

/-- A call keeps the invariant up to its flush when its changes keep the match maps inverse
and the tier right, mark dirty the endpoints it touches and every endpoint whose update reads
what they change, and leave the datastore in sync once it has been. -/
theorem Inv.pre {op : ResolverOp EK Ep O X} {pr₁ : PolicyResolver EK Ep O X}
    (h : Inv hist pr out)
    (hlinked : ∀ e k, pr₁.endpointIDToPolicyIDs.Mem e k ↔ pr₁.policyIDToEndpointIDs.Mem k e)
    (htier : pr₁.sortRequired = false →
      ListsPolicies (fun _ => True) pr₁.sortedTierData.orderedPolicies pr₁.policySorter)
    (hclean : ∀ e, e ∉ pr₁.dirtyEndpoints → e ∉ pr.dirtyEndpoints ∧ Frames e pr pr₁)
    (hdirty : ∀ e, e ∈ pr.dirtyEndpoints ∨ op.Touches e → e ∈ pr₁.dirtyEndpoints)
    (hsync : .onDatamodelStatus .inSync ∈ hist ++ [op] → pr₁.inSync = true) :
    Pre (hist ++ [op]) pr₁ out where
  linked := hlinked
  tier := htier
  last e u hl hd := by
    obtain ⟨hd', hf⟩ := hclean e hd
    exact Carries.frame (h.last e u hl hd') (endpointKey_of_lastFor hl ▸ hf)
  touched e := by
    rintro ⟨op', hop', ht⟩
    rcases List.mem_append.mp hop' with hop' | hop'
    · rcases h.touched e ⟨op', hop', ht⟩ with hd | hs
      · exact .inl (hdirty e (.inl hd))
      · exact .inr hs
    · rw [List.mem_singleton] at hop'
      subst hop'
      exact .inl (hdirty e (.inr ht))
  inSync := hsync

/-! ## One call -/

section Calls

variable (h : Inv hist pr out)
include h

theorem Inv.onEndpoint (key : EK) (value : Option Ep) :
    Inv (hist ++ [.onUpdate (.endpoint key value)]) (pr.onUpdate (.endpoint key value)).1
      (out ++ (pr.onUpdate (.endpoint key value)).2) := by
  refine Pre.maybeFlush (h.pre h.linked h.tier (fun e he => ?_) (fun e he => ?_) fun hs => ?_)
  · -- another endpoint: its record is untouched
    simp only [IterSet.mem_add, not_or] at he
    refine ⟨he.2, ⟨?_, fun _ => Iff.rfl, keepsSortFields_of_lookup fun _ _ => rfl⟩⟩
    cases value with
    | some endpoint => exact AList.lookup_insert_ne he.1
    | none => exact AList.lookup_erase_ne he.1
  · rcases he with he | he
    · exact IterSet.mem_add.mpr (.inr he)
    · exact IterSet.mem_add.mpr (.inl he)
  · exact h.inSync (by simpa [ResolverOp.Touches] using hs)

theorem Inv.onPolicy (key : PolicyKey) (value : Option (PolicyData O X)) :
    Inv (hist ++ [.onUpdate (.policy key value)]) (pr.onUpdate (.policy key value)).1
      (out ++ (pr.onUpdate (.policy key value)).2) := by
  simp only [PolicyResolver.onUpdate]
  rcases hsd : pr.policySorter.onUpdate key value with ⟨s', dirty⟩
  dsimp only
  have hkeep := onUpdate_keepsSortFields hsd
  have hsync : ResolverOp.onDatamodelStatus .inSync ∈ hist ++ [.onUpdate (.policy key value)] →
      pr.inSync = true := fun hs => h.inSync (by simpa using hs)
  cases dirty with
  | false =>
    -- a clean update: the sorted tier and every update sent keep their sort fields
    have hall : KeepsSortFields (fun _ => True) pr.policySorter s' :=
      KeepsSortFields.mono hkeep fun _ _ => .inl rfl
    refine Pre.maybeFlush (h.pre h.linked (fun hsr => ?_) (fun e he => ?_) (fun e he => ?_) hsync)
    · exact (h.tier (by simpa using hsr)).frame (fun _ => Iff.rfl) hall
    · exact ⟨he, ⟨rfl, fun _ => Iff.rfl, KeepsSortFields.mono hall fun _ _ => trivial⟩⟩
    · exact he.resolve_right id
  | true =>
    -- a dirty update: the endpoints the policy matches are marked, and the others do not read it
    simp only [if_true]
    refine Pre.maybeFlush (h.pre h.linked (fun hsr => absurd hsr (by simp)) (fun e he => ?_)
      (fun e he => ?_) hsync)
    · rw [mem_markEndpointsMatchingPolicyDirty, not_or] at he
      refine ⟨he.2, ⟨rfl, fun _ => Iff.rfl, KeepsSortFields.mono hkeep fun k hk => .inr ?_⟩⟩
      rintro rfl
      exact he.1 ((h.linked e k).mp hk)
    · exact mem_markEndpointsMatchingPolicyDirty.mpr (.inr (he.resolve_right id))

theorem Inv.onPolicyMatch (policyKey : PolicyKey) (endpointKey : EK) :
    Inv (hist ++ [.onPolicyMatch policyKey endpointKey]) (pr.onPolicyMatch policyKey endpointKey).1
      (out ++ (pr.onPolicyMatch policyKey endpointKey).2) := by
  refine Pre.maybeFlush (h.pre (fun e k => ?_) h.tier (fun e he => ?_) (fun e he => ?_)
    fun hs => ?_)
  · simp only [SetMap.mem_put, h.linked e k]
    tauto
  · simp only [IterSet.mem_add, not_or] at he
    refine ⟨he.2, ⟨rfl, fun k => ?_, keepsSortFields_of_lookup fun _ _ => rfl⟩⟩
    simp [SetMap.mem_put, he.1]
  · rcases he with he | he
    · exact IterSet.mem_add.mpr (.inr he)
    · exact IterSet.mem_add.mpr (.inl he)
  · exact h.inSync (by simpa using hs)

theorem Inv.onPolicyMatchStopped (policyKey : PolicyKey) (endpointKey : EK) :
    Inv (hist ++ [.onPolicyMatchStopped policyKey endpointKey])
      (pr.onPolicyMatchStopped policyKey endpointKey).1
      (out ++ (pr.onPolicyMatchStopped policyKey endpointKey).2) := by
  refine Pre.maybeFlush (h.pre (fun e k => ?_) h.tier (fun e he => ?_) (fun e he => ?_)
    fun hs => ?_)
  · simp only [SetMap.mem_discard, h.linked e k]
    tauto
  · simp only [IterSet.mem_add, not_or] at he
    refine ⟨he.2, ⟨rfl, fun k => ?_, keepsSortFields_of_lookup fun _ _ => rfl⟩⟩
    simp [SetMap.mem_discard, he.1]
  · rcases he with he | he
    · exact IterSet.mem_add.mpr (.inr he)
    · exact IterSet.mem_add.mpr (.inl he)
  · exact h.inSync (by simpa using hs)

theorem Inv.onDatamodelStatus (status : SyncStatus) :
    Inv (hist ++ [.onDatamodelStatus status]) (pr.onDatamodelStatus status).1
      (out ++ (pr.onDatamodelStatus status).2) := by
  unfold PolicyResolver.onDatamodelStatus
  split
  · next hs =>
    subst hs
    exact Pre.maybeFlush (h.pre h.linked h.tier (fun e he => ⟨he, .of_data rfl rfl rfl⟩)
      (fun e he => he.resolve_right id) fun _ => rfl)
  · next hs =>
    rw [List.append_nil]
    have hpre : Pre (hist ++ [.onDatamodelStatus status]) pr out := h.pre h.linked h.tier
      (fun e he => ⟨he, .of_data rfl rfl rfl⟩) (fun e he => he.resolve_right id) fun hi => by
        rcases List.mem_append.mp hi with hi | hi
        · exact h.inSync hi
        · simp only [List.mem_singleton, ResolverOp.onDatamodelStatus.injEq] at hi
          exact absurd hi.symm hs
    exact ⟨hpre, h.synced⟩

end Calls

/-- **One call** keeps the invariant. -/
theorem Inv.apply (h : Inv hist pr out) (op : ResolverOp EK Ep O X) :
    Inv (hist ++ [op]) (pr.apply op).1 (out ++ (pr.apply op).2) := by
  cases op with
  | onUpdate update =>
    cases update with
    | endpoint key value => exact h.onEndpoint key value
    | policy key value => exact h.onPolicy key value
  | onPolicyMatch policyKey endpointKey => exact h.onPolicyMatch policyKey endpointKey
  | onPolicyMatchStopped policyKey endpointKey => exact h.onPolicyMatchStopped policyKey endpointKey
  | onDatamodelStatus status => exact h.onDatamodelStatus status

/-- **A run** keeps the invariant. -/
theorem Inv.runFrom (h : Inv hist pr out) (ops : List (ResolverOp EK Ep O X)) :
    Inv (hist ++ ops) (runFrom ops pr).1 (out ++ (runFrom ops pr).2) := by
  induction ops generalizing hist pr out with
  | nil => simpa [PolicyResolver.runFrom, forEachPure] using h
  | cons op ops ih =>
    have h' := ih (h.apply op)
    simpa [PolicyResolver.runFrom, forEachPure, List.append_assoc] using h'

end PolicyResolver

variable [LinearOrder O]

/-- **The endpoint updates of `PolicyResolver`.** In every run from `NewPolicyResolver` in
which the datastore has come in sync, every endpoint a call has marked dirty has been sent an
update, and the last one is right for the state the run ends in: `nil` and no tiers for an
unknown endpoint, and otherwise the endpoint and exactly the known policies matched to it, each
once, in `PolicyByOrder` order, with the order, `DoNotTrack`, `PreDNAT` and `ApplyOnForward`
the policy has now and types with the same members (`nil` exactly when its types are). -/
theorem policyResolver_last_update_carries (ops : List (ResolverOp EK Ep O X))
    (hsync : .onDatamodelStatus .inSync ∈ ops) (e : EK) (htouch : ∃ op ∈ ops, op.Touches e) :
    ∃ u, lastFor e (PolicyResolver.runFrom ops newPolicyResolver).2 = some u ∧
      Carries (PolicyResolver.runFrom ops newPolicyResolver).1 u := by
  have h := PolicyResolver.inv_new.runFrom ops
  rw [List.nil_append, List.nil_append] at h
  obtain ⟨hclean, -⟩ := h.synced (h.inSync hsync)
  rcases h.touched e htouch with hd | hs
  · exact absurd hd (hclean e)
  · obtain ⟨u, hu⟩ := Option.isSome_iff_exists.mp hs
    exact ⟨u, hu, h.last e u hu (hclean e)⟩

/-- A run in sync: endpoint `1` and policy `p`, matched, and then an update of `p` that only
reorders its types. -/
def staleTypesRun : List (ResolverOp ℕ Unit ℕ Unit) :=
  [.onDatamodelStatus .inSync,
    .onUpdate (.endpoint 1 (some ())),
    .onUpdate (.policy ⟨"p"⟩ (some ⟨none, some ["ingress", "egress"], false, false, false, ()⟩)),
    .onPolicyMatch ⟨"p"⟩ 1,
    .onUpdate (.policy ⟨"p"⟩ (some ⟨none, some ["egress", "ingress"], false, false, false, ()⟩))]

theorem policyResolver_last_update_carries_staleTypesRun :
    ∃ u, lastFor 1 (PolicyResolver.runFrom staleTypesRun newPolicyResolver).2 = some u ∧
      Carries (PolicyResolver.runFrom staleTypesRun newPolicyResolver).1 u :=
  policyResolver_last_update_carries staleTypesRun (by decide) 1
    ⟨.onUpdate (.endpoint 1 (some ())), by decide, rfl⟩

/-- The clean update of `p` is not sent: the last update of endpoint `1` carries `p` with the
types it had before, not the list it has now. -/
theorem policyResolver_last_update_stale_types :
    ∃ u, lastFor 1 (PolicyResolver.runFrom staleTypesRun newPolicyResolver).2 = some u ∧
      u.policies.map (·.value.types) = [some ["ingress", "egress"]] ∧
      ((PolicyResolver.runFrom staleTypesRun newPolicyResolver).1.policySorter.policies.lookup
        ⟨"p"⟩).map (·.types) = some (some ["egress", "ingress"]) := by
  refine ⟨_, rfl, ?_, ?_⟩ <;> decide +kernel

end Felix.Calc
