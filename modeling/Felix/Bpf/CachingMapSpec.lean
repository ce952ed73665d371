import Felix.Bpf.CachingMap

/-!
# What the caching map's pending operations hold

Once its cache is loaded, a `CachingMap` keeps, key by key, three facts about its maps
(`TrackedAt`): the cache holds what the dataplane map holds; a key has a pending update, with
the desired value, iff that value is desired and `slicesEqual` finds it different from the
cached one; and a key has a pending deletion iff it is cached and not desired. Loading the
cache establishes these facts, and every operation keeps them, whichever dataplane calls fail
(`Tracks.apply`), so they hold after every run (`Tracks.runFrom`). An `ApplyAllChanges` that
returns `nil` leaves nothing pending, and the cache then agrees with the desired state as far
as `slicesEqual` can tell.

`slicesEqual` reads a missing value as the empty slice. So for values of non-zero size
(every BPF map the code creates) a pending update is exactly a desired value the dataplane
does not hold, and the dataplane then equals the desired map; for values of size zero, a
desired key missing from the dataplane is never written.

## Main definitions

* `TrackedAt`, `Tracked`: the three facts at one key, and at every key
* `Tracks`: a loaded cache is tracked

## Main results

* `recalculatePendingOperations_tracked`: a load establishes the facts
* `Tracks.apply`, `Tracks.runFrom`: every operation, and every run, keeps them
* `cachingMap_pending_operations`: for values of non-zero size, the pending maps hold the
  differences between the desired state and the dataplane, and `ApplyAllChanges` returning
  `nil` brings the dataplane to the desired state
-/

namespace Felix.Bpf

/-! ## Slices and loops over a map's entries -/

theorem slicesEqual_cons (x y : UInt8) (a b : List UInt8) :
    slicesEqual (x :: a) (y :: b) = (y == x && slicesEqual a b) := by
  simp only [slicesEqual, List.length_cons, List.zip_cons_cons, List.all_cons]
  cases y == x <;> simp

/-- `slicesEqual` is equality of slices. -/
theorem slicesEqual_iff : ∀ {a b : List UInt8}, slicesEqual a b = true ↔ a = b
  | [], [] => by decide
  | [], _ :: _ => by simp [slicesEqual]
  | _ :: _, [] => by simp [slicesEqual]
  | x :: a, y :: b => by
    rw [slicesEqual_cons, Bool.and_eq_true, beq_iff_eq, slicesEqual_iff, List.cons.injEq, eq_comm]

@[simp]
theorem slicesEqual_self (a : List UInt8) : slicesEqual a a = true := slicesEqual_iff.mpr rfl

variable {α β : Type*} [DecidableEq α]

/-- A loop that inserts the entries of a list that pass a test: with distinct keys, a key ends
up with its entry if that passed, and otherwise keeps what it had. -/
theorem lookup_foldl_insert_if (p : (Σ _ : α, β) → Prop) [DecidablePred p] (k : α) :
    ∀ {l : List (Σ _ : α, β)} (m : AList fun _ : α => β), l.NodupKeys →
      (l.foldl (fun m kv => if p kv then m.insert kv.1 kv.2 else m) m).lookup k =
        ((l.dlookup k).filter fun v => decide (p ⟨k, v⟩)).or (m.lookup k)
  | [], m, _ => by simp
  | ⟨k', v'⟩ :: l, m, hl => by
    obtain ⟨hkv, hl⟩ := List.nodupKeys_cons.mp hl
    rw [List.foldl_cons, lookup_foldl_insert_if p k _ hl]
    by_cases hk : k = k'
    · -- the later entries have other keys: what the loop leaves at k is this turn's
      subst hk
      rw [List.dlookup_eq_none.mpr hkv, List.dlookup_cons_eq]
      by_cases hp : p ⟨k, v'⟩ <;> simp [Option.filter_some, hp]
    · rw [List.dlookup_cons_ne _ _ hk]
      split_ifs
      · rw [AList.lookup_insert_ne hk]
      · rfl

namespace CachingMap

/-- The loop of an `Apply` method is the loop of its successful calls, and its errors are
those of the failed ones. -/
theorem foldl_tryCall {σ α : Type} (failed : α → Bool) (err : MapError) (change : σ → α → σ) :
    ∀ (l : List α) (st : σ × List MapError),
      l.foldl (fun st a => tryCall (failed a) err (change st.1 a) st) st =
        ((l.filter fun a => !failed a).foldl change st.1,
          st.2 ++ (l.filter failed).map fun _ => err)
  | [], st => by simp
  | a :: l, st => by
    rw [List.foldl_cons, foldl_tryCall failed err change l]
    cases h : failed a <;> simp [tryCall, h]

variable {keySize valueSize : ℕ}

/-! ## The facts a loaded cache keeps -/

section Tracked

variable (desired : ByteArrayToByteArrayMap keySize valueSize)
  (dc : DataplaneCache keySize valueSize) (dataplane : ByteArrayToByteArrayMap keySize valueSize)

/-- What a loaded cache keeps at one key: the dataplane's value, a pending update iff the
desired value differs (as `slicesEqual` compares) from the cached one, and a pending deletion
iff the key is cached and not desired. -/
structure TrackedAt (k : Vector UInt8 keySize) : Prop where
  cache : dc.cacheOfDataplane.lookup k = dataplane.lookup k
  updates : ∀ v, dc.pendingUpdates.lookup k = some v ↔
    desired.lookup k = some v ∧ slicesEqual ((dc.cacheOfDataplane.get k).getD []) v.toList = false
  deletions : k ∈ dc.pendingDeletions ↔ k ∈ dc.cacheOfDataplane ∧ k ∉ desired

/-- `TrackedAt` at every key. -/
def Tracked : Prop := ∀ k, TrackedAt desired dc dataplane k

end Tracked

/-- The cache, when loaded, is tracked against the dataplane map. -/
def Tracks (c : CachingMap keySize valueSize) (dataplane : ByteArrayToByteArrayMap keySize valueSize) :
    Prop :=
  ∀ dc, c.cache = some dc → Tracked c.desiredStateOfDataplane dc dataplane

variable {desired desired' : ByteArrayToByteArrayMap keySize valueSize}
  {dc dc' : DataplaneCache keySize valueSize}
  {dataplane dataplane' : ByteArrayToByteArrayMap keySize valueSize} {k : Vector UInt8 keySize}

omit [DecidableEq α] in
theorem mem_iff_of_lookup {m m' : AList fun _ : α => β} {a : α} [DecidableEq α]
    (h : m'.lookup a = m.lookup a) : a ∈ m' ↔ a ∈ m := by
  rw [← AList.lookup_isSome, ← AList.lookup_isSome, h]

/-- What holds at a key depends only on what the maps hold there. -/
theorem TrackedAt.congr (h : TrackedAt desired dc dataplane k)
    (hd : desired'.lookup k = desired.lookup k)
    (hc : dc'.cacheOfDataplane.lookup k = dc.cacheOfDataplane.lookup k)
    (hu : dc'.pendingUpdates.lookup k = dc.pendingUpdates.lookup k)
    (hdel : dc'.pendingDeletions.lookup k = dc.pendingDeletions.lookup k)
    (hdp : dataplane'.lookup k = dataplane.lookup k) : TrackedAt desired' dc' dataplane' k where
  cache := by rw [hc, hdp, h.cache]
  updates v := by
    simp only [ByteArrayToByteArrayMap.get, hu, hd, hc]
    exact h.updates v
  deletions := by
    rw [mem_iff_of_lookup hdel, mem_iff_of_lookup hc, mem_iff_of_lookup hd]
    exact h.deletions

/-- `recalculatePendingOperations` over the cache just read from the dataplane. -/
theorem recalculatePendingOperations_tracked (desired dataplane : ByteArrayToByteArrayMap keySize valueSize) :
    Tracked desired (recalculatePendingOperations desired dataplane) dataplane := by
  intro k
  -- both loops are loops of conditional inserts over a map's entries
  have hupd : (fun (pendingUpdates : ByteArrayToByteArrayMap keySize valueSize)
      (kv : Σ _ : Vector UInt8 keySize, Vector UInt8 valueSize) =>
        if slicesEqual ((dataplane.get kv.1).getD []) kv.2.toList then pendingUpdates
        else pendingUpdates.insert kv.1 kv.2) =
      fun pendingUpdates kv =>
        if ¬slicesEqual ((dataplane.get kv.1).getD []) kv.2.toList = true then
          pendingUpdates.insert kv.1 kv.2
        else pendingUpdates := by
    funext pendingUpdates kv
    exact (ite_not _ _ _).symm
  refine ⟨rfl, fun v => ?_, ?_⟩
  · simp only [recalculatePendingOperations, hupd]
    rw [lookup_foldl_insert_if _ k _ desired.nodupKeys, AList.lookup_empty, Option.or_none,
      Option.filter_eq_some_iff]
    simp [AList.lookup]
  · simp only [recalculatePendingOperations]
    rw [← AList.lookup_isSome, lookup_foldl_insert_if _ k _ dataplane.nodupKeys,
      AList.lookup_empty, Option.or_none, ← AList.lookup_eq_none]
    change ((dataplane.lookup k).filter _).isSome ↔ _
    rw [← AList.lookup_isSome]
    cases dataplane.lookup k <;> simp [ByteArrayToByteArrayMap.get]

/-! ## The desired state changes key by key -/

section Desired

variable (c : CachingMap keySize valueSize) (k : Vector UInt8 keySize)

@[simp]
theorem setDesired_desiredStateOfDataplane (v : Vector UInt8 valueSize) :
    (c.setDesired k v).desiredStateOfDataplane = c.desiredStateOfDataplane.insert k v := by
  unfold setDesired
  split
  · rfl
  · split <;> rfl

@[simp]
theorem deleteDesired_desiredStateOfDataplane :
    (c.deleteDesired k).desiredStateOfDataplane = c.desiredStateOfDataplane.erase k := by
  unfold deleteDesired
  split
  · rfl
  · split <;> rfl

end Desired

variable {c : CachingMap keySize valueSize}

theorem Tracks.setDesired (h : Tracks c dataplane) (k : Vector UInt8 keySize)
    (v : Vector UInt8 valueSize) : Tracks (c.setDesired k v) dataplane := by
  intro dc' hdc' j
  rw [setDesired_desiredStateOfDataplane]
  rcases hc : c.cache with _ | dc
  · simp [CachingMap.setDesired, hc] at hdc'
  have ht := h dc hc j
  simp only [CachingMap.setDesired, hc] at hdc'
  by_cases hj : j = k
  · -- the key set: no deletion is pending, an update iff the cached value differs
    subst hj
    have hdel : j ∈ dc.pendingDeletions.erase j ↔
        j ∈ dc.cacheOfDataplane ∧ j ∉ c.desiredStateOfDataplane.insert j v := by
      simp [AList.mem_erase, AList.mem_insert]
    split_ifs at hdc' with heq <;> cases hdc'
    · refine ⟨ht.cache, fun w => ?_, hdel⟩
      rw [AList.lookup_erase, AList.lookup_insert]
      simp only [reduceCtorEq, false_iff, not_and, Option.some.injEq]
      rintro rfl
      simp [heq]
    · refine ⟨ht.cache, fun w => ?_, hdel⟩
      rw [AList.lookup_insert, AList.lookup_insert]
      refine ⟨fun hw => ⟨hw, ?_⟩, fun hw => hw.1⟩
      cases hw
      simpa using heq
  · split_ifs at hdc' <;> cases hdc'
    · exact ht.congr (AList.lookup_insert_ne hj) rfl (AList.lookup_erase_ne hj)
        (AList.lookup_erase_ne hj) rfl
    · exact ht.congr (AList.lookup_insert_ne hj) rfl (AList.lookup_insert_ne hj)
        (AList.lookup_erase_ne hj) rfl

theorem Tracks.deleteDesired (h : Tracks c dataplane) (k : Vector UInt8 keySize) :
    Tracks (c.deleteDesired k) dataplane := by
  intro dc' hdc' j
  rw [deleteDesired_desiredStateOfDataplane]
  rcases hc : c.cache with _ | dc
  · simp [CachingMap.deleteDesired, hc] at hdc'
  have ht := h dc hc j
  simp only [CachingMap.deleteDesired, hc] at hdc'
  by_cases hj : j = k
  · -- the key deleted: no update is pending, a deletion iff the key is cached
    subst hj
    have hupd : ∀ w, (dc.pendingUpdates.erase j).lookup j = some w ↔
        (c.desiredStateOfDataplane.erase j).lookup j = some w ∧
          slicesEqual ((dc.cacheOfDataplane.get j).getD []) w.toList = false := by
      simp [AList.lookup_erase]
    split at hdc' <;> cases hdc'
    · refine ⟨ht.cache, hupd, ?_⟩
      simp [AList.mem_erase, ← AList.lookup_eq_none, *]
    · refine ⟨ht.cache, hupd, ?_⟩
      simp [← AList.lookup_isSome, *]
  · split at hdc' <;> cases hdc'
    · exact ht.congr (AList.lookup_erase_ne hj) rfl (AList.lookup_erase_ne hj)
        (AList.lookup_erase_ne hj) rfl
    · exact ht.congr (AList.lookup_erase_ne hj) rfl (AList.lookup_erase_ne hj)
        (AList.lookup_insert_ne hj) rfl

theorem Tracks.deleteAllDesired (h : Tracks c dataplane) : Tracks c.deleteAllDesired dataplane := by
  unfold CachingMap.deleteAllDesired
  generalize c.desiredStateOfDataplane.keys = ks
  induction ks generalizing c with
  | nil => exact h
  | cons k ks ih => exact ih (h.deleteDesired k)

/-! ## Successful calls to the dataplane keep the facts -/

section Calls

variable {st : DataplaneCache keySize valueSize × ByteArrayToByteArrayMap keySize valueSize}
  {kv : Σ _ : Vector UInt8 keySize, Vector UInt8 valueSize}

/-- A desired value written to the dataplane is cached, and no longer pending. -/
theorem Tracked.updated (h : Tracked desired st.1 st.2) (hk : desired.lookup kv.1 = some kv.2) :
    Tracked desired (updated st kv).1 (updated st kv).2 := by
  intro j
  have ht := h j
  by_cases hj : j = kv.1
  · subst hj
    refine ⟨by simp [CachingMap.updated], fun w => ?_, ?_⟩
    · simp only [CachingMap.updated, AList.lookup_erase, reduceCtorEq, false_iff, not_and, hk,
        Option.some.injEq]
      rintro rfl
      simp [ByteArrayToByteArrayMap.get]
    · -- the key is desired, so no deletion of it was pending
      have hmem : kv.1 ∈ desired := AList.lookup_isSome.mp (by rw [hk]; rfl)
      simpa [CachingMap.updated, hmem] using ht.deletions
  · exact ht.congr rfl (AList.lookup_insert_ne hj) (AList.lookup_erase_ne hj) rfl
      (AList.lookup_insert_ne hj)

/-- A key deleted from the dataplane is no longer cached, and no longer pending. -/
theorem Tracked.deleted (h : Tracked desired st.1 st.2) (hk : kv.1 ∉ desired) :
    Tracked desired (deleted st kv).1 (deleted st kv).2 := by
  intro j
  have ht := h j
  by_cases hj : j = kv.1
  · subst hj
    refine ⟨by simp [CachingMap.deleted], fun w => ?_, by simp [CachingMap.deleted]⟩
    -- the key is not desired, so no update of it was pending
    have hnone : desired.lookup kv.1 = none := AList.lookup_eq_none.mpr hk
    simpa [CachingMap.deleted, hnone] using ht.updates w
  · exact ht.congr rfl (AList.lookup_erase_ne hj) rfl (AList.lookup_erase_ne hj)
      (AList.lookup_erase_ne hj)

theorem Tracked.foldl_updated : ∀ {l : List (Σ _ : Vector UInt8 keySize, Vector UInt8 valueSize)}
    {st : DataplaneCache keySize valueSize × ByteArrayToByteArrayMap keySize valueSize},
    Tracked desired st.1 st.2 → (∀ kv ∈ l, desired.lookup kv.1 = some kv.2) →
      Tracked desired (l.foldl CachingMap.updated st).1 (l.foldl CachingMap.updated st).2
  | [], _, h, _ => h
  | kv :: _, _, h, hl => by
    rw [List.foldl_cons]
    exact Tracked.foldl_updated (h.updated (hl kv List.mem_cons_self))
      fun kv' hkv' => hl kv' (List.mem_cons_of_mem _ hkv')

theorem Tracked.foldl_deleted : ∀ {l : List (Σ _ : Vector UInt8 keySize, Vector UInt8 valueSize)}
    {st : DataplaneCache keySize valueSize × ByteArrayToByteArrayMap keySize valueSize},
    Tracked desired st.1 st.2 → (∀ kv ∈ l, kv.1 ∉ desired) →
      Tracked desired (l.foldl CachingMap.deleted st).1 (l.foldl CachingMap.deleted st).2
  | [], _, h, _ => h
  | kv :: _, _, h, hl => by
    rw [List.foldl_cons]
    exact Tracked.foldl_deleted (h.deleted (hl kv List.mem_cons_self))
      fun kv' hkv' => hl kv' (List.mem_cons_of_mem _ hkv')

theorem foldl_updated_pendingDeletions :
    ∀ (l : List (Σ _ : Vector UInt8 keySize, Vector UInt8 valueSize))
      (st : DataplaneCache keySize valueSize × ByteArrayToByteArrayMap keySize valueSize),
      (l.foldl updated st).1.pendingDeletions = st.1.pendingDeletions
  | [], _ => rfl
  | kv :: l, st => foldl_updated_pendingDeletions l (updated st kv)

/-- The updates made drop their own keys from the pending updates. -/
theorem mem_foldl_updated_pendingUpdates (j : Vector UInt8 keySize) :
    ∀ (l : List (Σ _ : Vector UInt8 keySize, Vector UInt8 valueSize))
      (st : DataplaneCache keySize valueSize × ByteArrayToByteArrayMap keySize valueSize),
      j ∈ (l.foldl updated st).1.pendingUpdates ↔ j ∈ st.1.pendingUpdates ∧ j ∉ l.keys
  | [], st => by simp
  | kv :: l, st => by
    rw [List.foldl_cons, mem_foldl_updated_pendingUpdates j l]
    simp only [CachingMap.updated, AList.mem_erase, List.keys_cons, List.mem_cons, not_or]
    tauto

/-- The deletions made drop their own keys from the pending deletions. -/
theorem mem_foldl_deleted_pendingDeletions (j : Vector UInt8 keySize) :
    ∀ (l : List (Σ _ : Vector UInt8 keySize, Vector UInt8 valueSize))
      (st : DataplaneCache keySize valueSize × ByteArrayToByteArrayMap keySize valueSize),
      j ∈ (l.foldl deleted st).1.pendingDeletions ↔ j ∈ st.1.pendingDeletions ∧ j ∉ l.keys
  | [], st => by simp
  | kv :: l, st => by
    rw [List.foldl_cons, mem_foldl_deleted_pendingDeletions j l]
    simp only [CachingMap.deleted, AList.mem_erase, List.keys_cons, List.mem_cons, not_or]
    tauto

end Calls

/-! ## Loading the cache -/

section Load

variable (f : Failures keySize) (dataplane : ByteArrayToByteArrayMap keySize valueSize)

theorem loadCacheFromDataplane_tracks (c : CachingMap keySize valueSize) :
    Tracks (c.loadCacheFromDataplane f dataplane).1 dataplane := by
  intro dc hdc
  unfold CachingMap.loadCacheFromDataplane at hdc ⊢
  -- a failed read leaves no cache; a successful one is a fresh load
  split_ifs at hdc ⊢
  cases hdc
  exact recalculatePendingOperations_tracked _ _

@[simp]
theorem loadCacheFromDataplane_desiredStateOfDataplane (c : CachingMap keySize valueSize) :
    (c.loadCacheFromDataplane f dataplane).1.desiredStateOfDataplane = c.desiredStateOfDataplane := by
  unfold CachingMap.loadCacheFromDataplane
  split_ifs <;> rfl

theorem maybeLoadCache_of_cache (hc : c.cache = some dc) : c.maybeLoadCache f dataplane = (c, none) := by
  simp [CachingMap.maybeLoadCache, hc]

/-- A load that reports no error leaves the cache loaded. -/
theorem maybeLoadCache_loaded (c : CachingMap keySize valueSize)
    (h : (c.maybeLoadCache f dataplane).2 = none) :
    ∃ dc, (c.maybeLoadCache f dataplane).1.cache = some dc := by
  rcases hc : c.cache with _ | dc
  · simp only [CachingMap.maybeLoadCache, CachingMap.loadCacheFromDataplane, hc] at h ⊢
    split_ifs at h ⊢
    exact ⟨_, rfl⟩
  · exact ⟨dc, by simp [CachingMap.maybeLoadCache, hc]⟩

theorem Tracks.maybeLoadCache (h : Tracks c dataplane) :
    Tracks (c.maybeLoadCache f dataplane).1 dataplane ∧
      (c.maybeLoadCache f dataplane).1.desiredStateOfDataplane = c.desiredStateOfDataplane := by
  unfold CachingMap.maybeLoadCache
  split
  · exact ⟨loadCacheFromDataplane_tracks f dataplane c,
      loadCacheFromDataplane_desiredStateOfDataplane f dataplane c⟩
  · exact ⟨h, rfl⟩

end Load

/-! ## The loops of the `Apply` methods -/

section Apply

variable (pending : DataplaneCache keySize valueSize → ByteArrayToByteArrayMap keySize valueSize)
  (failed : (Σ _ : Vector UInt8 keySize, Vector UInt8 valueSize) → Bool) (err : MapError)
  (change : DataplaneCache keySize valueSize × ByteArrayToByteArrayMap keySize valueSize →
    (Σ _ : Vector UInt8 keySize, Vector UInt8 valueSize) →
      DataplaneCache keySize valueSize × ByteArrayToByteArrayMap keySize valueSize)
  (f : Failures keySize)

theorem errsToError_eq_none {errs : List MapError} : errsToError errs = none ↔ errs = [] := by
  unfold errsToError
  split_ifs with h <;> simp_all

/-- On a loaded cache, the successful calls are made and the failed ones reported. -/
theorem applyPending_of_cache (hc : c.cache = some dc) :
    c.applyPending pending (fun st kv => tryCall (failed kv) err (change st.1 kv) st) f dataplane =
      let r := ((pending dc).entries.filter fun kv => !failed kv).foldl change (dc, dataplane)
      ({ c with cache := some r.1 }, r.2,
        errsToError (((pending dc).entries.filter failed).map fun _ => err)) := by
  unfold applyPending
  rw [maybeLoadCache_of_cache f dataplane hc]
  simp only [hc]
  rw [foldl_tryCall]
  rfl

theorem applyPending_of_load {turn} {c' : CachingMap keySize valueSize}
    (h : c.maybeLoadCache f dataplane = (c', none)) :
    c.applyPending pending turn f dataplane = c'.applyPending pending turn f dataplane := by
  obtain ⟨dc, hc⟩ := maybeLoadCache_loaded f dataplane c (by rw [h])
  rw [h] at hc
  unfold applyPending
  rw [h, maybeLoadCache_of_cache f dataplane hc]

theorem applyPending_of_error {turn} {c' : CachingMap keySize valueSize} {e : MapError}
    (h : c.maybeLoadCache f dataplane = (c', some e)) :
    c.applyPending pending turn f dataplane = (c', dataplane, some e) := by
  unfold applyPending
  rw [h]

/-- The loop keeps the facts when its successful calls do, on any part of the pending map. -/
theorem Tracks.applyPending (h : Tracks c dataplane)
    (hchange : ∀ dc dp (l : List (Σ _ : Vector UInt8 keySize, Vector UInt8 valueSize)),
      Tracked c.desiredStateOfDataplane dc dp → (∀ kv ∈ l, kv ∈ (pending dc).entries) →
        Tracked c.desiredStateOfDataplane (l.foldl change (dc, dp)).1 (l.foldl change (dc, dp)).2) :
    Tracks (c.applyPending pending (fun st kv => tryCall (failed kv) err (change st.1 kv) st) f
        dataplane).1
      (c.applyPending pending (fun st kv => tryCall (failed kv) err (change st.1 kv) st) f
        dataplane).2.1 ∧
      (c.applyPending pending (fun st kv => tryCall (failed kv) err (change st.1 kv) st) f
        dataplane).1.desiredStateOfDataplane = c.desiredStateOfDataplane := by
  obtain ⟨ht, hdes⟩ := h.maybeLoadCache f dataplane
  have hloaded := maybeLoadCache_loaded f dataplane c
  rcases hm : c.maybeLoadCache f dataplane with ⟨c', _ | e⟩
  · rw [hm] at ht hdes hloaded
    obtain ⟨dc, hc⟩ := hloaded rfl
    rw [applyPending_of_load pending f hm, applyPending_of_cache pending failed err change f hc]
    refine ⟨fun dc' hdc' => ?_, hdes⟩
    cases hdc'
    -- the calls made are some of the pending map's
    dsimp only
    rw [hdes]
    exact hchange dc dataplane _ (hdes ▸ ht dc hc) fun kv hkv => List.mem_of_mem_filter hkv
  · rw [hm] at ht hdes
    rw [applyPending_of_error pending f hm]
    exact ⟨ht, hdes⟩

/-- A loop that reports no error made every call of the pending map it loaded. -/
theorem applyPending_ok
    (hr : (c.applyPending pending (fun st kv => tryCall (failed kv) err (change st.1 kv) st) f
      dataplane).2.2 = none) :
    ∃ c' dc, c.maybeLoadCache f dataplane = (c', none) ∧ c'.cache = some dc ∧
      c.applyPending pending (fun st kv => tryCall (failed kv) err (change st.1 kv) st) f
          dataplane =
        let r := (pending dc).entries.foldl change (dc, dataplane)
        ({ c' with cache := some r.1 }, r.2, none) := by
  rcases hm : c.maybeLoadCache f dataplane with ⟨c', _ | e⟩
  · obtain ⟨dc, hc⟩ := maybeLoadCache_loaded f dataplane c (by rw [hm])
    rw [hm] at hc
    rw [applyPending_of_load pending f hm, applyPending_of_cache pending failed err change f hc]
      at hr ⊢
    -- no call failed: the loop made them all
    have hnone : (pending dc).entries.filter failed = [] := by
      simpa [errsToError_eq_none] using hr
    have hall : ((pending dc).entries.filter fun kv => !failed kv) = (pending dc).entries := by
      rw [List.filter_eq_self]
      intro kv hkv
      simpa using List.filter_eq_nil_iff.mp hnone kv hkv
    refine ⟨c', dc, rfl, hc, ?_⟩
    rw [hall, hnone]
    rfl
  · rw [applyPending_of_error pending f hm] at hr
    cases hr

end Apply

/-! ## Each method keeps the facts -/

variable (f : Failures keySize)

theorem Tracks.applyUpdatesOnly (h : Tracks c dataplane) :
    Tracks (c.applyUpdatesOnly f dataplane).1 (c.applyUpdatesOnly f dataplane).2.1 ∧
      (c.applyUpdatesOnly f dataplane).1.desiredStateOfDataplane = c.desiredStateOfDataplane :=
  h.applyPending DataplaneCache.pendingUpdates (fun kv => f.update kv.1) .updateFailed updated f
    fun _ _ _ ht hl => ht.foldl_updated fun kv hkv =>
      -- a pending update is of the desired value
      (((ht kv.1).updates kv.2).mp (AList.mem_lookup_iff.mpr (hl kv hkv))).1

theorem Tracks.applyDeletionsOnly (h : Tracks c dataplane) :
    Tracks (c.applyDeletionsOnly f dataplane).1 (c.applyDeletionsOnly f dataplane).2.1 ∧
      (c.applyDeletionsOnly f dataplane).1.desiredStateOfDataplane = c.desiredStateOfDataplane :=
  h.applyPending DataplaneCache.pendingDeletions (fun kv => f.delete kv.1) .deleteFailed deleted f
    fun _ _ _ ht hl => ht.foldl_deleted fun kv hkv =>
      -- a pending deletion is of a key that is not desired
      ((ht kv.1).deletions.mp (AList.mem_keys.mp (List.mem_keys_of_mem (hl kv hkv)))).2

/-- `ApplyUpdatesOnly` on a loaded cache that reports no error leaves no update pending, and
the pending deletions as they were. -/
theorem applyUpdatesOnly_ok (hc : c.cache = some dc)
    (hr : (c.applyUpdatesOnly f dataplane).2.2 = none) :
    ∃ dc', (c.applyUpdatesOnly f dataplane).1.cache = some dc' ∧
      (∀ k, k ∉ dc'.pendingUpdates) ∧ dc'.pendingDeletions = dc.pendingDeletions := by
  obtain ⟨c', dc₁, hm, hc', heq⟩ :=
    applyPending_ok DataplaneCache.pendingUpdates (fun kv => f.update kv.1) .updateFailed updated f hr
  rw [maybeLoadCache_of_cache f dataplane hc] at hm
  obtain ⟨rfl, -⟩ := Prod.mk.inj hm
  rw [hc] at hc'
  cases hc'
  have heq' : c.applyUpdatesOnly f dataplane = _ := heq
  rw [heq']
  refine ⟨_, rfl, fun k hk => ?_, foldl_updated_pendingDeletions _ _⟩
  obtain ⟨hmem, hnot⟩ := (mem_foldl_updated_pendingUpdates k _ _).mp hk
  exact hnot (AList.mem_keys.mpr hmem)

/-- `ApplyDeletionsOnly` that reports no error leaves the cache loaded, with no deletion
pending. -/
theorem applyDeletionsOnly_ok (hr : (c.applyDeletionsOnly f dataplane).2.2 = none) :
    ∃ dc, (c.applyDeletionsOnly f dataplane).1.cache = some dc ∧ ∀ k, k ∉ dc.pendingDeletions := by
  obtain ⟨c', dc, -, -, heq⟩ :=
    applyPending_ok DataplaneCache.pendingDeletions (fun kv => f.delete kv.1) .deleteFailed deleted f
      hr
  have heq' : c.applyDeletionsOnly f dataplane = _ := heq
  rw [heq']
  refine ⟨_, rfl, fun k hk => ?_⟩
  obtain ⟨hmem, hnot⟩ := (mem_foldl_deleted_pendingDeletions k _ _).mp hk
  exact hnot (AList.mem_keys.mpr hmem)

theorem applyAllChanges_eq (fDeletions fUpdates : Failures keySize) :
    c.applyAllChanges fDeletions fUpdates dataplane =
      let r₁ := c.applyDeletionsOnly fDeletions dataplane
      let r₂ := r₁.1.applyUpdatesOnly fUpdates r₁.2.1
      (r₂.1, r₂.2.1, errsToError (r₁.2.2.toList ++ r₂.2.2.toList)) := rfl

theorem Tracks.applyAllChanges (h : Tracks c dataplane) (fDeletions fUpdates : Failures keySize) :
    Tracks (c.applyAllChanges fDeletions fUpdates dataplane).1
        (c.applyAllChanges fDeletions fUpdates dataplane).2.1 ∧
      (c.applyAllChanges fDeletions fUpdates dataplane).1.desiredStateOfDataplane =
        c.desiredStateOfDataplane := by
  obtain ⟨h₁, hd₁⟩ := h.applyDeletionsOnly fDeletions
  obtain ⟨h₂, hd₂⟩ := h₁.applyUpdatesOnly fUpdates
  rw [applyAllChanges_eq]
  exact ⟨h₂, hd₂.trans hd₁⟩

theorem tracks_new (dataplane : ByteArrayToByteArrayMap keySize valueSize) :
    Tracks (new : CachingMap keySize valueSize) dataplane :=
  fun _ h => by cases h

theorem Tracks.apply (h : Tracks c dataplane) (op : CachingMapOp keySize valueSize) :
    Tracks (c.apply dataplane op).1 (c.apply dataplane op).2.1 := by
  cases op with
  | loadCacheFromDataplane f => exact loadCacheFromDataplane_tracks f dataplane c
  | setDesired k v => exact h.setDesired k v
  | deleteDesired k => exact h.deleteDesired k
  | deleteAllDesired => exact h.deleteAllDesired
  | applyUpdatesOnly f => exact (h.applyUpdatesOnly f).1
  | applyDeletionsOnly f => exact (h.applyDeletionsOnly f).1
  | applyAllChanges fDeletions fUpdates => exact (h.applyAllChanges fDeletions fUpdates).1

theorem runFrom_cons (op : CachingMapOp keySize valueSize) (ops : List (CachingMapOp keySize valueSize)) :
    runFrom (op :: ops) c dataplane = runFrom ops (c.apply dataplane op).1 (c.apply dataplane op).2.1 :=
  rfl

/-- Every run keeps the facts. -/
theorem Tracks.runFrom : ∀ (ops : List (CachingMapOp keySize valueSize))
    {c : CachingMap keySize valueSize} {dataplane : ByteArrayToByteArrayMap keySize valueSize},
    Tracks c dataplane → Tracks (CachingMap.runFrom ops c dataplane).1 (CachingMap.runFrom ops c dataplane).2
  | [], _, _, h => h
  | op :: ops, _, _, h => by
    rw [runFrom_cons]
    exact Tracks.runFrom ops (h.apply op)

/-! ## Values of non-zero size -/

section Sized

variable (hv : 0 < valueSize)
include hv

/-- For values of non-zero size, `slicesEqual` against a lookup tells a missing key from any
value. -/
theorem slicesEqual_get_iff {m : ByteArrayToByteArrayMap keySize valueSize}
    {k : Vector UInt8 keySize} {v : Vector UInt8 valueSize} :
    slicesEqual ((m.get k).getD []) v.toList = true ↔ m.lookup k = some v := by
  rw [slicesEqual_iff]
  unfold ByteArrayToByteArrayMap.get
  rcases m.lookup k with _ | w
  · -- the empty slice of a missing key has the wrong length
    have hlen : ([] : List UInt8) ≠ v.toList := fun h => by
      have := congrArg List.length h
      simp only [List.length_nil, Vector.length_toList] at this
      omega
    simpa using hlen
  · simp [Vector.toList_inj]

/-- A tracked cache with nothing pending holds, and so the dataplane holds, the desired
state. -/
theorem Tracked.lookup_eq_of_nothing_pending (h : Tracked desired dc dataplane)
    (hu : ∀ k, k ∉ dc.pendingUpdates) (hd : ∀ k, k ∉ dc.pendingDeletions) (k : Vector UInt8 keySize) :
    dataplane.lookup k = desired.lookup k := by
  rw [← (h k).cache]
  rcases hk : desired.lookup k with _ | v
  · -- not desired: a cached value would be pending deletion
    have hnot : k ∉ dc.cacheOfDataplane := fun hmem =>
      hd k ((h k).deletions.mpr ⟨hmem, AList.lookup_eq_none.mp hk⟩)
    exact AList.lookup_eq_none.mpr hnot
  · -- desired: a cached value that differs would be pending update
    have hsame : slicesEqual ((dc.cacheOfDataplane.get k).getD []) v.toList = true := by
      by_contra hne
      have hpend := ((h k).updates v).mpr ⟨hk, by simpa using hne⟩
      exact hu k (AList.lookup_isSome.mp (by rw [hpend]; rfl))
    exact (slicesEqual_get_iff hv).mp hsame

/-- An `ApplyAllChanges` that returns `nil` leaves the dataplane map equal to the desired
one. -/
theorem Tracks.applyAllChanges_synced (h : Tracks c dataplane) {fDeletions fUpdates : Failures keySize}
    (hr : (c.applyAllChanges fDeletions fUpdates dataplane).2.2 = none) (k : Vector UInt8 keySize) :
    (c.applyAllChanges fDeletions fUpdates dataplane).2.1.lookup k =
      c.desiredStateOfDataplane.lookup k := by
  rw [applyAllChanges_eq] at hr ⊢
  dsimp only at hr ⊢
  rw [errsToError_eq_none, List.append_eq_nil_iff, Option.toList_eq_nil_iff,
    Option.toList_eq_nil_iff] at hr
  obtain ⟨hr₁, hr₂⟩ := hr
  -- the deletions leave none pending and the cache loaded; the updates then leave none either
  obtain ⟨dc₁, hc₁, hdel₁⟩ := applyDeletionsOnly_ok fDeletions hr₁
  obtain ⟨dc₂, hc₂, hupd₂, hdel₂⟩ := applyUpdatesOnly_ok fUpdates hc₁ hr₂
  obtain ⟨h₁, hd₁⟩ := h.applyDeletionsOnly fDeletions
  obtain ⟨h₂, hd₂⟩ := h₁.applyUpdatesOnly fUpdates
  have ht := h₂ dc₂ hc₂
  rw [hd₂, hd₁] at ht
  exact ht.lookup_eq_of_nothing_pending hv hupd₂ (hdel₂ ▸ hdel₁) k

end Sized

/-! ## The pending operations are the differences -/

/-- What the pending maps are meant to hold: the desired values the cache differs from, and
the cached keys that are not desired; with the cache a copy of the dataplane. -/
structure Pending (desired : ByteArrayToByteArrayMap keySize valueSize)
    (dc : DataplaneCache keySize valueSize) (dataplane : ByteArrayToByteArrayMap keySize valueSize) :
    Prop where
  cache : ∀ k, dc.cacheOfDataplane.lookup k = dataplane.lookup k
  updates : ∀ k v, dc.pendingUpdates.lookup k = some v ↔
    desired.lookup k = some v ∧ dc.cacheOfDataplane.lookup k ≠ some v
  deletions : ∀ k, k ∈ dc.pendingDeletions ↔ k ∈ dc.cacheOfDataplane ∧ k ∉ desired

/-- For values of non-zero size, the tracked facts are the intended ones. -/
theorem Tracked.pending (hv : 0 < valueSize) (h : Tracked desired dc dataplane) :
    Pending desired dc dataplane where
  cache k := (h k).cache
  updates k v := by
    rw [(h k).updates v, ne_eq, ← slicesEqual_get_iff hv (m := dc.cacheOfDataplane),
      Bool.not_eq_true]
  deletions k := (h k).deletions

theorem cachingMap_pending_operations (hv : 0 < valueSize)
    {dataplane dp : ByteArrayToByteArrayMap keySize valueSize}
    {ops : List (CachingMapOp keySize valueSize)} {c : CachingMap keySize valueSize}
    (hrun : runFrom ops new dataplane = (c, dp)) :
    (∀ dc, c.cache = some dc → Pending c.desiredStateOfDataplane dc dp) ∧
      ∀ fDeletions fUpdates, (c.applyAllChanges fDeletions fUpdates dp).2.2 = none →
        ∀ k, (c.applyAllChanges fDeletions fUpdates dp).2.1.lookup k =
          c.desiredStateOfDataplane.lookup k := by
  have h : Tracks c dp := by
    have hrun' := Tracks.runFrom ops (tracks_new dataplane)
    rwa [hrun] at hrun'
  exact ⟨fun dc hc => (h dc hc).pending hv, fun _ _ hr => h.applyAllChanges_synced hv hr⟩

/-- A run over one-byte keys and values: a stale key in the dataplane, two keys set, and an
`ApplyAllChanges` whose update of one key fails, so that it stays pending. -/
def cachingMapDemo : List (CachingMapOp 1 1) :=
  [.setDesired #v[1] #v[10], .setDesired #v[2] #v[20],
    .applyAllChanges ⟨false, fun _ => false, fun _ => false⟩
      ⟨false, fun k => k = #v[2], fun _ => false⟩,
    .deleteDesired #v[1]]

theorem cachingMap_pending_operations_demo :
    ∃ (c : CachingMap 1 1) (dp : ByteArrayToByteArrayMap 1 1),
      0 < 1 ∧ runFrom cachingMapDemo new ((∅ : ByteArrayToByteArrayMap 1 1).insert #v[3] #v[30]) =
        (c, dp) ∧
      (∀ dc, c.cache = some dc → Pending c.desiredStateOfDataplane dc dp) ∧
      ∀ fDeletions fUpdates, (c.applyAllChanges fDeletions fUpdates dp).2.2 = none →
        ∀ k, (c.applyAllChanges fDeletions fUpdates dp).2.1.lookup k =
          c.desiredStateOfDataplane.lookup k :=
  ⟨_, _, by decide, rfl, cachingMap_pending_operations (by decide)
    (rfl : runFrom cachingMapDemo new ((∅ : ByteArrayToByteArrayMap 1 1).insert #v[3] #v[30]) = _)⟩

/-- For values of size zero the pending updates miss a desired key that the dataplane lacks:
`slicesEqual` finds the missing value equal to the empty one, so it is never written, and an
`ApplyAllChanges` that returns `nil` leaves the dataplane without it. -/
theorem cachingMap_zero_size_value_unwritten :
    ∃ (c : CachingMap 1 0) (dp : ByteArrayToByteArrayMap 1 0),
      runFrom [.setDesired #v[0] #v[]] new ∅ = (c, dp) ∧
      (c.applyAllChanges ⟨false, fun _ => false, fun _ => false⟩
          ⟨false, fun _ => false, fun _ => false⟩ dp).2.2 = none ∧
      (c.applyAllChanges ⟨false, fun _ => false, fun _ => false⟩
          ⟨false, fun _ => false, fun _ => false⟩ dp).2.1.lookup #v[0] ≠
        c.desiredStateOfDataplane.lookup #v[0] :=
  ⟨_, _, rfl, rfl, by decide⟩

end CachingMap

end Felix.Bpf
