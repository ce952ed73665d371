import Mathlib

/-!
# The caching map

`CachingMap` (`bpf/cachingmap/caching_map.go`) keeps a BPF map in sync with a desired state.
Callers set and delete desired entries in memory; the `Apply` methods then write to the
dataplane map the fewest changes that bring it to the desired state. To find them it keeps a
cache of the dataplane map and two maps of pending operations: the updates, with their values,
and the deletions. The cache and the two pending maps are loaded on the first `Apply` (or by
`LoadCacheFromDataplane`), which reads the whole dataplane map and compares it with the
desired state; from then on every change of the desired state updates the pending maps, and
every dataplane write that succeeds updates the cache and drops the pending operation.

Keys and values are fixed-size byte arrays, `[keySize]byte` and `[valueSize]byte`, kept in a
Go map by reflection (`ByteArrayToByteArrayMap`). A read of a missing key gives `nil`, and the
values are compared by `slicesEqual`, which reads `nil` as the empty slice: for a map with
zero-length values a missing key compares equal to every value.

The dataplane is the map the kernel holds, with no other writer; each of its calls may fail,
as a `Failures` record says.

## Main definitions

* `ByteArrayToByteArrayMap`, `slicesEqual`
* `CachingMap`, `CachingMap.new`, `loadCacheFromDataplane`, `recalculatePendingOperations`
* `setDesired`, `deleteDesired`, `deleteAllDesired`
* `applyPending`, with `tryCall`, `updated` and `deleted`: the loop the two `Apply` methods
  share, its dataplane calls, and what each successful call does
* `applyUpdatesOnly`, `applyDeletionsOnly`, `applyAllChanges`
* `CachingMapOp`, `CachingMap.runFrom`
-/

namespace Felix.Bpf

/-- `ByteArrayToByteArrayMap`: `map[[keySize]byte][valueSize]byte`. -/
abbrev ByteArrayToByteArrayMap (keySize valueSize : ℕ) :=
  AList fun _ : Vector UInt8 keySize => Vector UInt8 valueSize

/-- `slicesEqual`: the same length and the same bytes. -/
def slicesEqual (a b : List UInt8) : Bool :=
  a.length == b.length && (a.zip b).all fun p => p.2 == p.1
attribute [grind] slicesEqual

/-- `ByteArrayToByteArrayMap.Get`: the value as a slice, `nil` for a missing key. -/
def ByteArrayToByteArrayMap.get {keySize valueSize : ℕ}
    (m : ByteArrayToByteArrayMap keySize valueSize) (k : Vector UInt8 keySize) :
    Option (List UInt8) :=
  (m.lookup k).map Vector.toList
attribute [grind] ByteArrayToByteArrayMap.get

/-- The errors the dataplane map's calls return, and `ErrSlice`. -/
inductive MapError where
  | iterFailed
  | updateFailed
  | deleteFailed
  | errSlice (errs : List MapError)

/-- Which calls of the dataplane map fail: its `Iter`, and `Update` or `Delete` of a key (a
`Delete` error other than "not exists"). -/
structure Failures (keySize : ℕ) where
  iter : Bool
  update : Vector UInt8 keySize → Bool
  delete : Vector UInt8 keySize → Bool

/-- The cache of the dataplane and the two pending maps. `initCache` and `clearCache` set and
clear the three together, so they are one record that is there or not. -/
structure DataplaneCache (keySize valueSize : ℕ) where
  cacheOfDataplane : ByteArrayToByteArrayMap keySize valueSize
  pendingUpdates : ByteArrayToByteArrayMap keySize valueSize
  pendingDeletions : ByteArrayToByteArrayMap keySize valueSize

/-- `CachingMap`; `cache` is `nil` until the dataplane has been loaded. -/
structure CachingMap (keySize valueSize : ℕ) where
  desiredStateOfDataplane : ByteArrayToByteArrayMap keySize valueSize
  cache : Option (DataplaneCache keySize valueSize)

namespace CachingMap

variable {keySize valueSize : ℕ}

/-- `New`. -/
def new : CachingMap keySize valueSize := ⟨∅, none⟩

/-- `recalculatePendingOperations`, from empty pending maps: a desired entry that the cache
does not hold is to be updated, and a cached key that is not desired is to be deleted. -/
def recalculatePendingOperations (desired cacheOfDataplane : ByteArrayToByteArrayMap keySize valueSize) :
    DataplaneCache keySize valueSize :=
  { cacheOfDataplane
    pendingUpdates := desired.entries.foldl (fun pendingUpdates kv =>
      if slicesEqual ((cacheOfDataplane.get kv.1).getD []) kv.2.toList then pendingUpdates
      else pendingUpdates.insert kv.1 kv.2) ∅
    pendingDeletions := cacheOfDataplane.entries.foldl (fun pendingDeletions kv =>
      if desired.get kv.1 = none then pendingDeletions.insert kv.1 kv.2 else pendingDeletions) ∅ }

/-- `LoadCacheFromDataplane`: read the dataplane map into a new cache and recalculate the
pending operations; on an error the cache is cleared. -/
def loadCacheFromDataplane (f : Failures keySize) (dataplane : ByteArrayToByteArrayMap keySize valueSize)
    (c : CachingMap keySize valueSize) : CachingMap keySize valueSize × Option MapError :=
  if f.iter then ({ c with cache := none }, some .iterFailed)
  else ({ c with cache := some (recalculatePendingOperations c.desiredStateOfDataplane dataplane) }, none)

/-- `SetDesired`. Before the first load no deltas are tracked. -/
def setDesired (k : Vector UInt8 keySize) (v : Vector UInt8 valueSize)
    (c : CachingMap keySize valueSize) : CachingMap keySize valueSize :=
  let desired := c.desiredStateOfDataplane.insert k v
  match c.cache with
  | none => { c with desiredStateOfDataplane := desired }
  | some dc =>
    let pendingDeletions := dc.pendingDeletions.erase k
    -- the dataplane already agrees with the new value: no update is pending
    if slicesEqual ((dc.cacheOfDataplane.get k).getD []) v.toList then
      ⟨desired, some { dc with pendingDeletions, pendingUpdates := dc.pendingUpdates.erase k }⟩
    else ⟨desired, some { dc with pendingDeletions, pendingUpdates := dc.pendingUpdates.insert k v }⟩
attribute [grind] setDesired

/-- `DeleteDesired`. -/
def deleteDesired (k : Vector UInt8 keySize) (c : CachingMap keySize valueSize) :
    CachingMap keySize valueSize :=
  let desired := c.desiredStateOfDataplane.erase k
  match c.cache with
  | none => { c with desiredStateOfDataplane := desired }
  | some dc =>
    let pendingUpdates := dc.pendingUpdates.erase k
    match dc.cacheOfDataplane.lookup k with
    | none => ⟨desired, some { dc with pendingUpdates, pendingDeletions := dc.pendingDeletions.erase k }⟩
    | some currentVal =>
      ⟨desired, some { dc with pendingUpdates, pendingDeletions := dc.pendingDeletions.insert k currentVal }⟩
attribute [grind] deleteDesired

/-- `DeleteAllDesired`: `DeleteDesired` of every desired key. Deleting the key the iteration
is at is safe in Go, so every key held at the start is visited. -/
def deleteAllDesired (c : CachingMap keySize valueSize) : CachingMap keySize valueSize :=
  c.desiredStateOfDataplane.keys.foldl (fun c k => c.deleteDesired k) c

/-- `maybeLoadCache`. -/
def maybeLoadCache (f : Failures keySize) (dataplane : ByteArrayToByteArrayMap keySize valueSize)
    (c : CachingMap keySize valueSize) : CachingMap keySize valueSize × Option MapError :=
  match c.cache with
  | none => c.loadCacheFromDataplane f dataplane
  | some _ => (c, none)
attribute [grind] maybeLoadCache

/-- The errors of a loop, as `ErrSlice` or `nil`. -/
def errsToError (errs : List MapError) : Option MapError :=
  if errs.isEmpty then none else some (.errSlice errs)

/-- A call to the dataplane map in a loop of an `Apply` method: a call that fails adds its
error and changes nothing, one that succeeds makes its change. -/
def tryCall {σ : Type} (failed : Bool) (err : MapError) (change : σ) (st : σ × List MapError) :
    σ × List MapError :=
  if failed then (st.1, st.2 ++ [err]) else (change, st.2)

/-- A successful `Update` of the dataplane map: the update is no longer pending, and its value
is cached. -/
def updated (st : DataplaneCache keySize valueSize × ByteArrayToByteArrayMap keySize valueSize)
    (kv : Σ _ : Vector UInt8 keySize, Vector UInt8 valueSize) :
    DataplaneCache keySize valueSize × ByteArrayToByteArrayMap keySize valueSize :=
  ({ st.1 with
      pendingUpdates := st.1.pendingUpdates.erase kv.1
      cacheOfDataplane := st.1.cacheOfDataplane.insert kv.1 kv.2 },
    st.2.insert kv.1 kv.2)
attribute [grind] updated

/-- A successful `Delete` of the dataplane map, or one that finds the key missing: the deletion
is no longer pending, and the key is dropped from the cache. -/
def deleted (st : DataplaneCache keySize valueSize × ByteArrayToByteArrayMap keySize valueSize)
    (kv : Σ _ : Vector UInt8 keySize, Vector UInt8 valueSize) :
    DataplaneCache keySize valueSize × ByteArrayToByteArrayMap keySize valueSize :=
  ({ st.1 with
      pendingDeletions := st.1.pendingDeletions.erase kv.1
      cacheOfDataplane := st.1.cacheOfDataplane.erase kv.1 },
    st.2.erase kv.1)
attribute [grind] deleted

/-- A turn of the loop of `ApplyUpdatesOnly`. -/
def applyUpdate (f : Failures keySize)
    (st : (DataplaneCache keySize valueSize × ByteArrayToByteArrayMap keySize valueSize) ×
      List MapError)
    (kv : Σ _ : Vector UInt8 keySize, Vector UInt8 valueSize) :
    (DataplaneCache keySize valueSize × ByteArrayToByteArrayMap keySize valueSize) ×
      List MapError :=
  tryCall (f.update kv.1) .updateFailed (updated st.1 kv) st

/-- A turn of the loop of `ApplyDeletionsOnly`; a `Delete` that fails because the key is missing
counts as a success. -/
def applyDeletion (f : Failures keySize)
    (st : (DataplaneCache keySize valueSize × ByteArrayToByteArrayMap keySize valueSize) ×
      List MapError)
    (kv : Σ _ : Vector UInt8 keySize, Vector UInt8 valueSize) :
    (DataplaneCache keySize valueSize × ByteArrayToByteArrayMap keySize valueSize) ×
      List MapError :=
  tryCall (f.delete kv.1) .deleteFailed (deleted st.1 kv) st

/-- The body that `ApplyUpdatesOnly` and `ApplyDeletionsOnly` share: load the cache if needed,
then make a call to the dataplane map for every operation of one pending map. The loop ranges
over the pending map as it was when the loop started; deleting the key it is at, as each
successful call does, is allowed in Go. -/
def applyPending
    (pending : DataplaneCache keySize valueSize → ByteArrayToByteArrayMap keySize valueSize)
    (turn : (DataplaneCache keySize valueSize × ByteArrayToByteArrayMap keySize valueSize) ×
        List MapError → (Σ _ : Vector UInt8 keySize, Vector UInt8 valueSize) →
      (DataplaneCache keySize valueSize × ByteArrayToByteArrayMap keySize valueSize) ×
        List MapError)
    (f : Failures keySize) (dataplane : ByteArrayToByteArrayMap keySize valueSize)
    (c : CachingMap keySize valueSize) :
    CachingMap keySize valueSize × ByteArrayToByteArrayMap keySize valueSize × Option MapError :=
  match c.maybeLoadCache f dataplane with
  | (c, some err) => (c, dataplane, some err)
  | (c, none) =>
    match c.cache with
    | none => (c, dataplane, none)
    | some dc =>
      let ((dc, dataplane), errs) := (pending dc).entries.foldl turn ((dc, dataplane), [])
      ({ c with cache := some dc }, dataplane, errsToError errs)

/-- `ApplyUpdatesOnly`: write every pending update. -/
def applyUpdatesOnly (f : Failures keySize) (dataplane : ByteArrayToByteArrayMap keySize valueSize)
    (c : CachingMap keySize valueSize) :
    CachingMap keySize valueSize × ByteArrayToByteArrayMap keySize valueSize × Option MapError :=
  c.applyPending DataplaneCache.pendingUpdates (applyUpdate f) f dataplane

/-- `ApplyDeletionsOnly`: make every pending deletion. -/
def applyDeletionsOnly (f : Failures keySize) (dataplane : ByteArrayToByteArrayMap keySize valueSize)
    (c : CachingMap keySize valueSize) :
    CachingMap keySize valueSize × ByteArrayToByteArrayMap keySize valueSize × Option MapError :=
  c.applyPending DataplaneCache.pendingDeletions (applyDeletion f) f dataplane

/-- `ApplyAllChanges`: the deletions, then the updates. The two phases may meet different
failures, a failed load included. -/
def applyAllChanges (fDeletions fUpdates : Failures keySize)
    (dataplane : ByteArrayToByteArrayMap keySize valueSize) (c : CachingMap keySize valueSize) :
    CachingMap keySize valueSize × ByteArrayToByteArrayMap keySize valueSize × Option MapError :=
  let (c, dataplane, errDeletions) := c.applyDeletionsOnly fDeletions dataplane
  let (c, dataplane, errUpdates) := c.applyUpdatesOnly fUpdates dataplane
  let errs := errDeletions.toList ++ errUpdates.toList
  (c, dataplane, errsToError errs)

end CachingMap

/-- The calls of a caching map, each `Apply` with the failures its dataplane calls meet. -/
inductive CachingMapOp (keySize valueSize : ℕ) where
  | loadCacheFromDataplane (f : Failures keySize)
  | setDesired (k : Vector UInt8 keySize) (v : Vector UInt8 valueSize)
  | deleteDesired (k : Vector UInt8 keySize)
  | deleteAllDesired
  | applyUpdatesOnly (f : Failures keySize)
  | applyDeletionsOnly (f : Failures keySize)
  | applyAllChanges (fDeletions fUpdates : Failures keySize)

namespace CachingMap

variable {keySize valueSize : ℕ}

/-- One call, on the caching map and the dataplane map, and the error it returns. -/
def apply (c : CachingMap keySize valueSize) (dataplane : ByteArrayToByteArrayMap keySize valueSize) :
    CachingMapOp keySize valueSize →
      CachingMap keySize valueSize × ByteArrayToByteArrayMap keySize valueSize × Option MapError
  | .loadCacheFromDataplane f =>
    let (c, err) := c.loadCacheFromDataplane f dataplane
    (c, dataplane, err)
  | .setDesired k v => (c.setDesired k v, dataplane, none)
  | .deleteDesired k => (c.deleteDesired k, dataplane, none)
  | .deleteAllDesired => (c.deleteAllDesired, dataplane, none)
  | .applyUpdatesOnly f => c.applyUpdatesOnly f dataplane
  | .applyDeletionsOnly f => c.applyDeletionsOnly f dataplane
  | .applyAllChanges fDeletions fUpdates => c.applyAllChanges fDeletions fUpdates dataplane

/-- A run of calls, on the caching map and the dataplane map. -/
def runFrom : List (CachingMapOp keySize valueSize) → CachingMap keySize valueSize →
    ByteArrayToByteArrayMap keySize valueSize →
      CachingMap keySize valueSize × ByteArrayToByteArrayMap keySize valueSize
  | [], c, dataplane => (c, dataplane)
  | op :: ops, c, dataplane =>
    let (c, dataplane, _) := c.apply dataplane op
    runFrom ops c dataplane

end CachingMap

end Felix.Bpf
