import Mathlib

/-!
# The IP set ID allocator

`IDAllocator` (`idalloc/idalloc.go`) gives each string ID of an IP set a 64-bit ID, unique
among the IDs it has handed out and not yet released. It keeps the allocation in two Go maps,
from strings to IDs and back, and picks the ID of a new string by iterated hashing: the first
of `TrialHash(id, 0)`, `TrialHash(id, 1)`, ... that is neither 0 nor in use. The BPF dataplane
reads an ID of 0 as "no set", so 0 is never handed out.

The model leaves the hash abstract: `trialHash` is a parameter (the source's is SHA-256 of the
counter and the string), and nothing proved here depends on it. As in the source, the search
gives up after `2 ^ 64 - 1` candidates.

The two maps are inverse to each other, and 0 is in neither; every operation keeps that, so
the allocator carries it as fields and an allocator that breaks it cannot be built.

## Main definitions

* `IDAllocator`, `IDAllocator.new`
* `getNoAlloc`, `findCandidate`, `getOrAlloc`, `releaseUintID`

## Main results

* `getOrAlloc_cases`: `GetOrAlloc` returns the string's ID, or a fresh non-zero one that it
  records
* `releaseUintID_eq_ok`, `releaseUintID_ok_of_mem`: `ReleaseUintID` forgets an allocated ID,
  and fails only for one that is not allocated
* `getNoAlloc_inj`: two strings that have IDs have different ones
-/

namespace Felix.Idalloc

/-- `IDAllocator`: the allocation, in both directions. -/
structure IDAllocator where
  strToUint64 : AList fun _ : String => UInt64
  uint64ToStr : AList fun _ : UInt64 => String
  /-- The two maps describe one set of pairs. -/
  inverse : ∀ s u, strToUint64.lookup s = some u ↔ uint64ToStr.lookup u = some s
  /-- 0 means "no ID" to `GetNoAlloc` and to the dataplane, and is never handed out. -/
  zero_not_mem : (0 : UInt64) ∉ uint64ToStr

namespace IDAllocator

/-- `idalloc.New`. -/
def new : IDAllocator where
  strToUint64 := ∅
  uint64ToStr := ∅
  inverse s u := by simp
  zero_not_mem := AList.notMem_empty 0

/-- `GetNoAlloc`: the string's ID, or 0 if it has none. -/
def getNoAlloc (a : IDAllocator) (id : String) : UInt64 := (a.strToUint64.lookup id).getD 0

/-- The loop of `GetOrAlloc`: from the counter `n` on, and for at most `fuel` values of it, the
first candidate `trialHash id n` that is neither 0 nor in use. -/
def findCandidate (trialHash : String → UInt64 → UInt64) (a : IDAllocator) (id : String) :
    ℕ → UInt64 → Option UInt64
  | 0, _ => none
  | fuel + 1, n =>
    let candidate := trialHash id n
    if candidate = 0 ∨ candidate ∈ a.uint64ToStr then a.findCandidate trialHash id fuel (n + 1)
    else some candidate

theorem findCandidate_spec {trialHash : String → UInt64 → UInt64} {a : IDAllocator}
    {id : String} : ∀ {fuel : ℕ} {n c : UInt64}, a.findCandidate trialHash id fuel n = some c →
      c ≠ 0 ∧ c ∉ a.uint64ToStr
  | 0, _, _, h => by cases h
  | fuel + 1, n, c, h => by
    rw [findCandidate] at h
    split_ifs at h with hc
    · exact findCandidate_spec h
    · cases h
      exact not_or.mp hc

/-- Recording a new pair keeps the two maps inverse. -/
theorem inverse_insert {a : IDAllocator} {s : String} {u : UInt64}
    (hs : a.strToUint64.lookup s = none) (hu : u ∉ a.uint64ToStr) (s' : String) (u' : UInt64) :
    (a.strToUint64.insert s u).lookup s' = some u' ↔ (a.uint64ToStr.insert u s).lookup u' = some s' := by
  by_cases hss : s' = s
  · subst hss
    by_cases huu : u' = u
    · subst huu
      simp
    · have hno : a.uint64ToStr.lookup u' ≠ some s' := fun h => by
        rw [← a.inverse, hs] at h
        cases h
      rw [AList.lookup_insert, AList.lookup_insert_ne huu]
      simp only [Option.some.injEq]
      exact ⟨fun h => absurd h.symm huu, fun h => absurd h hno⟩
  · rw [AList.lookup_insert_ne hss]
    by_cases huu : u' = u
    · subst huu
      have hno : a.strToUint64.lookup s' ≠ some u' := fun h => by
        rw [a.inverse] at h
        exact hu (AList.lookup_isSome.mp (by rw [h]; rfl))
      rw [AList.lookup_insert]
      simp only [Option.some.injEq]
      exact ⟨fun h => absurd h hno, fun h => absurd h.symm hss⟩
    · rw [AList.lookup_insert_ne huu]
      exact a.inverse s' u'

/-- `GetOrAlloc`: the string's ID if it has one, or else the first free candidate, recorded in
both maps; a panic when every candidate is taken. -/
def getOrAlloc (trialHash : String → UInt64 → UInt64) (a : IDAllocator) (id : String) :
    Except String (IDAllocator × UInt64) :=
  match hs : a.strToUint64.lookup id with
  | some uid => .ok (a, uid)
  | none =>
    -- `for n := uint64(0); n < math.MaxUint64; n++`
    match hc : a.findCandidate trialHash id (2 ^ 64 - 1) 0 with
    | some candidate =>
      .ok ({ strToUint64 := a.strToUint64.insert id candidate
             uint64ToStr := a.uint64ToStr.insert candidate id
             inverse := inverse_insert hs (findCandidate_spec hc).2
             zero_not_mem := by
               rw [AList.mem_insert, not_or]
               exact ⟨fun h => (findCandidate_spec hc).1 h.symm, a.zero_not_mem⟩ },
        candidate)
    | none => .error "Ran out of candidates."

/-- Forgetting a pair keeps the two maps inverse. -/
theorem inverse_erase {a : IDAllocator} {s : String} {u : UInt64}
    (h : a.uint64ToStr.lookup u = some s) (s' : String) (u' : UInt64) :
    (a.strToUint64.erase s).lookup s' = some u' ↔ (a.uint64ToStr.erase u).lookup u' = some s' := by
  have hsu : a.strToUint64.lookup s = some u := (a.inverse s u).mpr h
  by_cases hss : s' = s
  · subst hss
    rw [AList.lookup_erase]
    by_cases huu : u' = u
    · subst huu
      simp
    · rw [AList.lookup_erase_ne huu, ← a.inverse, hsu]
      simp only [reduceCtorEq, false_iff, Option.some.injEq]
      exact fun h => huu h.symm
  · rw [AList.lookup_erase_ne hss]
    by_cases huu : u' = u
    · subst huu
      rw [AList.lookup_erase, a.inverse, h]
      simp only [Option.some.injEq, reduceCtorEq, iff_false]
      exact fun h => hss h.symm
    · rw [AList.lookup_erase_ne huu]
      exact a.inverse s' u'

/-- `ReleaseUintID`: forget an allocated ID and its string; `ErrNotFound` for another. -/
def releaseUintID (a : IDAllocator) (id : UInt64) : Except String IDAllocator :=
  match h : a.uint64ToStr.lookup id with
  | none => .error "release of unknown ID"
  | some strID =>
    .ok { strToUint64 := a.strToUint64.erase strID
          uint64ToStr := a.uint64ToStr.erase id
          inverse := inverse_erase h
          zero_not_mem := fun h0 => a.zero_not_mem (AList.mem_erase.mp h0).2 }
attribute [grind] releaseUintID

/-! ## What the operations do -/

/-- A string has a non-zero ID exactly when it is in the allocation. -/
theorem getNoAlloc_eq_iff {a : IDAllocator} {s : String} {u : UInt64} (hu : u ≠ 0) :
    a.getNoAlloc s = u ↔ a.strToUint64.lookup s = some u := by
  unfold getNoAlloc
  rcases h : a.strToUint64.lookup s with _ | v
  · simp only [Option.getD_none, reduceCtorEq, iff_false]
    exact fun h => hu h.symm
  · simp

/-- An allocated ID is the ID of its string. -/
theorem getNoAlloc_of_lookup {a : IDAllocator} {s : String} {u : UInt64}
    (h : a.uint64ToStr.lookup u = some s) : a.getNoAlloc s = u := by
  rw [getNoAlloc, (a.inverse s u).mpr h, Option.getD_some]

/-- A string's non-zero ID is allocated to it. -/
theorem lookup_of_getNoAlloc {a : IDAllocator} {s : String} (h : a.getNoAlloc s ≠ 0) :
    a.uint64ToStr.lookup (a.getNoAlloc s) = some s :=
  (a.inverse s _).mp ((getNoAlloc_eq_iff h).mp rfl)

/-- No two strings share an ID. -/
theorem getNoAlloc_inj {a : IDAllocator} {s₁ s₂ : String} (h : a.getNoAlloc s₁ = a.getNoAlloc s₂)
    (h0 : a.getNoAlloc s₁ ≠ 0) : s₁ = s₂ := by
  have h₁ := lookup_of_getNoAlloc h0
  have h₂ := lookup_of_getNoAlloc (h ▸ h0)
  rw [h] at h₁
  exact Option.some.inj (h₁.symm.trans h₂)

/-- What `GetOrAlloc` does: it returns the string's ID and changes nothing, or it records a
fresh non-zero ID for a string that had none. -/
theorem getOrAlloc_cases {trialHash : String → UInt64 → UInt64} {a a' : IDAllocator}
    {s : String} {u : UInt64} (h : a.getOrAlloc trialHash s = .ok (a', u)) :
    (a.strToUint64.lookup s = some u ∧ a' = a) ∨
      (a.strToUint64.lookup s = none ∧ u ≠ 0 ∧ u ∉ a.uint64ToStr ∧
        a'.strToUint64 = a.strToUint64.insert s u ∧ a'.uint64ToStr = a.uint64ToStr.insert u s) := by
  unfold getOrAlloc at h
  split at h
  · rename_i uid hs
    cases h
    exact .inl ⟨hs, rfl⟩
  · rename_i hs
    split at h
    · rename_i c hc
      cases h
      exact .inr ⟨hs, findCandidate_spec hc |>.1, findCandidate_spec hc |>.2, rfl, rfl⟩
    · cases h

/-- After `GetOrAlloc` the string has the ID it returned. -/
theorem lookup_getOrAlloc {trialHash : String → UInt64 → UInt64} {a a' : IDAllocator}
    {s : String} {u : UInt64} (h : a.getOrAlloc trialHash s = .ok (a', u)) :
    a'.strToUint64.lookup s = some u := by
  rcases getOrAlloc_cases h with ⟨hs, rfl⟩ | ⟨-, -, -, hs, -⟩
  · exact hs
  · rw [hs, AList.lookup_insert]

/-- `GetOrAlloc` allocates only the ID it returns. -/
theorem mem_getOrAlloc {trialHash : String → UInt64 → UInt64} {a a' : IDAllocator}
    {s : String} {u v : UInt64} (h : a.getOrAlloc trialHash s = .ok (a', u)) :
    v ∈ a'.uint64ToStr ↔ v = u ∨ v ∈ a.uint64ToStr := by
  rcases getOrAlloc_cases h with ⟨hs, ha⟩ | ⟨-, -, -, -, hu⟩
  · rw [ha]
    have hu : u ∈ a.uint64ToStr :=
      AList.lookup_isSome.mp (by rw [(a.inverse s u).mp hs]; rfl)
    constructor
    · exact Or.inr
    · rintro (rfl | hv)
      · exact hu
      · exact hv
  · rw [hu, AList.mem_insert]

/-- `GetOrAlloc` keeps the string of every ID it had allocated. -/
theorem lookup_getOrAlloc_of_mem {trialHash : String → UInt64 → UInt64} {a a' : IDAllocator}
    {s s' : String} {u v : UInt64} (h : a.getOrAlloc trialHash s = .ok (a', u))
    (hv : a.uint64ToStr.lookup v = some s') : a'.uint64ToStr.lookup v = some s' := by
  rcases getOrAlloc_cases h with ⟨-, rfl⟩ | ⟨-, -, hu, -, ha⟩
  · exact hv
  · have hne : v ≠ u := fun he => hu (he ▸ AList.lookup_isSome.mp (by rw [hv]; rfl))
    rw [ha, AList.lookup_insert_ne hne, hv]

/-- What a successful `ReleaseUintID` does. -/
theorem releaseUintID_eq_ok {a a' : IDAllocator} {u : UInt64} (h : a.releaseUintID u = .ok a') :
    ∃ s, a.uint64ToStr.lookup u = some s ∧ a'.strToUint64 = a.strToUint64.erase s ∧
      a'.uint64ToStr = a.uint64ToStr.erase u := by
  unfold releaseUintID at h
  split at h
  · cases h
  · rename_i s hs
    cases h
    exact ⟨s, hs, rfl, rfl⟩

/-- `ReleaseUintID` of an allocated ID succeeds. -/
theorem releaseUintID_ok_of_mem {a : IDAllocator} {u : UInt64} (hu : u ∈ a.uint64ToStr) :
    ∃ a', a.releaseUintID u = .ok a' := by
  obtain ⟨s, hs⟩ := Option.isSome_iff_exists.mp (AList.lookup_isSome.mpr hu)
  unfold releaseUintID
  split
  · rename_i h
    rw [hs] at h
    cases h
  · exact ⟨_, rfl⟩

/-- `GetOrAlloc` hands out no 0, and changes the ID of no other string. -/
theorem getNoAlloc_getOrAlloc {trialHash : String → UInt64 → UInt64} {a a' : IDAllocator}
    {s : String} {u : UInt64} (h : a.getOrAlloc trialHash s = .ok (a', u)) :
    u ≠ 0 ∧ a'.getNoAlloc s = u ∧ ∀ s', s' ≠ s → a'.getNoAlloc s' = a.getNoAlloc s' := by
  have hu : u ≠ 0 := by
    rcases getOrAlloc_cases h with ⟨hs, -⟩ | ⟨-, hu, -⟩
    · rintro rfl
      exact a.zero_not_mem (AList.lookup_isSome.mp (by rw [(a.inverse s 0).mp hs]; rfl))
    · exact hu
  refine ⟨hu, (getNoAlloc_eq_iff hu).mpr (lookup_getOrAlloc h), fun s' hs' => ?_⟩
  rcases getOrAlloc_cases h with ⟨-, rfl⟩ | ⟨-, -, -, hstr, -⟩
  · rfl
  · unfold getNoAlloc
    rw [hstr, AList.lookup_insert_ne hs']

end IDAllocator

end Felix.Idalloc
