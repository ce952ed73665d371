import Mathlib

/-!
# Bringing a list in line with another, position by position

A list of records, each with a key, is brought in line with a new list of keys by edits at
positions. Where both lists have a key and the keys differ, the record is set. Where the old
list is longer, the record just after the new last one is erased, once for each surplus record.
Where the new list is longer, the new records are pushed at the end. Positions whose keys agree
are left alone, so the records there are kept as they were.

`diffEdits` is that script, one position at a time over the longer of the two lists, and
`applyAll_diffEdits` says what it does. Run on a list as long as the old keys, it gives
`diffResult`: a list as long as the new keys, holding the new record at every position whose key
changed or is new and the old record at every other. `map_diffResult` reads the keys back: when
the old records carry the old keys and each new record its new key, the result carries exactly
the new keys.

## Main definitions

* `ListEdit`, `ListEdit.apply`, `ListEdit.applyAll`
* `ListEdit.diffEdit`, `ListEdit.diffEdits`, `ListEdit.diffResult`

## Main results

* `ListEdit.applyAll_diffEdits`: the script turns the list into `diffResult`
* `ListEdit.map_diffResult`: the keys of `diffResult`
-/

/-- One edit of a list at a position. -/
inductive ListEdit (α : Type*) where
  /-- Replace the element at a position. -/
  | set (i : ℕ) (a : α)
  /-- Remove the element at a position. -/
  | eraseAt (i : ℕ)
  /-- Add an element at the end. -/
  | push (a : α)

namespace ListEdit

variable {α : Type*}

/-- The edit applied to a list; an edit at a position the list does not have fails. -/
def apply : ListEdit α → List α → Option (List α)
  | set i a, l => if i < l.length then some (l.set i a) else none
  | eraseAt i, l => if i < l.length then some (l.eraseIdx i) else none
  | push a, l => some (l ++ [a])
attribute [grind] apply

/-- The edits applied in order, the first that fails failing the whole. -/
def applyAll (l : List α) (es : List (ListEdit α)) : Option (List α) :=
  es.foldlM (fun l e => e.apply l) l

@[simp]
theorem applyAll_nil (l : List α) : applyAll l [] = some l := rfl

theorem applyAll_cons (l : List α) (e : ListEdit α) (es : List (ListEdit α)) :
    applyAll l (e :: es) = (e.apply l).bind (applyAll · es) := rfl

theorem applyAll_append (l : List α) (es es' : List (ListEdit α)) :
    applyAll l (es ++ es') = (applyAll l es).bind (applyAll · es') := by
  simp only [applyAll, List.foldlM_append]
  rfl

/-- Erasing at `m`, `k` times, cuts a list of `m + k` elements down to its first `m`. -/
theorem applyAll_replicate_eraseAt (m : ℕ) :
    ∀ (k : ℕ) (l : List α), l.length = m + k →
      applyAll l (List.replicate k (eraseAt m)) = some (l.take m)
  | 0, l, hl => by rw [List.replicate_zero, applyAll_nil, List.take_of_length_le (by omega)]
  | k + 1, l, hl => by
    have hm : m < l.length := by omega
    have hlen : (l.eraseIdx m).length = m + k := by rw [List.length_eraseIdx_of_lt hm]; omega
    rw [List.replicate_succ, applyAll_cons, apply, if_pos hm, Option.bind_some,
      applyAll_replicate_eraseAt m k _ hlen, List.eraseIdx_eq_take_drop_succ,
      List.take_append_of_le_length (by simp; omega), List.take_take, min_self]

/-- Pushing records in order appends them. -/
theorem applyAll_map_push (f : ℕ → α) :
    ∀ (is : List ℕ) (l : List α),
      applyAll l (is.map fun i => push (f i)) = some (l ++ is.map f)
  | [], l => by simp
  | i :: is, l => by
    rw [List.map_cons, applyAll_cons, apply, Option.bind_some, applyAll_map_push f is]
    simp

section Diff

variable {κ : Type*} [DecidableEq κ] (old new : List κ) (value : ℕ → α)

/-- The edit at position `i`: a set where the keys differ, an erase just after the new last
record where only the old list has a key, a push where only the new list has one. -/
def diffEdit (i : ℕ) : Option (ListEdit α) :=
  match old[i]?, new[i]? with
  | some o, some n => if o = n then none else some (set i (value i))
  | some _, none => some (eraseAt new.length)
  | none, some _ => some (push (value i))
  | none, none => none
attribute [grind] diffEdit

/-- The script, position by position over the longer list. -/
def diffEdits : List (ListEdit α) :=
  (List.range (max old.length new.length)).filterMap (diffEdit old new value)

/-- What the script makes of a list: at each position of the new keys, the old record where
the key is unchanged and the new record otherwise. -/
def diffResult (l : List α) : List α :=
  (List.range new.length).map fun i => if old[i]? = new[i]? then l.getD i (value i) else value i

/-- The list after the sets at the positions below `j`. -/
def patched (j : ℕ) (l : List α) : List α :=
  l.mapIdx fun i a => if i < j ∧ old[i]? ≠ new[i]? then value i else a
attribute [grind] patched

theorem diffEdit_of_lt {i : ℕ} (ho : i < old.length) (hn : i < new.length) :
    diffEdit old new value i = if old[i]? = new[i]? then none else some (set i (value i)) := by
  rw [diffEdit, List.getElem?_eq_getElem ho, List.getElem?_eq_getElem hn]
  simp only [Option.some.injEq]

theorem diffEdit_of_new_le {i : ℕ} (ho : i < old.length) (hn : new.length ≤ i) :
    diffEdit old new value i = some (eraseAt new.length) := by
  rw [diffEdit, List.getElem?_eq_getElem ho, List.getElem?_eq_none hn]

theorem diffEdit_of_old_le {i : ℕ} (ho : old.length ≤ i) (hn : i < new.length) :
    diffEdit old new value i = some (push (value i)) := by
  rw [diffEdit, List.getElem?_eq_none ho, List.getElem?_eq_getElem hn]

@[simp]
theorem length_patched (j : ℕ) (l : List α) : (patched old new value j l).length = l.length :=
  List.length_mapIdx

theorem getElem?_patched (j : ℕ) (l : List α) (i : ℕ) :
    (patched old new value j l)[i]? =
      l[i]?.map fun a => if i < j ∧ old[i]? ≠ new[i]? then value i else a :=
  List.getElem?_mapIdx

theorem patched_zero (l : List α) : patched old new value 0 l = l := by
  apply List.ext_getElem?
  intro i
  rw [getElem?_patched]
  simp

/-- One more position of the first phase: a set where the keys differ, nothing where they
agree. -/
theorem patched_succ {j : ℕ} (l : List α) (hl : l.length = old.length) (hj : j < old.length)
    (hjn : j < new.length) :
    applyAll (patched old new value j l) ((diffEdit old new value j).toList) =
      some (patched old new value (j + 1) l) := by
  rw [diffEdit_of_lt old new value hj hjn]
  by_cases heq : old[j]? = new[j]?
  · have : patched old new value (j + 1) l = patched old new value j l := by
      apply List.ext_getElem?
      intro i
      rw [getElem?_patched, getElem?_patched]
      congr 1
      funext a
      by_cases hij : i = j
      · subst hij
        simp [heq]
      · have : i < j + 1 ↔ i < j := by omega
        simp only [this]
    simp [heq, this]
  · have hjl : j < (patched old new value j l).length := by rw [length_patched]; omega
    rw [if_neg heq, Option.toList_some, applyAll_cons, apply, if_pos hjl, Option.bind_some,
      applyAll_nil]
    congr 1
    apply List.ext_getElem?
    intro i
    rw [List.getElem?_set, getElem?_patched, getElem?_patched]
    by_cases hij : j = i
    · subst hij
      have : j < l.length := by omega
      simp [heq, this]
    · have : i < j + 1 ↔ i < j := by omega
      simp only [hij, if_false, this]

/-- The first phase: the positions both lists have, in order. -/
theorem applyAll_patched (l : List α) (hl : l.length = old.length) :
    ∀ j ≤ min old.length new.length,
      applyAll l ((List.range j).filterMap (diffEdit old new value)) =
        some (patched old new value j l)
  | 0, _ => by simp [patched_zero]
  | j + 1, hj => by
    have hj' : j < min old.length new.length := by omega
    rw [List.range_succ, List.filterMap_append, applyAll_append,
      applyAll_patched l hl j (by omega), Option.bind_some]
    have : [j].filterMap (diffEdit old new value) = (diffEdit old new value j).toList := by
      rw [List.filterMap_cons, List.filterMap_nil]
      cases diffEdit old new value j <;> rfl
    rw [this]
    exact patched_succ old new value l hl (by omega) (by omega)

/-- The second phase where the old list is longer: an erase at the new length for each surplus
position. -/
theorem filterMap_diffEdit_surplus (hle : new.length ≤ old.length) :
    (List.range' new.length (old.length - new.length)).filterMap (diffEdit old new value) =
      List.replicate (old.length - new.length) (eraseAt new.length) := by
  have : (List.range' new.length (old.length - new.length)).filterMap (diffEdit old new value) =
      (List.range' new.length (old.length - new.length)).map fun _ => eraseAt new.length := by
    apply List.filterMap_eq_map_iff_forall_eq_some.mpr
    intro i hi
    rw [List.mem_range'_1] at hi
    exact diffEdit_of_new_le old new value (by omega) (by omega)
  rw [this, List.map_const', List.length_range']

/-- The second phase where the new list is longer: a push for each new position. -/
theorem filterMap_diffEdit_extra (hle : old.length ≤ new.length) :
    (List.range' old.length (new.length - old.length)).filterMap (diffEdit old new value) =
      (List.range' old.length (new.length - old.length)).map fun i => push (value i) := by
  apply List.filterMap_eq_map_iff_forall_eq_some.mpr
  intro i hi
  rw [List.mem_range'_1] at hi
  exact diffEdit_of_old_le old new value (by omega) (by omega)

theorem range_max (a b : ℕ) :
    List.range (max a b) = List.range (min a b) ++ List.range' (min a b) (max a b - min a b) := by
  conv_lhs => rw [show max a b = min a b + (max a b - min a b) by omega]
  rw [List.range_add, List.range'_eq_map_range]

/-- At a position both lists have, the first phase and `diffResult` agree. -/
theorem getElem?_patched_of_lt (l : List α) (hl : l.length = old.length) {i : ℕ}
    (ho : i < old.length) (hn : i < new.length) :
    (patched old new value (min old.length new.length) l)[i]? =
      (diffResult old new value l)[i]? := by
  have hil : i < l.length := by omega
  rw [getElem?_patched, diffResult, List.getElem?_map, List.getElem?_range hn,
    List.getElem?_eq_getElem hil, Option.map_some, Option.map_some, List.getD_eq_getElem _ _ hil]
  by_cases heq : old[i]? = new[i]?
  · simp [heq]
  · simp [heq, show i < min old.length new.length by omega]

/-- **The script turns a list as long as the old keys into `diffResult`.** -/
theorem applyAll_diffEdits (l : List α) (hl : l.length = old.length) :
    applyAll l (diffEdits old new value) = some (diffResult old new value l) := by
  rw [diffEdits, range_max, List.filterMap_append, applyAll_append,
    applyAll_patched old new value l hl _ le_rfl, Option.bind_some]
  rcases le_total new.length old.length with hle | hle
  · -- the old list is longer: the surplus records are erased
    rw [min_eq_right hle, max_eq_left hle, filterMap_diffEdit_surplus old new value hle,
      applyAll_replicate_eraseAt _ _ _ (by rw [length_patched]; omega)]
    congr 1
    apply List.ext_getElem?
    intro i
    rw [List.getElem?_take]
    by_cases hi : i < new.length
    · rw [if_pos hi, ← min_eq_right hle]
      exact getElem?_patched_of_lt old new value l hl (by omega) hi
    · rw [if_neg hi, diffResult, List.getElem?_map, List.getElem?_eq_none (by simpa using hi),
        Option.map_none]
  · -- the new list is longer: the new records are pushed
    rw [min_eq_left hle, max_eq_right hle, filterMap_diffEdit_extra old new value hle,
      applyAll_map_push]
    congr 1
    apply List.ext_getElem?
    intro i
    by_cases hi : i < old.length
    · rw [List.getElem?_append_left (by rw [length_patched]; omega), ← min_eq_left hle]
      exact getElem?_patched_of_lt old new value l hl hi (by omega)
    · rw [List.getElem?_append_right (by rw [length_patched]; omega), length_patched, hl,
        List.getElem?_map, diffResult, List.getElem?_map]
      by_cases hin : i < new.length
      · have hold : old[i]? = none := List.getElem?_eq_none (by omega)
        have hnew : new[i]? ≠ none := by simp [hin]
        rw [List.getElem?_range' (by omega), List.getElem?_range hin, Option.map_some,
          Option.map_some, if_neg (by rw [hold]; exact Ne.symm hnew),
          show old.length + 1 * (i - old.length) = i by omega]
      · have hpush : (List.range' old.length (new.length - old.length))[i - old.length]? = none :=
          List.getElem?_eq_none (by simp; omega)
        rw [hpush, List.getElem?_eq_none (by simpa using hin), Option.map_none, Option.map_none]

/-- **The keys of `diffResult`**: the old records carry the old keys and each new record its
new key, so the result carries the new keys. -/
theorem map_diffResult {f : α → κ} (l : List α) (hl : l.map f = old)
    (hvalue : ∀ i < new.length, some (f (value i)) = new[i]?) :
    (diffResult old new value l).map f = new := by
  apply List.ext_getElem?
  intro i
  rw [List.getElem?_map, diffResult, List.getElem?_map]
  by_cases hi : i < new.length
  · rw [List.getElem?_range hi, Option.map_some, Option.map_some]
    by_cases heq : old[i]? = new[i]?
    · have hio : i < l.length := by
        have hsome : old[i]? ≠ none := by rw [heq]; simp [hi]
        rw [← List.length_map (f := f), hl]
        simpa using hsome
      rw [if_pos heq, List.getD_eq_getElem _ _ hio, ← heq, ← hl, List.getElem?_map,
        List.getElem?_eq_getElem hio, Option.map_some]
    · rw [if_neg heq]
      exact hvalue i hi
  · rw [List.getElem?_eq_none (by simpa using hi), Option.map_none, Option.map_none,
      List.getElem?_eq_none (by omega)]

end Diff

end ListEdit
