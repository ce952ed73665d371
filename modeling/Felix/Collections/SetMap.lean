import Felix.Collections.IterSet
import Mathlib

/-!
# Maps from keys to non-empty sets

A map whose values are sets, with the set of a key created on its first insertion and the
key removed when its set becomes empty, is how a garbage-collected language stores a
relation that it looks up from one side: `m[a]` is the set of the `b` related to `a`. Two
such maps, one for each side, store a relation that can be looked up from both.

`SetMap α β` is an association list of `IterSet`s. `Mem m a b` is the relation it stores;
`put` and `discard` add and remove one pair, creating and removing the keys as described.

## Main definitions

* `SetMap α β`, `SetMap.Mem`, `SetMap.NoEmpty`
* `SetMap.put`, `SetMap.discard`

## Main results

* `mem_put`, `mem_discard`: the stored relation after each operation
* `NoEmpty.put`, `NoEmpty.discard`: no key is ever left with an empty set
-/

/-- A map from keys to sets of values. -/
abbrev SetMap (α β : Type*) := AList (fun _ : α => IterSet β)

namespace SetMap

variable {α β : Type*} [DecidableEq α]

/-- The relation the map stores: `b` is in the set of `a`. -/
def Mem (m : SetMap α β) (a : α) (b : β) : Prop := b ∈ (m.lookup a).getD ∅
attribute [grind] Mem

/-- No key is mapped to the empty set. -/
def NoEmpty (m : SetMap α β) : Prop := ∀ a s, m.lookup a = some s → s.toList ≠ []

section Lookup

variable {m : SetMap α β} {a : α} {b : β}

theorem mem_iff : m.Mem a b ↔ ∃ s, m.lookup a = some s ∧ b ∈ s := by
  unfold Mem
  cases m.lookup a <;> simp

theorem mem_of_lookup {s : IterSet β} (h : m.lookup a = some s) : m.Mem a b ↔ b ∈ s := by
  simp [Mem, h]

theorem not_mem_of_lookup_none (h : m.lookup a = none) : ¬m.Mem a b := by
  simp [Mem, h]

/-- In a map without empty sets, a key is present exactly when something is related to it. -/
theorem NoEmpty.mem_keys_iff (h : m.NoEmpty) : a ∈ m ↔ ∃ b, m.Mem a b := by
  constructor
  · intro ha
    obtain ⟨s, hs⟩ := Option.isSome_iff_exists.mp (AList.lookup_isSome.mpr ha)
    obtain ⟨b, hb⟩ := List.exists_mem_of_ne_nil _ (h a s hs)
    exact ⟨b, (mem_of_lookup hs).mpr hb⟩
  · rintro ⟨b, hb⟩
    obtain ⟨s, hs, -⟩ := mem_iff.mp hb
    exact AList.lookup_isSome.mp (by simp [hs])

end Lookup

variable [DecidableEq β]

instance (m : SetMap α β) (a : α) (b : β) : Decidable (m.Mem a b) :=
  inferInstanceAs (Decidable (b ∈ (m.lookup a).getD ∅))

/-- Add `b` to the set of `a`, creating the set if `a` has none. -/
def put (a : α) (b : β) (m : SetMap α β) : SetMap α β :=
  m.insert a (((m.lookup a).getD ∅).add b)
attribute [grind] put

/-- Remove `b` from the set of `a`, and remove `a` if its set becomes empty. -/
def discard (a : α) (b : β) (m : SetMap α β) : SetMap α β :=
  match m.lookup a with
  | none => m
  | some s => if (s.discard b).toList = [] then m.erase a else m.insert a (s.discard b)

variable {m : SetMap α β} {a a' : α} {b b' : β}

@[simp] theorem mem_put : (m.put a b).Mem a' b' ↔ (a' = a ∧ b' = b) ∨ m.Mem a' b' := by
  by_cases ha : a' = a
  · subst ha
    simp [put, Mem, AList.lookup_insert]
  · simp [put, Mem, AList.lookup_insert_ne ha, ha]

@[simp] theorem mem_discard : (m.discard a b).Mem a' b' ↔ ¬(a' = a ∧ b' = b) ∧ m.Mem a' b' := by
  unfold discard
  cases hm : m.lookup a with
  | none =>
    -- `a` has no set: nothing of `a` is related, so nothing changes
    by_cases ha : a' = a
    · subst ha
      simp [not_mem_of_lookup_none hm]
    · simp [ha]
  | some s =>
    dsimp only
    by_cases ha : a' = a
    · subst ha
      rw [mem_of_lookup hm]
      split_ifs with he
      · have : b' ∉ s.discard b := by simp [← IterSet.mem_toList, he]
        simp only [Mem, AList.lookup_erase, Option.getD_none, IterSet.not_mem_empty, false_iff]
        simp_all
      · simp [Mem, AList.lookup_insert]
    · split_ifs <;> simp [Mem, AList.lookup_erase_ne ha, AList.lookup_insert_ne ha, ha]

/-- `put` makes its key present and leaves the others. -/
theorem mem_keys_put : a' ∈ m.put a b ↔ a' = a ∨ a' ∈ m := AList.mem_insert _

/-- `discard` leaves every other key as it was. -/
theorem mem_keys_discard_of_ne (ha : a' ≠ a) : a' ∈ m.discard a b ↔ a' ∈ m := by
  unfold discard
  cases m.lookup a with
  | none => rfl
  | some s =>
    dsimp only
    split_ifs
    · simp [AList.mem_erase, ha]
    · simp [AList.mem_insert, ha]

theorem NoEmpty.put (h : m.NoEmpty) (a : α) (b : β) : (m.put a b).NoEmpty := by
  intro a' s hs
  by_cases ha : a' = a
  · subst ha
    simp only [SetMap.put, AList.lookup_insert, Option.some.injEq] at hs
    subst hs
    exact List.ne_nil_of_mem (IterSet.mem_add.mpr (Or.inl rfl))
  · rw [SetMap.put, AList.lookup_insert_ne ha] at hs
    exact h a' s hs

theorem NoEmpty.discard (h : m.NoEmpty) (a : α) (b : β) : (m.discard a b).NoEmpty := by
  intro a' s' hs
  unfold SetMap.discard at hs
  cases hm : m.lookup a with
  | none =>
    rw [hm] at hs
    exact h a' s' hs
  | some s =>
    rw [hm] at hs
    dsimp only at hs
    by_cases ha : a' = a
    · subst ha
      split_ifs at hs with he
      · simp at hs
      · simp only [AList.lookup_insert, Option.some.injEq] at hs
        exact hs ▸ he
    · split_ifs at hs
      · exact h a' s' (by rwa [AList.lookup_erase_ne ha] at hs)
      · exact h a' s' (by rwa [AList.lookup_insert_ne ha] at hs)

end SetMap
