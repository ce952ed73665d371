import Mathlib

/-!
# Maps written along a list, and totals over a map

A loop that writes `m[key(u)] = value(u)` for each `u` of a list is a fold of `AList.insert`.
Read back at one key, the map holds the value of the last element with that key, or what it held
before when no element has the key. These are the two lemmas a proof about such a loop needs:
`lookup_foldl_insert_of_forall_ne` and, when the keys of the list are distinct,
`lookup_foldl_insert_of_mem`.

A total over a map's values, such as a count of references summed over every entry, moves under
a write by the new value less the old one (`sum_map_entries_insert`), and under a delete by the
old value (`sum_map_entries_erase`).

## Main results

* `AList.lookup_foldl_insert_of_forall_ne`, `AList.lookup_foldl_insert_of_mem`
* `AList.sum_map_entries_insert`, `AList.sum_map_entries_erase`
-/

namespace AList

variable {α β γ : Type*} [DecidableEq α] (f : γ → α) (g : γ → β)

/-- A key no element of the list writes keeps its value. -/
theorem lookup_foldl_insert_of_forall_ne {a : α} :
    ∀ (l : List γ) (m : AList fun _ : α => β), (∀ u ∈ l, f u ≠ a) →
      (l.foldl (fun m u => m.insert (f u) (g u)) m).lookup a = m.lookup a
  | [], _, _ => rfl
  | u :: l, m, h => by
    rw [List.foldl_cons,
      lookup_foldl_insert_of_forall_ne l _ fun v hv => h v (List.mem_cons_of_mem _ hv),
      lookup_insert_ne (Ne.symm (h u List.mem_cons_self))]

/-- With distinct keys, each element's key holds its value. -/
theorem lookup_foldl_insert_of_mem {l : List γ} (hl : (l.map f).Nodup) {u : γ} (hu : u ∈ l)
    (m : AList fun _ : α => β) :
    (l.foldl (fun m u => m.insert (f u) (g u)) m).lookup (f u) = some (g u) := by
  obtain ⟨l₁, l₂, rfl⟩ := List.append_of_mem hu
  have hne : ∀ v ∈ l₂, f v ≠ f u := by
    intro v hv hvu
    rw [List.map_append, List.map_cons, List.nodup_append] at hl
    exact (List.nodup_cons.mp hl.2.1).1 (hvu ▸ List.mem_map_of_mem hv)
  rw [List.foldl_append, List.foldl_cons, lookup_foldl_insert_of_forall_ne f g l₂ _ hne,
    lookup_insert]

/-! ## Totals over the entries -/

section Sum

variable {β' : Type*} (v : β' → ℕ)

/-- A total over a list of entries is the value of the first entry with a given key, plus the
total over the others. -/
theorem sum_map_kerase (a : α) : ∀ l : List (Sigma fun _ : α => β'),
    (l.map fun e => v e.2).sum = ((l.dlookup a).map v).getD 0 +
      ((l.kerase a).map fun e => v e.2).sum
  | [] => by simp
  | ⟨a', b'⟩ :: l => by
    by_cases h : a' = a
    · subst h
      rw [List.dlookup_cons_eq, List.kerase_cons_eq (s := ⟨a', b'⟩) (l := l) rfl, List.map_cons,
        List.sum_cons]
      rfl
    · rw [List.dlookup_cons_ne _ _ (Ne.symm h), List.kerase_cons_ne (Ne.symm h), List.map_cons,
        List.sum_cons, List.map_cons, List.sum_cons, sum_map_kerase a l]
      omega

/-- A write moves the total by the new value less the old one. -/
theorem sum_map_entries_insert (s : AList fun _ : α => β') (a : α) (b : β') :
    ((s.insert a b).entries.map fun e => v e.2).sum + ((s.lookup a).map v).getD 0 =
      v b + (s.entries.map fun e => v e.2).sum := by
  rw [entries_insert, List.map_cons, List.sum_cons, sum_map_kerase v a s.entries]
  change v b + _ + ((s.entries.dlookup a).map v).getD 0 = _
  omega

/-- A delete takes the old value off the total. -/
theorem sum_map_entries_erase (s : AList fun _ : α => β') (a : α) :
    ((s.erase a).entries.map fun e => v e.2).sum + ((s.lookup a).map v).getD 0 =
      (s.entries.map fun e => v e.2).sum := by
  rw [sum_map_kerase v a s.entries]
  change ((s.entries.kerase a).map fun e => v e.2).sum + ((s.entries.dlookup a).map v).getD 0 = _
  omega

end Sum

end AList
