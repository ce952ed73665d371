import Mathlib

/-!
# Reference counts that mark their zero crossings

A reference counter of this kind keeps a count per key and marks a key whenever an increment
takes its count to one or a decrement takes it to zero, so that whoever reads the marks later
revisits the key. `RefCounter` gives such a counter by what its two operations do to the count
and to the marks, whatever state carries them. The lemmas follow a batch of increments and then
a batch of decrements, the order in which callers that swap one set of references for another
increment the new ones before they decrement the old, so that a key referred to on both sides is
never seen at zero on the way.

Whether a key's count is zero can change over such a swap only for a key that ends marked
(`zero_iff_or_marked`), as long as the count is not negative before or after.

## Main definitions

* `RefCounter`: a count and a set of marks, with the specification of `incr` and `decr`
* `RefCounter.incrAll`, `RefCounter.decrAll`: the operations over a list of keys, in order

## Main results

* `count_incrAll`, `count_decrAll`: a batch moves each count by the times its key occurs
* `marked_incrAll_of_zero`, `marked_decrAll_of_zero`: crossing zero marks the key
* `zero_iff_or_marked`: a swap of references changes whether a count is zero only for a marked
  key
-/

/-- A counter whose `incr` and `decr` move one key's count by one, marking the key when its
count becomes one, respectively zero; no other count and no other mark moves. -/
structure RefCounter (σ α : Type*) [DecidableEq α] where
  /-- The count of a key. -/
  count : σ → α → ℤ
  /-- Whether a key is marked. -/
  marked : σ → α → Prop
  incr : α → σ → σ
  decr : α → σ → σ
  count_incr : ∀ s a b, count (incr a s) b = count s b + if b = a then 1 else 0
  count_decr : ∀ s a b, count (decr a s) b = count s b - if b = a then 1 else 0
  marked_incr : ∀ s a b, marked (incr a s) b ↔ marked s b ∨ b = a ∧ count s a + 1 = 1
  marked_decr : ∀ s a b, marked (decr a s) b ↔ marked s b ∨ b = a ∧ count s a - 1 = 0

namespace RefCounter

variable {σ α : Type*} [DecidableEq α] (R : RefCounter σ α)

/-- An increment of each key of the list, in order. -/
def incrAll (l : List α) (s : σ) : σ := l.foldl (fun s a => R.incr a s) s

/-- A decrement of each key of the list, in order. -/
def decrAll (l : List α) (s : σ) : σ := l.foldl (fun s a => R.decr a s) s

@[simp] theorem incrAll_nil (s : σ) : R.incrAll [] s = s := rfl

@[simp] theorem decrAll_nil (s : σ) : R.decrAll [] s = s := rfl

theorem incrAll_cons (a : α) (l : List α) (s : σ) :
    R.incrAll (a :: l) s = R.incrAll l (R.incr a s) := rfl

theorem decrAll_cons (a : α) (l : List α) (s : σ) :
    R.decrAll (a :: l) s = R.decrAll l (R.decr a s) := rfl

theorem count_incrAll (b : α) : ∀ (l : List α) (s : σ),
    R.count (R.incrAll l s) b = R.count s b + l.count b
  | [], s => by simp
  | a :: l, s => by
    rw [incrAll_cons, count_incrAll b l, R.count_incr, List.count_cons]
    by_cases hab : b = a
    · subst hab
      simp only [if_true, beq_self_eq_true]
      omega
    · simp [hab, Ne.symm hab]

theorem count_decrAll (b : α) : ∀ (l : List α) (s : σ),
    R.count (R.decrAll l s) b = R.count s b - l.count b
  | [], s => by simp
  | a :: l, s => by
    rw [decrAll_cons, count_decrAll b l, R.count_decr, List.count_cons]
    by_cases hab : b = a
    · subst hab
      simp only [if_true, beq_self_eq_true]
      omega
    · simp [hab, Ne.symm hab]

/-- A mark stays through increments. -/
theorem marked_incrAll_of_marked {b : α} : ∀ (l : List α) {s : σ}, R.marked s b →
    R.marked (R.incrAll l s) b
  | [], _, h => h
  | a :: l, _, h => marked_incrAll_of_marked l ((R.marked_incr _ a b).mpr (.inl h))

/-- A mark stays through decrements. -/
theorem marked_decrAll_of_marked {b : α} : ∀ (l : List α) {s : σ}, R.marked s b →
    R.marked (R.decrAll l s) b
  | [], _, h => h
  | a :: l, _, h => marked_decrAll_of_marked l ((R.marked_decr _ a b).mpr (.inl h))

/-- Increments of a key at zero mark it: the first takes it to one. -/
theorem marked_incrAll_of_zero {b : α} : ∀ {l : List α} {s : σ}, R.count s b = 0 → b ∈ l →
    R.marked (R.incrAll l s) b
  | [], _, _, hb => absurd hb List.not_mem_nil
  | a :: l, s, h0, hb => by
    rw [incrAll_cons]
    by_cases hab : b = a
    · subst hab
      exact R.marked_incrAll_of_marked l ((R.marked_incr s b b).mpr (.inr ⟨rfl, by omega⟩))
    · have h0' : R.count (R.incr a s) b = 0 := by rw [R.count_incr, if_neg hab, h0]; rfl
      exact marked_incrAll_of_zero h0' ((List.mem_cons.mp hb).resolve_left hab)

/-- Decrements that leave a key at zero mark it: the last of them takes it there. -/
theorem marked_decrAll_of_zero {b : α} : ∀ {l : List α} {s : σ},
    R.count (R.decrAll l s) b = 0 → b ∈ l → R.marked (R.decrAll l s) b
  | [], _, _, hb => absurd hb List.not_mem_nil
  | a :: l, s, h0, hb => by
    rw [decrAll_cons] at h0 ⊢
    by_cases hbl : b ∈ l
    · exact marked_decrAll_of_zero h0 hbl
    · -- the decrement of the head is the last one of `b`
      have hab : b = a := (List.mem_cons.mp hb).resolve_right hbl
      subst hab
      rw [count_decrAll, List.count_eq_zero_of_not_mem hbl, R.count_decr, if_pos rfl] at h0
      exact R.marked_decrAll_of_marked l ((R.marked_decr s b b).mpr (.inr ⟨rfl, by omega⟩))

/-- **A swap of references changes whether a count is zero only for a key it marks.**
Increments of the keys of `l` and then decrements of those of `m`, with the count of `b` not
negative before and after: either `b`'s count is zero after exactly when it was before, or `b`
ends marked. -/
theorem zero_iff_or_marked (l m : List α) (s : σ) (b : α) (hs : 0 ≤ R.count s b)
    (hs' : 0 ≤ R.count (R.decrAll m (R.incrAll l s)) b) :
    (R.count (R.decrAll m (R.incrAll l s)) b = 0 ↔ R.count s b = 0) ∨
      R.marked (R.decrAll m (R.incrAll l s)) b := by
  have hcount := R.count_decrAll b m (R.incrAll l s)
  rw [count_incrAll] at hcount
  by_cases h0 : R.count s b = 0
  · by_cases h0' : R.count (R.decrAll m (R.incrAll l s)) b = 0
    · exact .inl (iff_of_true h0' h0)
    · -- from zero to a positive count: some increment took `b` to one
      have hl : b ∈ l := List.count_pos_iff.mp (by omega)
      exact .inr (R.marked_decrAll_of_marked m (R.marked_incrAll_of_zero h0 hl))
  · by_cases h0' : R.count (R.decrAll m (R.incrAll l s)) b = 0
    · -- from a positive count to zero: some decrement took `b` there
      have hm : b ∈ m := List.count_pos_iff.mp (by omega)
      exact .inr (R.marked_decrAll_of_zero h0' hm)
    · exact .inl (iff_of_false h0' h0)

end RefCounter
