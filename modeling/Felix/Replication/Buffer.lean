import Felix.Collections.IterSet
import Mathlib

/-!
# Coalescing replication of a keyed store

A producer keeps a keyed store and tells a consumer about it only through messages: an
update `(k, v)` overwrites `k`, a deletion `k` removes it. Between flushes the producer
sends nothing; it queues its changes in a buffer, where a later change of a key replaces
an earlier one and the deletion of a key the consumer never heard of is dropped. A flush
sends every queued update, then every queued deletion.

The buffer also records the keys it has sent. `Replicates b down up` says that `b` stands
between a consumer holding `down` and a producer holding `up`: flushing `b` turns `down`
into `up`. It holds of the empty buffer; `update` and `remove` keep it while the producer's
store changes, and the two loops of a flush keep it while the consumer's store changes.
Each message a flush sends is one the consumer can take: an update carries the producer's
current value, and a deletion names a key the consumer holds.

## Main definitions

* `Buffer K V`: the queued updates and deletions, and the keys sent so far
* `Buffer.update`, `Buffer.remove`: record a change of the producer's store
* `Buffer.flushUpdates`, `Buffer.flushDeletes`: the two loops of a flush, with the
  messages they send
* `Replicates b down up`: the buffer's invariant

## Main results

* `Replicates.update`, `Replicates.remove`: the producer's changes keep the invariant
* `Replicates.flushUpdates`, `Replicates.flushDeletes`: so do the loops of a flush
* `Replicates.eq_of_idle`: with nothing queued, the consumer holds the producer's store
-/

namespace Replication

/-- A loop over `xs` whose body updates a state and emits one message, as a `for` loop
that calls a callback on each turn: the final state and the messages in order. -/
def emitLoop {σ α μ : Type*} (body : σ → α → σ × μ) : List α → σ → σ × List μ
  | [], s => (s, [])
  | x :: xs, s =>
    let r := body s x
    let rest := emitLoop body xs r.1
    (rest.1, r.2 :: rest.2)

@[simp] theorem emitLoop_nil {σ α μ : Type*} (body : σ → α → σ × μ) (s : σ) :
    emitLoop body [] s = (s, []) := rfl

@[simp] theorem emitLoop_cons {σ α μ : Type*} (body : σ → α → σ × μ) (x : α) (xs : List α)
    (s : σ) :
    emitLoop body (x :: xs) s =
      ((emitLoop body xs (body s x).1).1, (body s x).2 :: (emitLoop body xs (body s x).1).2) :=
  rfl

/-- A loop whose messages do not depend on the state is a fold and a map. -/
theorem emitLoop_eq {σ α μ : Type*} {body : σ → α → σ × μ} (f : σ → α → σ) (g : α → μ)
    (h : ∀ s x, body s x = (f s x, g x)) (xs : List α) (s : σ) :
    emitLoop body xs s = (xs.foldl f s, xs.map g) := by
  induction xs generalizing s with
  | nil => rfl
  | cons x xs ih => simp [h, ih]

/-- Two phases run one after the other: the state the first leaves is the second's, and
the messages are the first's followed by the second's. -/
def emitSeq {σ μ : Type*} (p q : σ → σ × List μ) (s : σ) : σ × List μ :=
  ((q (p s).1).1, (p s).2 ++ (q (p s).1).2)

/-- The consumer's store after taking the updates `es` in order. -/
def applyUpdates {K V : Type*} [DecidableEq K] (d : K → Option V) (es : List (K × V)) :
    K → Option V :=
  es.foldl (fun d e => Function.update d e.1 (some e.2)) d

/-- The consumer's store after taking the deletions `ks` in order. -/
def applyDeletes {K V : Type*} [DecidableEq K] (d : K → Option V) (ks : List K) :
    K → Option V :=
  ks.foldl (fun d k => Function.update d k none) d

section Apply

variable {K V : Type*} [DecidableEq K]

/-- Updates with distinct keys, taken in any order, write each key's own value. -/
theorem applyUpdates_entries (d : K → Option V) {es : List (Σ _ : K, V)}
    (nd : es.NodupKeys) (k : K) :
    applyUpdates d (es.map fun e => (e.1, e.2)) k = (es.dlookup k).or (d k) := by
  induction es generalizing d with
  | nil => simp [applyUpdates]
  | cons e es ih =>
    obtain ⟨a, x⟩ := e
    obtain ⟨he, nd⟩ := List.nodupKeys_cons.mp nd
    have step := ih (Function.update d a (some x)) nd
    simp only [applyUpdates, List.map_cons, List.foldl_cons] at step ⊢
    rw [step]
    by_cases hk : k = a
    · subst hk
      have hnone : es.dlookup k = none := List.dlookup_eq_none.mpr he
      simp [hnone, List.dlookup_cons_eq]
    · simp [Function.update_of_ne hk, List.dlookup_cons_ne es (⟨a, x⟩ : Σ _ : K, V) hk]

theorem applyDeletes_apply (d : K → Option V) (ks : List K) (k : K) :
    applyDeletes d ks k = if k ∈ ks then none else d k := by
  induction ks generalizing d with
  | nil => simp [applyDeletes]
  | cons k' ks ih =>
    simp only [applyDeletes, List.foldl_cons] at ih ⊢
    rw [ih]
    by_cases hk : k = k' <;> simp [hk, Function.update_of_ne]

end Apply

/-- The buffer between a producer's keyed store and its consumer. -/
structure Buffer (K V : Type*) where
  /-- The latest value of each key changed since the last flush. -/
  pendingUpdates : AList (fun _ : K => V)
  /-- The keys removed since the last flush that the consumer holds. -/
  pendingDeletes : IterSet K
  /-- The keys the consumer holds. -/
  sent : IterSet K

namespace Buffer

variable {K V : Type*} [DecidableEq K]

/-- The buffer of a producer that has sent nothing. -/
def empty : Buffer K V := ⟨∅, ∅, ∅⟩

/-- An update replaces any queued value of `k` and cancels a queued deletion. -/
def update (k : K) (v : V) (b : Buffer K V) : Buffer K V :=
  { b with
    pendingDeletes := b.pendingDeletes.discard k
    pendingUpdates := b.pendingUpdates.insert k v }

/-- A removal drops any queued update of `k`, and queues a deletion when the consumer
holds `k`. -/
def remove (k : K) (b : Buffer K V) : Buffer K V :=
  { b with
    pendingUpdates := b.pendingUpdates.erase k
    pendingDeletes := if k ∈ b.sent then b.pendingDeletes.add k else b.pendingDeletes }

/-- One turn of the update loop: `k` is sent and leaves the queue. -/
def sendUpdate (b : Buffer K V) (k : K) : Buffer K V :=
  { b with sent := b.sent.add k, pendingUpdates := b.pendingUpdates.erase k }
attribute [grind] sendUpdate

/-- One turn of the deletion loop: `k` is deleted downstream and leaves the queue. -/
def sendDelete (b : Buffer K V) (k : K) : Buffer K V :=
  { b with sent := b.sent.discard k, pendingDeletes := b.pendingDeletes.discard k }
attribute [grind] sendDelete

/-- The update loop of a flush: each queued update is sent, in the queue's order. -/
def flushUpdates (b : Buffer K V) : Buffer K V × List (K × V) :=
  emitLoop (fun c e => (c.sendUpdate e.1, (e.1, e.2))) b.pendingUpdates.entries b

/-- The deletion loop of a flush: each queued deletion is sent, in the queue's order. -/
def flushDeletes (b : Buffer K V) : Buffer K V × List K :=
  emitLoop (fun c k => (c.sendDelete k, k)) b.pendingDeletes.toList b

/-- A turn of the update loop takes the first queued update off the queue. -/
theorem sendUpdate_entries {b : Buffer K V} {k : K} {v : V} {xs : List (Σ _ : K, V)}
    (h : b.pendingUpdates.entries = ⟨k, v⟩ :: xs) : (b.sendUpdate k).pendingUpdates.entries = xs := by
  simp [sendUpdate, AList.erase, h]

/-- A turn of the deletion loop takes the first queued deletion off the queue. -/
theorem sendDelete_toList {b : Buffer K V} {k : K} {xs : List K}
    (h : b.pendingDeletes.toList = k :: xs) : (b.sendDelete k).pendingDeletes.toList = xs := by
  simp [sendDelete, IterSet.discard, h]

/-! ## The loops in closed form -/

theorem foldl_sendUpdate_pendingDeletes (ks : List K) (b : Buffer K V) :
    (ks.foldl sendUpdate b).pendingDeletes = b.pendingDeletes := by
  induction ks generalizing b with
  | nil => rfl
  | cons k ks ih => exact ih _

theorem mem_foldl_sendUpdate_sent (ks : List K) (b : Buffer K V) (k : K) :
    k ∈ (ks.foldl sendUpdate b).sent ↔ k ∈ b.sent ∨ k ∈ ks := by
  induction ks generalizing b with
  | nil => simp
  | cons k' ks ih =>
    rw [List.foldl_cons, ih]
    simp only [sendUpdate, IterSet.mem_add, List.mem_cons]
    tauto

theorem mem_foldl_sendUpdate_pendingUpdates (ks : List K) (b : Buffer K V) (k : K) :
    k ∈ (ks.foldl sendUpdate b).pendingUpdates ↔ k ∈ b.pendingUpdates ∧ k ∉ ks := by
  induction ks generalizing b with
  | nil => simp
  | cons k' ks ih =>
    rw [List.foldl_cons, ih]
    simp only [sendUpdate, AList.mem_erase, List.mem_cons, not_or]
    tauto

theorem flushUpdates_eq (b : Buffer K V) :
    b.flushUpdates = (b.pendingUpdates.keys.foldl sendUpdate b,
      b.pendingUpdates.entries.map fun e => (e.1, e.2)) := by
  have h := @emitLoop_eq (Buffer K V) (Σ _ : K, V) (K × V)
    (fun c e => (c.sendUpdate e.1, (e.1, e.2))) (fun c e => c.sendUpdate e.1) (fun e => (e.1, e.2))
    (fun _ _ => rfl) b.pendingUpdates.entries b
  rw [flushUpdates, h]
  simp only [AList.keys, List.keys, List.foldl_map]

theorem flushDeletes_eq (b : Buffer K V) :
    b.flushDeletes = (b.pendingDeletes.toList.foldl sendDelete b, b.pendingDeletes.toList) := by
  have h := @emitLoop_eq (Buffer K V) K K (fun c k => (c.sendDelete k, k)) sendDelete id
    (fun _ _ => rfl) b.pendingDeletes.toList b
  rw [flushDeletes, h, List.map_id]

theorem foldl_sendDelete_pendingUpdates (ks : List K) (b : Buffer K V) :
    (ks.foldl sendDelete b).pendingUpdates = b.pendingUpdates := by
  induction ks generalizing b with
  | nil => rfl
  | cons k ks ih => exact ih _

theorem mem_foldl_sendDelete_sent (ks : List K) (b : Buffer K V) (k : K) :
    k ∈ (ks.foldl sendDelete b).sent ↔ k ∈ b.sent ∧ k ∉ ks := by
  induction ks generalizing b with
  | nil => simp
  | cons k' ks ih =>
    rw [List.foldl_cons, ih]
    simp only [sendDelete, IterSet.mem_discard, List.mem_cons, not_or]
    tauto

theorem mem_foldl_sendDelete_pendingDeletes (ks : List K) (b : Buffer K V) (k : K) :
    k ∈ (ks.foldl sendDelete b).pendingDeletes ↔ k ∈ b.pendingDeletes ∧ k ∉ ks := by
  induction ks generalizing b with
  | nil => simp
  | cons k' ks ih =>
    rw [List.foldl_cons, ih]
    simp only [sendDelete, IterSet.mem_discard, List.mem_cons, not_or]
    tauto

@[simp] theorem not_mem_flushUpdates_pendingUpdates (b : Buffer K V) (k : K) :
    k ∉ b.flushUpdates.1.pendingUpdates := by
  rw [flushUpdates_eq, mem_foldl_sendUpdate_pendingUpdates, ← AList.mem_keys]
  tauto

@[simp] theorem not_mem_flushDeletes_pendingDeletes (b : Buffer K V) (k : K) :
    k ∉ b.flushDeletes.1.pendingDeletes := by
  rw [flushDeletes_eq, mem_foldl_sendDelete_pendingDeletes, IterSet.mem_toList]
  tauto

@[simp] theorem flushDeletes_pendingUpdates (b : Buffer K V) :
    b.flushDeletes.1.pendingUpdates = b.pendingUpdates := by
  rw [flushDeletes_eq, foldl_sendDelete_pendingUpdates]

end Buffer

/-! ## The invariant -/

section Invariant

variable {K V : Type*} [DecidableEq K]

/-- `b` stands between a consumer holding `down` and a producer holding `up`. -/
structure Replicates (b : Buffer K V) (down up : K → Option V) : Prop where
  sent_iff : ∀ k, k ∈ b.sent ↔ (down k).isSome
  deletes_sent : ∀ k ∈ b.pendingDeletes, k ∈ b.sent
  deletes_not_updates : ∀ k ∈ b.pendingDeletes, k ∉ b.pendingUpdates
  up_of_update : ∀ k ∈ b.pendingUpdates, up k = b.pendingUpdates.lookup k
  up_of_delete : ∀ k ∈ b.pendingDeletes, up k = none
  up_of_idle : ∀ k, k ∉ b.pendingUpdates → k ∉ b.pendingDeletes → up k = down k

theorem replicates_empty : Replicates (Buffer.empty : Buffer K V) (fun _ => none) (fun _ => none) where
  sent_iff k := by simp [Buffer.empty]
  deletes_sent k h := by simp [Buffer.empty] at h
  deletes_not_updates k h := by simp [Buffer.empty] at h
  up_of_update k h := by simp [Buffer.empty] at h
  up_of_delete k h := by simp [Buffer.empty] at h
  up_of_idle _ _ _ := rfl

variable {b : Buffer K V} {down up : K → Option V}

namespace Replicates

theorem update (h : Replicates b down up) (k : K) (v : V) :
    Replicates (b.update k v) down (Function.update up k (some v)) where
  sent_iff := h.sent_iff
  deletes_sent k' hk' := h.deletes_sent k' (IterSet.mem_discard.mp hk').2
  deletes_not_updates k' hk' := by
    obtain ⟨hne, hk'⟩ := IterSet.mem_discard.mp hk'
    simpa [Buffer.update, AList.mem_insert, hne] using h.deletes_not_updates k' hk'
  up_of_update k' hk' := by
    by_cases hk : k' = k
    · subst hk
      simp [Buffer.update, AList.lookup_insert]
    · have hk'' : k' ∈ b.pendingUpdates := by
        simpa [Buffer.update, AList.mem_insert, hk] using hk'
      simp [Buffer.update, Function.update_of_ne hk, AList.lookup_insert_ne hk,
        h.up_of_update k' hk'']
  up_of_delete k' hk' := by
    obtain ⟨hne, hk'⟩ := IterSet.mem_discard.mp hk'
    simp [Function.update_of_ne hne, h.up_of_delete k' hk']
  up_of_idle k' hu hd := by
    have hne : k' ≠ k := by
      rintro rfl
      exact hu (by simp [Buffer.update, AList.mem_insert])
    have hu' : k' ∉ b.pendingUpdates := by
      simpa [Buffer.update, AList.mem_insert, hne] using hu
    have hd' : k' ∉ b.pendingDeletes := by
      simpa [Buffer.update, hne] using hd
    simp [Function.update_of_ne hne, h.up_of_idle k' hu' hd']

theorem remove (h : Replicates b down up) (k : K) :
    Replicates (b.remove k) down (Function.update up k none) where
  sent_iff := h.sent_iff
  deletes_sent k' hk' := by
    by_cases hs : k ∈ b.sent
    · simp only [Buffer.remove, if_pos hs, IterSet.mem_add] at hk'
      rcases hk' with rfl | hk'
      · exact hs
      · exact h.deletes_sent k' hk'
    · simp only [Buffer.remove, if_neg hs] at hk'
      exact h.deletes_sent k' hk'
  deletes_not_updates k' hk' := by
    simp only [Buffer.remove, AList.mem_erase, not_and]
    intro hne
    have hd : k' ∈ b.pendingDeletes := by
      by_cases hs : k ∈ b.sent <;> simpa [Buffer.remove, hs, hne] using hk'
    exact h.deletes_not_updates k' hd
  up_of_update k' hk' := by
    obtain ⟨hne, hk'⟩ := AList.mem_erase.mp hk'
    simp [Buffer.remove, Function.update_of_ne hne, AList.lookup_erase_ne hne,
      h.up_of_update k' hk']
  up_of_delete k' hk' := by
    by_cases hk : k' = k
    · subst hk
      simp
    · have hk'' : k' ∈ b.pendingDeletes := by
        by_cases hs : k ∈ b.sent <;> simpa [Buffer.remove, hs, hk] using hk'
      simp [Function.update_of_ne hk, h.up_of_delete k' hk'']
  up_of_idle k' hu hd := by
    by_cases hk : k' = k
    · subst hk
      -- a key the consumer does not hold: no deletion was queued, and none is needed
      have hs : k' ∉ b.sent := fun hs => hd (by simp [Buffer.remove, hs])
      have hnone : down k' = none := by
        simpa using (h.sent_iff k').not.mp hs
      simp [hnone]
    · have hu' : k' ∉ b.pendingUpdates := by
        simpa [Buffer.remove, AList.mem_erase, hk] using hu
      have hd' : k' ∉ b.pendingDeletes := by
        by_cases hs : k ∈ b.sent <;> simpa [Buffer.remove, hs, hk] using hd
      simp [Function.update_of_ne hk, h.up_of_idle k' hu' hd']

/-- A queued deletion names a key the consumer holds. -/
theorem isSome_of_mem_pendingDeletes (h : Replicates b down up) {k : K} (hk : k ∈ b.pendingDeletes) :
    (down k).isSome :=
  (h.sent_iff k).mp (h.deletes_sent k hk)

/-- With no update queued, a key the producer holds is one the consumer holds: only
deletions are pending, and those are of keys the producer no longer holds. -/
theorem isSome_of_up (h : Replicates b down up) (hu : ∀ k, k ∉ b.pendingUpdates) {k : K}
    (hk : (up k).isSome) : (down k).isSome := by
  by_cases hd : k ∈ b.pendingDeletes
  · rw [h.up_of_delete k hd] at hk
    cases hk
  · rwa [← h.up_of_idle k (hu k) hd]

/-- One turn of the update loop: the consumer takes the queued value of `k`. -/
theorem sendUpdate (h : Replicates b down up) {k : K} {v : V}
    (hk : b.pendingUpdates.lookup k = some v) :
    Replicates (b.sendUpdate k) (Function.update down k (some v)) up where
  sent_iff k' := by
    by_cases hk' : k' = k
    · subst hk'
      simp [Buffer.sendUpdate]
    · simp [Buffer.sendUpdate, hk', h.sent_iff k']
  deletes_sent k' hk' := IterSet.mem_add.mpr (Or.inr (h.deletes_sent k' hk'))
  deletes_not_updates k' hk' hu := h.deletes_not_updates k' hk' (AList.mem_erase.mp hu).2
  up_of_update k' hk' := by
    obtain ⟨hne, hk'⟩ := AList.mem_erase.mp hk'
    simp [Buffer.sendUpdate, AList.lookup_erase_ne hne, h.up_of_update k' hk']
  up_of_delete := h.up_of_delete
  up_of_idle k' hu hd := by
    by_cases hk' : k' = k
    · subst hk'
      -- the key just sent: the consumer now holds the producer's value
      have hmem : k' ∈ b.pendingUpdates := AList.lookup_isSome.mp (by simp [hk])
      simp [h.up_of_update k' hmem, hk]
    · have hu' : k' ∉ b.pendingUpdates := fun hm => hu (AList.mem_erase.mpr ⟨hk', hm⟩)
      simp [Function.update_of_ne hk', h.up_of_idle k' hu' hd]

/-- One turn of the deletion loop: the consumer drops a key with a queued deletion. -/
theorem sendDelete (h : Replicates b down up) {k : K} (hk : k ∈ b.pendingDeletes) :
    Replicates (b.sendDelete k) (Function.update down k none) up where
  sent_iff k' := by
    by_cases hk' : k' = k
    · subst hk'
      simp [Buffer.sendDelete]
    · simp [Buffer.sendDelete, hk', h.sent_iff k']
  deletes_sent k' hk' := by
    obtain ⟨hne, hk'⟩ := IterSet.mem_discard.mp hk'
    exact IterSet.mem_discard.mpr ⟨hne, h.deletes_sent k' hk'⟩
  deletes_not_updates k' hk' := h.deletes_not_updates k' (IterSet.mem_discard.mp hk').2
  up_of_update := h.up_of_update
  up_of_delete k' hk' := h.up_of_delete k' (IterSet.mem_discard.mp hk').2
  up_of_idle k' hu hd := by
    by_cases hk' : k' = k
    · subst hk'
      simp [h.up_of_delete k' hk]
    · have hd' : k' ∉ b.pendingDeletes := fun hm => hd (IterSet.mem_discard.mpr ⟨hk', hm⟩)
      simp [Function.update_of_ne hk', h.up_of_idle k' hu hd']

theorem flushUpdates (h : Replicates b down up) :
    Replicates b.flushUpdates.1 (applyUpdates down b.flushUpdates.2) up := by
  have hdown : ∀ k, applyUpdates down b.flushUpdates.2 k =
      (b.pendingUpdates.lookup k).or (down k) := fun k => by
    rw [Buffer.flushUpdates_eq]
    exact applyUpdates_entries down b.pendingUpdates.nodupKeys k
  have hsent : ∀ k, k ∈ b.flushUpdates.1.sent ↔ k ∈ b.sent ∨ k ∈ b.pendingUpdates := fun k => by
    rw [Buffer.flushUpdates_eq, Buffer.mem_foldl_sendUpdate_sent, AList.mem_keys]
  have hdel : b.flushUpdates.1.pendingDeletes = b.pendingDeletes := by
    rw [Buffer.flushUpdates_eq, Buffer.foldl_sendUpdate_pendingDeletes]
  refine ⟨fun k => ?_, fun k hk => ?_, fun k _ => Buffer.not_mem_flushUpdates_pendingUpdates b k,
    fun k hk => absurd hk (Buffer.not_mem_flushUpdates_pendingUpdates b k), fun k hk => ?_,
    fun k _ hd => ?_⟩
  · rw [hsent, hdown, h.sent_iff, ← AList.lookup_isSome]
    cases b.pendingUpdates.lookup k <;> simp [or_comm]
  · rw [hdel] at hk
    exact (hsent k).mpr (Or.inl (h.deletes_sent k hk))
  · rw [hdel] at hk
    exact h.up_of_delete k hk
  · rw [hdel] at hd
    rw [hdown]
    by_cases hu : k ∈ b.pendingUpdates
    · obtain ⟨v, hv⟩ := Option.isSome_iff_exists.mp (AList.lookup_isSome.mpr hu)
      rw [h.up_of_update k hu, hv, Option.some_or]
    · rw [h.up_of_idle k hu hd, AList.lookup_eq_none.mpr hu, Option.none_or]

theorem flushDeletes (h : Replicates b down up) :
    Replicates b.flushDeletes.1 (applyDeletes down b.flushDeletes.2) up := by
  have hdown : ∀ k, applyDeletes down b.flushDeletes.2 k =
      if k ∈ b.pendingDeletes then none else down k := fun k => by
    rw [Buffer.flushDeletes_eq, applyDeletes_apply]
    simp only [IterSet.mem_toList]
  have hsent : ∀ k, k ∈ b.flushDeletes.1.sent ↔ k ∈ b.sent ∧ k ∉ b.pendingDeletes := fun k => by
    rw [Buffer.flushDeletes_eq, Buffer.mem_foldl_sendDelete_sent, IterSet.mem_toList]
  refine ⟨fun k => ?_, fun k hk => absurd hk (Buffer.not_mem_flushDeletes_pendingDeletes b k),
    fun k hk => absurd hk (Buffer.not_mem_flushDeletes_pendingDeletes b k), fun k hk => ?_,
    fun k hk => absurd hk (Buffer.not_mem_flushDeletes_pendingDeletes b k), fun k hu _ => ?_⟩
  · rw [hsent, hdown, h.sent_iff]
    by_cases hk : k ∈ b.pendingDeletes <;> simp [hk]
  · rw [Buffer.flushDeletes_pendingUpdates] at hk ⊢
    exact h.up_of_update k hk
  · rw [Buffer.flushDeletes_pendingUpdates] at hu
    rw [hdown]
    by_cases hd : k ∈ b.pendingDeletes
    · rw [if_pos hd, h.up_of_delete k hd]
    · rw [if_neg hd, h.up_of_idle k hu hd]

/-- With nothing queued, the consumer holds the producer's store. -/
theorem eq_of_idle (h : Replicates b down up) (hu : ∀ k, k ∉ b.pendingUpdates)
    (hd : ∀ k, k ∉ b.pendingDeletes) : down = up :=
  funext fun k => (h.up_of_idle k (hu k) (hd k)).symm

end Replicates

end Invariant

end Replication
