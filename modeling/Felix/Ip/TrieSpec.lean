import Felix.Ip.TrieWalk

/-!
# The IPv4 trie is a finite map

A run of `Update`s and `Delete`s from the empty trie, each on a canonical CIDR, leaves a trie
whose entries are those of the finite map the same calls describe (`mapOf`): a CIDR holds the
value of its last `Update`, unless a `Delete` of it came after. `Refines` couples a trie to such
a map: the trie keeps its invariant and its entries are the map's. One call keeps it
(`Refines.apply`), so every run does (`refines_run`), and the walks of `TrieWalk` then answer
from the map.

## Main definitions

* `TrieOp`, `run`: the calls, and the trie they leave
* `mapOf`: the map they describe
* `Refines`: the trie keeps its invariant and holds exactly the map's entries

## Main results

* `trie_refines_map`: after a run, `Get`, `ToSlice` and `LookupPath` answer from the map
* `trie_lpm_longest`: `LPM` of an address gives the entry with the longest prefix among those
  containing it
* `trie_covers_intersects`: `Covers` finds an entry containing the CIDR and `Intersects` one
  inside it; a CIDR inside an entry with no entry inside it does not intersect
  (`trie_intersects_misses_container`)
-/

namespace Felix.Ip

universe u

/-- A call that changes the trie. -/
inductive TrieOp (α : Type u) where
  | update (cidr : V4CIDR) (value : α)
  | delete (cidr : V4CIDR)
  deriving DecidableEq

namespace TrieOp

variable {α : Type u}

/-- The CIDR the call names. -/
def cidr : TrieOp α → V4CIDR
  | .update c _ => c
  | .delete c => c

/-- The call on the trie. -/
def apply : TrieOp α → V4Trie α → V4Trie α
  | .update c v, t => t.update c v
  | .delete c, t => t.delete c

/-- The call on a finite map. -/
def applyMap : TrieOp α → (V4CIDR → Option α) → V4CIDR → Option α
  | .update c v, f => Function.update f c (some v)
  | .delete c, f => Function.update f c none

end TrieOp

variable {α : Type u}

/-- The trie the calls leave, from the empty trie. -/
def run (ops : List (TrieOp α)) : V4Trie α := ops.foldl (fun t o => o.apply t) V4Trie.empty

/-- The map the calls describe. -/
def mapOf (ops : List (TrieOp α)) : V4CIDR → Option α :=
  ops.foldl (fun f o => o.applyMap f) fun _ => none

/-- The trie keeps its invariant and holds exactly the entries of `f`. -/
def Refines (t : V4Trie α) (f : V4CIDR → Option α) : Prop :=
  t.root.Wf ∧ ∀ e : V4TrieEntry α, e ∈ t.root.entries ↔ f e.cidr = some e.data

/-! ## Runs -/

section Runs

variable {t : V4Trie α} {f : V4CIDR → Option α}

theorem refines_empty : Refines (V4Trie.empty : V4Trie α) fun _ => none :=
  ⟨trivial, by simp [V4Trie.empty]⟩

/-- One call on a canonical CIDR keeps the refinement. -/
theorem Refines.apply (h : Refines t f) (o : TrieOp α) (ho : o.cidr.Canonical) :
    Refines (o.apply t) (o.applyMap f) := by
  cases o with
  | update c v =>
    have ho : c.Canonical := ho
    refine ⟨V4Trie.Wf.update h.1 ho, fun e => ?_⟩
    rw [TrieOp.apply, TrieOp.applyMap, V4Trie.mem_entries_update h.1 ho, h.2,
      V4Node.entry_eq_iff]
    by_cases hc : e.cidr = c
    · -- the entry at the call's CIDR is the new one
      subst hc
      simp [eq_comm]
    · simp [hc]
  | delete c =>
    refine ⟨V4Trie.Wf.delete h.1, fun e => ?_⟩
    rw [TrieOp.apply, TrieOp.applyMap, V4Trie.mem_entries_delete h.1, h.2]
    by_cases hc : e.cidr = c
    · subst hc
      simp
    · simp [hc]

/-- The calls keep the refinement, from any trie and map it holds for. -/
theorem Refines.foldl (h : Refines t f) (ops : List (TrieOp α))
    (hops : ∀ o ∈ ops, o.cidr.Canonical) :
    Refines (ops.foldl (fun t o => o.apply t) t) (ops.foldl (fun f o => o.applyMap f) f) := by
  induction ops generalizing t f with
  | nil => exact h
  | cons o ops ih =>
    exact ih (h.apply o (hops o List.mem_cons_self)) fun o' ho' =>
      hops o' (List.mem_cons_of_mem _ ho')

theorem refines_run (ops : List (TrieOp α)) (hops : ∀ o ∈ ops, o.cidr.Canonical) :
    Refines (run ops) (mapOf ops) :=
  refines_empty.foldl ops hops

end Runs

/-! ## Queries -/

section Queries

variable {t : V4Trie α} {f : V4CIDR → Option α}

/-- `Get` reads the map. -/
theorem Refines.get_eq (h : Refines t f) (c : V4CIDR) : t.get c = f c := by
  apply Option.ext
  intro v
  rw [V4Trie.get, h.1.get_eq_some_iff, h.2]

/-- The entries containing a CIDR are the map's. -/
theorem Refines.mem_containing (h : Refines t f) (q : V4CIDR) {e : V4TrieEntry α} :
    e ∈ t.root.containing q ↔ f e.cidr = some e.data ∧ e.cidr.Contains q := by
  rw [V4Node.mem_containing, h.2]

theorem Refines.containing_eq_nil (h : Refines t f) (q : V4CIDR) :
    t.root.containing q = [] ↔ ∀ c v, f c = some v → ¬c.Contains q := by
  rw [List.eq_nil_iff_forall_not_mem]
  constructor
  · intro hn c v hf hcq
    exact hn ⟨c, v⟩ ((h.mem_containing q).mpr ⟨hf, hcq⟩)
  · intro hn e he
    have he' := (h.mem_containing q).mp he
    exact hn e.cidr e.data he'.1 he'.2

end Queries

/-- After a run of calls on canonical CIDRs the trie keeps its invariant, `Get` answers from the
map the calls describe, `ToSlice` lists each of the map's entries once, and `LookupPath` gives
the entries containing a CIDR that is in the map, shortest prefix first, and nothing for one
that is not. -/
theorem trie_refines_map (ops : List (TrieOp α)) (hops : ∀ o ∈ ops, o.cidr.Canonical) :
    (run ops).root.Wf ∧
    (∀ c, (run ops).get c = mapOf ops c) ∧
    (∀ e, e ∈ (run ops).toSlice ↔ mapOf ops e.cidr = some e.data) ∧
    ((run ops).toSlice.map (·.cidr)).Nodup ∧
    (∀ c, mapOf ops c ≠ none →
      (∀ e, e ∈ (run ops).lookupPath c ↔ mapOf ops e.cidr = some e.data ∧ e.cidr.Contains c) ∧
      ((run ops).lookupPath c).Pairwise
        (fun e e' => e.cidr.prefixLen.toNat < e'.cidr.prefixLen.toNat)) ∧
    (∀ c, mapOf ops c = none → (run ops).lookupPath c = []) := by
  have h := refines_run ops hops
  have hget := h.get_eq
  -- `ToSlice` lists the entries
  have hslice : (run ops).toSlice = (run ops).root.entries := rfl
  refine ⟨h.1, hget, fun e => hslice ▸ h.2 e, hslice ▸ h.1.nodup_entries, ?_, ?_⟩
  · intro c hc
    have hpath : (run ops).lookupPath c = (run ops).root.containing c := by
      rw [V4Trie.lookupPath, h.1.lookupPath_eq (by rwa [← V4Trie.get, hget]), List.nil_append]
    rw [hpath]
    exact ⟨fun e => h.mem_containing c, h.1.pairwise_containing c⟩
  · intro c hc
    exact V4Node.lookupPath_eq_nil (by rw [← V4Trie.get, hget, hc]) []

/-- Two nested CIDRs, then the outer one deleted. -/
def nestedOps : List (TrieOp ℕ) :=
  [.update ⟨0x0a000000, 8⟩ 1, .update ⟨0x0a010000, 16⟩ 2, .delete ⟨0x0a000000, 8⟩]

theorem trie_refines_map_nestedOps : (∀ o ∈ nestedOps, o.cidr.Canonical) ∧
    ((run nestedOps).root.Wf ∧
    (∀ c, (run nestedOps).get c = mapOf nestedOps c) ∧
    (∀ e, e ∈ (run nestedOps).toSlice ↔ mapOf nestedOps e.cidr = some e.data) ∧
    ((run nestedOps).toSlice.map (·.cidr)).Nodup ∧
    (∀ c, mapOf nestedOps c ≠ none →
      (∀ e, e ∈ (run nestedOps).lookupPath c ↔
        mapOf nestedOps e.cidr = some e.data ∧ e.cidr.Contains c) ∧
      ((run nestedOps).lookupPath c).Pairwise
        (fun e e' => e.cidr.prefixLen.toNat < e'.cidr.prefixLen.toNat)) ∧
    (∀ c, mapOf nestedOps c = none → (run nestedOps).lookupPath c = [])) :=
  have hops : ∀ o ∈ nestedOps, o.cidr.Canonical := by decide
  ⟨hops, trie_refines_map nestedOps hops⟩

/-- `LPM` of an address gives the entry with the longest prefix among those containing the
address, or `V4CIDR{}` and nil when none does. -/
theorem trie_lpm_longest (ops : List (TrieOp α)) (hops : ∀ o ∈ ops, o.cidr.Canonical)
    (a : UInt32) :
    (∃ c v, (run ops).lpm ⟨a, 32⟩ = (c, some v) ∧ mapOf ops c = some v ∧ c.Contains ⟨a, 32⟩ ∧
      ∀ c' v', mapOf ops c' = some v' → c'.Contains ⟨a, 32⟩ →
        c'.prefixLen.toNat ≤ c.prefixLen.toNat) ∨
    ((run ops).lpm ⟨a, 32⟩ = (⟨0, 0⟩, none) ∧
      ∀ c' v', mapOf ops c' = some v' → ¬c'.Contains ⟨a, 32⟩) := by
  have h := refines_run ops hops
  rw [V4Trie.lpm_eq h.1]
  cases hl : ((run ops).root.containing ⟨a, 32⟩).getLast? with
  | some e =>
    -- the last entry containing the address; the entries before it have shorter prefixes
    have he := (h.mem_containing _).mp (List.mem_of_getLast? hl)
    refine .inl ⟨e.cidr, e.data, rfl, he.1, he.2, fun c' v' hf hc' => ?_⟩
    exact V4Node.prefixLen_le_of_getLast? (h.1.pairwise_containing _) hl
      (y := ⟨c', v'⟩) ((h.mem_containing _).mpr ⟨hf, hc'⟩)
  | none =>
    exact .inr ⟨rfl, (h.containing_eq_nil _).mp (List.getLast?_eq_none_iff.mp hl)⟩

theorem trie_lpm_longest_nestedOps : (∀ o ∈ nestedOps, o.cidr.Canonical) ∧
    ((∃ c v, (run nestedOps).lpm ⟨0x0a010203, 32⟩ = (c, some v) ∧ mapOf nestedOps c = some v ∧
      c.Contains ⟨0x0a010203, 32⟩ ∧
      ∀ c' v', mapOf nestedOps c' = some v' → c'.Contains ⟨0x0a010203, 32⟩ →
        c'.prefixLen.toNat ≤ c.prefixLen.toNat) ∨
    ((run nestedOps).lpm ⟨0x0a010203, 32⟩ = (⟨0, 0⟩, none) ∧
      ∀ c' v', mapOf nestedOps c' = some v' → ¬c'.Contains ⟨0x0a010203, 32⟩)) :=
  have hops : ∀ o ∈ nestedOps, o.cidr.Canonical := by decide
  ⟨hops, trie_lpm_longest nestedOps hops 0x0a010203⟩

/-- `Covers` finds an entry containing the CIDR, and `Intersects` an entry inside it. -/
theorem trie_covers_intersects (ops : List (TrieOp α)) (hops : ∀ o ∈ ops, o.cidr.Canonical)
    (q : V4CIDR) (hq : q.Canonical) :
    ((run ops).covers q = true ↔ ∃ c v, mapOf ops c = some v ∧ c.Contains q) ∧
    ((run ops).intersects q = true ↔ ∃ c v, mapOf ops c = some v ∧ q.Contains c) := by
  have h := refines_run ops hops
  constructor
  · rw [V4Trie.covers, h.1.covers_iff, Ne, h.containing_eq_nil]
    simp only [not_forall, not_not, exists_prop]
  · rw [V4Trie.intersects, h.1.intersects_iff hq]
    constructor
    · rintro ⟨e, he, hqe⟩
      exact ⟨e.cidr, e.data, (h.2 e).mp he, hqe⟩
    · rintro ⟨c, v, hf, hqc⟩
      exact ⟨⟨c, v⟩, (h.2 _).mpr hf, hqc⟩

theorem trie_covers_intersects_nestedOps : (∀ o ∈ nestedOps, o.cidr.Canonical) ∧
    (⟨0x0a000000, 8⟩ : V4CIDR).Canonical ∧
    (((run nestedOps).covers ⟨0x0a000000, 8⟩ = true ↔
      ∃ c v, mapOf nestedOps c = some v ∧ c.Contains ⟨0x0a000000, 8⟩) ∧
    ((run nestedOps).intersects ⟨0x0a000000, 8⟩ = true ↔
      ∃ c v, mapOf nestedOps c = some v ∧ V4CIDR.Contains ⟨0x0a000000, 8⟩ c)) :=
  have hops : ∀ o ∈ nestedOps, o.cidr.Canonical := by decide
  have hq : (⟨0x0a000000, 8⟩ : V4CIDR).Canonical := by decide
  ⟨hops, hq, trie_covers_intersects nestedOps hops _ hq⟩

/-- `Intersects` of a CIDR inside the only entry: the walk passes the entry's node, which does
not lie inside `10.1.0.0/16`, and runs off the trie, although the two overlap. -/
theorem trie_intersects_misses_container :
    mapOf [TrieOp.update ⟨0x0a000000, 8⟩ (1 : ℕ)] ⟨0x0a000000, 8⟩ = some 1 ∧
    V4CIDR.Contains ⟨0x0a000000, 8⟩ ⟨0x0a010000, 16⟩ ∧
    (run [TrieOp.update ⟨0x0a000000, 8⟩ (1 : ℕ)]).intersects ⟨0x0a010000, 16⟩ = false := by
  decide

end Felix.Ip
