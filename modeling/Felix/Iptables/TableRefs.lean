import Felix.Collections.AListFold
import Felix.Collections.RefCounter
import Felix.Iptables.Table
import Mathlib

/-!
# Reference counts and dirty chains over runs of the table's operations

`Apply` programs only the chains in `dirtyChains`, so every chain whose desired state changes
between two calls must be marked dirty on the way, or the kernel keeps the old chain. The
desired state of a chain is its rules while something refers to it (`desiredStateOfChain`), so
it changes when the chain's rules change, which `UpdateChain` and `RemoveChainByName` mark
themselves, or when its refcount leaves or reaches zero, which `increfChain` and `decrefChain`
mark. The second needs the refcounts to count the references the table really holds: one for
each kernel chain of the table, and one for each rule that jumps to the chain, in a chain of the
table or among the inserts and appends (`CountsReferences`). Then no count goes below zero, and
a count crosses zero only with a mark.

`increfChain` and `decrefChain` form a `RefCounter`, whose lemmas follow the increments of the
new rules' references and the decrements of the old ones. Each operation keeps
`CountsReferences` and marks every chain whose desired state it changes (`MarksChanges`, which
composes along a run).

## Main definitions

* `referenceCount`, `mapReferences`, `Table.references`: the references the table holds
* `tableRefCounter`: `increfChain` and `decrefChain` as a `RefCounter`
* `CountsReferences`, `MarksChanges`

## Main results

* `CountsReferences.updateChain`, `CountsReferences.removeChainByName`,
  `CountsReferences.updateHookedRules`: each operation keeps the counts right
* `marksChanges_updateChain`, `marksChanges_removeChainByName`,
  `marksChanges_updateHookedRules`: each operation marks the chains whose desired state it changes
-/

namespace Felix.Iptables

section References

variable {ρ : Type} (referredChain : ρ → Option String)

/-- The references of a list of rules to a chain: the rules whose action jumps or goes to it. -/
def referenceCount (rules : List ρ) (chainName : String) : ℕ :=
  (rules.filterMap referredChain).count chainName

/-- The references held in a map of rules, summed over its chains. -/
def mapReferences (m : AList fun _ : String => List ρ) (chainName : String) : ℕ :=
  (m.entries.map fun e => referenceCount referredChain e.2 chainName).sum

/-- The references the table holds to a chain: one each time the kernel lists the chain as
its own, and one for each rule that refers to it, in the table's chains and among the inserts
and appends. -/
def Table.references (t : Table ρ) (chainName : String) : ℕ :=
  (tableToKernelChains t.name).count chainName +
    mapReferences referredChain t.chainNameToChain chainName +
    mapReferences referredChain (t.hookedRules .inserted) chainName +
    mapReferences referredChain (t.hookedRules .appended) chainName
attribute [grind] Table.references

@[simp] theorem referenceCount_nil (chainName : String) :
    referenceCount referredChain [] chainName = 0 := rfl

theorem mapReferences_insert (m : AList fun _ : String => List ρ) (k : String) (rules : List ρ)
    (c : String) :
    mapReferences referredChain (m.insert k rules) c +
        referenceCount referredChain ((m.lookup k).getD []) c =
      referenceCount referredChain rules c + mapReferences referredChain m c := by
  have h := AList.sum_map_entries_insert (fun rules => referenceCount referredChain rules c) m k
    rules
  cases hk : m.lookup k <;> simpa [mapReferences, hk] using h

theorem mapReferences_erase (m : AList fun _ : String => List ρ) (k : String) (c : String) :
    mapReferences referredChain (m.erase k) c +
        referenceCount referredChain ((m.lookup k).getD []) c =
      mapReferences referredChain m c := by
  have h := AList.sum_map_entries_erase (fun rules => referenceCount referredChain rules c) m k
  cases hk : m.lookup k <;> simpa [mapReferences, hk] using h

@[simp] theorem mapReferences_empty (c : String) :
    mapReferences referredChain (∅ : AList fun _ : String => List ρ) c = 0 := rfl

/-- The refcount of every chain is the number of references the table holds to it. -/
def CountsReferences (t : Table ρ) : Prop :=
  ∀ c, t.refCount c = t.references referredChain c

theorem CountsReferences.nonneg {referredChain : ρ → Option String} {t : Table ρ}
    (h : CountsReferences referredChain t) (c : String) : 0 ≤ t.refCount c := by
  rw [h c]
  exact Int.natCast_nonneg _

end References

/-! ## The counter -/

section Counter

variable {ρ : Type}

namespace Table

theorem refCount_increfChain (t : Table ρ) (a b : String) :
    (t.increfChain a).refCount b = t.refCount b + if b = a then 1 else 0 := by
  by_cases hb : b = a
  · subst hb
    simp [increfChain, refCount, AList.lookup_insert]
  · simp [increfChain, refCount, AList.lookup_insert_ne hb, hb]

theorem refCount_decrefChain (t : Table ρ) (a b : String) :
    (t.decrefChain a).refCount b = t.refCount b - if b = a then 1 else 0 := by
  dsimp only [decrefChain]
  by_cases h0 : t.refCount a - 1 = 0
  · -- the chain leaves the map, which reads as zero
    rw [if_pos h0]
    by_cases hb : b = a
    · subst hb
      rw [if_pos rfl]
      simp only [refCount, AList.lookup_erase, Option.getD_none]
      exact h0.symm
    · simp [refCount, AList.lookup_erase_ne hb, hb]
  · rw [if_neg h0]
    by_cases hb : b = a
    · subst hb
      simp [refCount, AList.lookup_insert]
    · simp [refCount, AList.lookup_insert_ne hb, hb]

theorem mem_dirtyChains_increfChain (t : Table ρ) (a b : String) :
    b ∈ (t.increfChain a).dirtyChains ↔ b ∈ t.dirtyChains ∨ b = a ∧ t.refCount a + 1 = 1 := by
  dsimp only [increfChain]
  by_cases h1 : t.refCount a + 1 = 1
  · rw [if_pos h1]
    simp [IterSet.mem_add, h1, or_comm]
  · rw [if_neg h1]
    simp [h1]

theorem mem_dirtyChains_decrefChain (t : Table ρ) (a b : String) :
    b ∈ (t.decrefChain a).dirtyChains ↔ b ∈ t.dirtyChains ∨ b = a ∧ t.refCount a - 1 = 0 := by
  dsimp only [decrefChain]
  by_cases h0 : t.refCount a - 1 = 0
  · rw [if_pos h0]
    simp [IterSet.mem_add, h0, or_comm]
  · rw [if_neg h0]
    simp [h0]

end Table

/-- `increfChain` and `decrefChain`: a counter that marks a chain dirty when its count becomes
one or zero. -/
def tableRefCounter : RefCounter (Table ρ) String where
  count := Table.refCount
  marked t c := c ∈ t.dirtyChains
  incr := Table.increfChain
  decr := Table.decrefChain
  count_incr := Table.refCount_increfChain
  count_decr := Table.refCount_decrefChain
  marked_incr := Table.mem_dirtyChains_increfChain
  marked_decr := Table.mem_dirtyChains_decrefChain

variable (referredChain : ρ → Option String)

theorem increfReferredChains_eq : ∀ (rules : List ρ) (t : Table ρ),
    t.increfReferredChains referredChain rules =
      tableRefCounter.incrAll (rules.filterMap referredChain) t
  | [], _ => rfl
  | r :: rules, t => by
    rw [Table.increfReferredChains, List.foldl_cons]
    cases h : referredChain r with
    | none =>
      rw [List.filterMap_cons_none h]
      exact increfReferredChains_eq rules t
    | some ref =>
      rw [List.filterMap_cons_some h, RefCounter.incrAll_cons]
      exact increfReferredChains_eq rules (t.increfChain ref)

theorem decrefReferredChains_eq : ∀ (rules : List ρ) (t : Table ρ),
    t.decrefReferredChains referredChain rules =
      tableRefCounter.decrAll (rules.filterMap referredChain) t
  | [], _ => rfl
  | r :: rules, t => by
    rw [Table.decrefReferredChains, List.foldl_cons]
    cases h : referredChain r with
    | none =>
      rw [List.filterMap_cons_none h]
      exact decrefReferredChains_eq rules t
    | some ref =>
      rw [List.filterMap_cons_some h, RefCounter.decrAll_cons]
      exact decrefReferredChains_eq rules (t.decrefChain ref)

/-- The increments for `rules` and the decrements for `oldRules`, in the order every operation
does them. -/
def swapReferences (rules oldRules : List ρ) (t : Table ρ) : Table ρ :=
  (t.increfReferredChains referredChain rules).decrefReferredChains referredChain oldRules
attribute [grind] swapReferences

theorem refCount_swapReferences (rules oldRules : List ρ) (t : Table ρ) (c : String) :
    (swapReferences referredChain rules oldRules t).refCount c =
      t.refCount c + referenceCount referredChain rules c -
        referenceCount referredChain oldRules c := by
  rw [swapReferences, decrefReferredChains_eq, increfReferredChains_eq]
  exact (tableRefCounter.count_decrAll c _ _).trans
    (by rw [tableRefCounter.count_incrAll]; rfl)

theorem mem_dirtyChains_swapReferences {rules oldRules : List ρ} {t : Table ρ} {c : String}
    (h : c ∈ t.dirtyChains) : c ∈ (swapReferences referredChain rules oldRules t).dirtyChains := by
  rw [swapReferences, decrefReferredChains_eq, increfReferredChains_eq]
  exact tableRefCounter.marked_decrAll_of_marked _ (tableRefCounter.marked_incrAll_of_marked _ h)

/-- A chain whose count is zero before the swap and not after, or the other way, is marked. -/
theorem zero_iff_or_mem_dirtyChains (rules oldRules : List ρ) (t : Table ρ) (c : String)
    (hs : 0 ≤ t.refCount c) (hs' : 0 ≤ (swapReferences referredChain rules oldRules t).refCount c) :
    ((swapReferences referredChain rules oldRules t).refCount c = 0 ↔ t.refCount c = 0) ∨
      c ∈ (swapReferences referredChain rules oldRules t).dirtyChains := by
  rw [swapReferences, decrefReferredChains_eq, increfReferredChains_eq] at hs' ⊢
  exact tableRefCounter.zero_iff_or_marked _ _ t c hs hs'

end Counter

/-! ## What the counter leaves alone -/

section Frame

variable {ρ : Type}

/-- The second table differs from the first at most in its refcounts and dirty chains. -/
def RefsOnly (t t' : Table ρ) : Prop :=
  t' = { t with chainRefCounts := t'.chainRefCounts, dirtyChains := t'.dirtyChains }

namespace RefsOnly

variable {t t' : Table ρ}

theorem refl (t : Table ρ) : RefsOnly t t := rfl

theorem trans {t'' : Table ρ} (h : RefsOnly t t') (h' : RefsOnly t' t'') : RefsOnly t t'' := by
  unfold RefsOnly at *
  rw [h', h]

theorem name (h : RefsOnly t t') : t'.name = t.name := by
  unfold RefsOnly at h
  rw [h]

theorem chainNameToChain (h : RefsOnly t t') : t'.chainNameToChain = t.chainNameToChain := by
  unfold RefsOnly at h
  rw [h]

theorem hookedRules (h : RefsOnly t t') (hook : Hook) : t'.hookedRules hook = t.hookedRules hook := by
  unfold RefsOnly at h
  rw [h]
  cases hook <;> rfl

end RefsOnly

variable (referredChain : ρ → Option String)

theorem refsOnly_increfReferredChains : ∀ (rules : List ρ) (t : Table ρ),
    RefsOnly t (t.increfReferredChains referredChain rules)
  | [], t => RefsOnly.refl t
  | r :: rules, t => by
    rw [Table.increfReferredChains, List.foldl_cons]
    cases referredChain r with
    | none => exact refsOnly_increfReferredChains rules t
    | some ref =>
      have h : RefsOnly t (t.increfChain ref) := rfl
      exact h.trans (refsOnly_increfReferredChains rules _)

theorem refsOnly_decrefChain (t : Table ρ) (c : String) : RefsOnly t (t.decrefChain c) := by
  dsimp only [Table.decrefChain]
  split_ifs <;> rfl

theorem refsOnly_decrefReferredChains : ∀ (rules : List ρ) (t : Table ρ),
    RefsOnly t (t.decrefReferredChains referredChain rules)
  | [], t => RefsOnly.refl t
  | r :: rules, t => by
    rw [Table.decrefReferredChains, List.foldl_cons]
    cases referredChain r with
    | none => exact refsOnly_decrefReferredChains rules t
    | some ref =>
      exact (refsOnly_decrefChain t ref).trans (refsOnly_decrefReferredChains rules _)

theorem refsOnly_swapReferences (rules oldRules : List ρ) (t : Table ρ) :
    RefsOnly t (swapReferences referredChain rules oldRules t) :=
  (refsOnly_increfReferredChains referredChain rules t).trans
    (refsOnly_decrefReferredChains referredChain oldRules _)

theorem invalidateDataplaneCache_eq (t : Table ρ) :
    t.invalidateDataplaneCache = { t with inSyncWithDataPlane := false } := by
  by_cases h : t.inSyncWithDataPlane
  · simp [Table.invalidateDataplaneCache, h]
  · cases t
    simp_all [Table.invalidateDataplaneCache]

end Frame

/-! ## One operation -/

section Operations

variable {ρ : Type}

/-- From one table to the next, the dirty chains stay dirty, and every chain whose desired state
changed is dirty. -/
structure MarksChanges (t t' : Table ρ) : Prop where
  dirty_mono : ∀ c ∈ t.dirtyChains, c ∈ t'.dirtyChains
  dirty_of_ne : ∀ c, t'.desiredStateOfChain c ≠ t.desiredStateOfChain c → c ∈ t'.dirtyChains

theorem MarksChanges.refl (t : Table ρ) : MarksChanges t t :=
  ⟨fun _ hc => hc, fun _ hne => absurd rfl hne⟩

theorem MarksChanges.trans {t t' t'' : Table ρ} (h : MarksChanges t t') (h' : MarksChanges t' t'') :
    MarksChanges t t'' := by
  refine ⟨fun c hc => h'.dirty_mono c (h.dirty_mono c hc), fun c hne => ?_⟩
  by_cases h₁ : t'.desiredStateOfChain c = t.desiredStateOfChain c
  · exact h'.dirty_of_ne c (h₁ ▸ hne)
  · exact h'.dirty_mono c (h.dirty_of_ne c h₁)

/-- The desired state of a chain depends only on its rules and on whether its count is zero. -/
theorem desiredStateOfChain_eq_of {t t' : Table ρ} {c : String}
    (hl : t'.chainNameToChain.lookup c = t.chainNameToChain.lookup c)
    (hz : t'.refCount c = 0 ↔ t.refCount c = 0) :
    t'.desiredStateOfChain c = t.desiredStateOfChain c := by
  unfold Table.desiredStateOfChain
  by_cases h : t.refCount c = 0
  · rw [if_pos h, if_pos (hz.mpr h)]
  · rw [if_neg h, if_neg (mt hz.mp h), hl]

theorem desiredStateOfChain_of_lookup_none {t : Table ρ} {c : String}
    (hl : t.chainNameToChain.lookup c = none) : t.desiredStateOfChain c = none := by
  unfold Table.desiredStateOfChain
  split_ifs
  · rfl
  · exact hl

/-- The references depend only on the table's name, chains and hooked rules. -/
theorem references_eq_of {t t' : Table ρ} (referredChain : ρ → Option String)
    (hname : t'.name = t.name) (hchains : t'.chainNameToChain = t.chainNameToChain)
    (hhook : ∀ hook, t'.hookedRules hook = t.hookedRules hook) (c : String) :
    t'.references referredChain c = t.references referredChain c := by
  simp only [Table.references, hname, hchains, hhook]

/-- The references of a table whose name and hooked rules are another's: they differ by the
references of their chains. -/
theorem references_add_of (t t' : Table ρ) (referredChain : ρ → Option String)
    (hname : t'.name = t.name) (hhook : ∀ hook, t'.hookedRules hook = t.hookedRules hook)
    (c : String) :
    t'.references referredChain c + mapReferences referredChain t.chainNameToChain c =
      t.references referredChain c + mapReferences referredChain t'.chainNameToChain c := by
  simp only [Table.references, hname, hhook]
  omega

variable (referredChain : ρ → Option String)

/-! ### `UpdateChain` -/

/-- `UpdateChain`, with the references of the old rules, none for a new chain, swapped for those
of the new rules. -/
theorem updateChain_eq_swap (chainName : String) (rules : List ρ) (t : Table ρ) :
    t.updateChain referredChain chainName rules =
      (let s := swapReferences referredChain rules ((t.chainNameToChain.lookup chainName).getD []) t
       let t' := { s with chainNameToChain := s.chainNameToChain.insert chainName rules }
       if t'.refCount chainName > 0 then { t' with dirtyChains := t'.dirtyChains.add chainName }
       else t').invalidateDataplaneCache := by
  unfold Table.updateChain
  cases t.chainNameToChain.lookup chainName <;> rfl

/-- What `UpdateChain` does: the swap of references, the write of the chain, and a mark of the
chain when something refers to it. -/
theorem updateChain_inv (chainName : String) (rules : List ρ) (t : Table ρ) :
    ∃ d : IterSet String,
      t.updateChain referredChain chainName rules =
        { swapReferences referredChain rules ((t.chainNameToChain.lookup chainName).getD []) t with
          chainNameToChain := t.chainNameToChain.insert chainName rules
          dirtyChains := d
          inSyncWithDataPlane := false } ∧
      (∀ c ∈ (swapReferences referredChain rules
        ((t.chainNameToChain.lookup chainName).getD []) t).dirtyChains, c ∈ d) ∧
      (0 < (swapReferences referredChain rules
        ((t.chainNameToChain.lookup chainName).getD []) t).refCount chainName → chainName ∈ d) := by
  have hframe := (refsOnly_swapReferences referredChain rules
    ((t.chainNameToChain.lookup chainName).getD []) t).chainNameToChain
  rw [updateChain_eq_swap]
  generalize swapReferences referredChain rules ((t.chainNameToChain.lookup chainName).getD []) t
    = s at hframe ⊢
  dsimp only
  split_ifs with hpos
  · refine ⟨s.dirtyChains.add chainName, ?_, fun c hc => IterSet.mem_add.mpr (.inr hc),
      fun _ => IterSet.mem_add.mpr (.inl rfl)⟩
    rw [invalidateDataplaneCache_eq, hframe]
  · exact ⟨s.dirtyChains, by rw [invalidateDataplaneCache_eq, hframe], fun c hc => hc,
      fun h => absurd h hpos⟩

theorem CountsReferences.updateChain {t : Table ρ} (h : CountsReferences referredChain t)
    (chainName : String) (rules : List ρ) :
    CountsReferences referredChain (t.updateChain referredChain chainName rules) := by
  obtain ⟨d, hu, -, -⟩ := updateChain_inv referredChain chainName rules t
  intro c
  have hins := mapReferences_insert referredChain t.chainNameToChain chainName rules c
  set old := (t.chainNameToChain.lookup chainName).getD []
  set s := swapReferences referredChain rules old t
  have hs := refsOnly_swapReferences referredChain rules old t
  -- the references after: those of the chain's new rules in place of its old ones
  have href := references_add_of t (t.updateChain referredChain chainName rules)
    referredChain (by rw [hu]; exact hs.name)
    (fun hook => by rw [hu, ← hs.hookedRules hook]; cases hook <;> rfl) c
  have hcn : (t.updateChain referredChain chainName rules).chainNameToChain =
      t.chainNameToChain.insert chainName rules := by rw [hu]
  have hcount : (t.updateChain referredChain chainName rules).refCount c = s.refCount c := by
    rw [hu]
    rfl
  rw [hcn] at href
  rw [hcount, refCount_swapReferences, h c]
  omega

theorem marksChanges_updateChain {t : Table ρ} (h : CountsReferences referredChain t)
    (chainName : String) (rules : List ρ) :
    MarksChanges t (t.updateChain referredChain chainName rules) := by
  have h' := h.updateChain referredChain chainName rules
  obtain ⟨d, hu, hmono, hmark⟩ := updateChain_inv referredChain chainName rules t
  set old := (t.chainNameToChain.lookup chainName).getD []
  set s := swapReferences referredChain rules old t
  set u := t.updateChain referredChain chainName rules
  have hcount : ∀ c, u.refCount c = s.refCount c := fun c => by rw [hu]; rfl
  have hcn : u.chainNameToChain = t.chainNameToChain.insert chainName rules := by rw [hu]
  have hdirty : u.dirtyChains = d := by rw [hu]
  refine ⟨fun c hc => hdirty ▸ hmono c (mem_dirtyChains_swapReferences referredChain hc),
    fun c hne => ?_⟩
  rw [hdirty]
  have hnn' : 0 ≤ s.refCount c := by
    rw [← hcount]
    exact h'.nonneg c
  have hswap := zero_iff_or_mem_dirtyChains referredChain rules old t c (h.nonneg c) hnn'
  by_cases hc : c = chainName
  · subst hc
    by_cases hz : s.refCount c = 0
    · -- no longer referred to: a change only if it was, and then the swap took it to zero
      rcases hswap with hiff | hmem
      · refine absurd ?_ hne
        simp only [Table.desiredStateOfChain]
        rw [hcount, if_pos hz, if_pos (hiff.mp hz)]
      · exact hmono c hmem
    · exact hmark (lt_of_le_of_ne hnn' (Ne.symm hz))
  · rcases hswap with hiff | hmem
    · refine absurd (desiredStateOfChain_eq_of ?_ (hcount c ▸ hiff)) hne
      rw [hcn]
      exact AList.lookup_insert_ne hc
    · exact hmono c hmem

/-! ### `RemoveChainByName` -/

/-- What `RemoveChainByName` does: nothing but the invalidation for an unknown chain; for a known
one, the delete of the chain, a mark of it when something refers to it, and the decrements of
its rules' references. -/
theorem removeChainByName_inv (name : String) (t : Table ρ) :
    (t.chainNameToChain.lookup name = none ∧
      t.removeChainByName referredChain name = { t with inSyncWithDataPlane := false }) ∨
    ∃ old d, t.chainNameToChain.lookup name = some old ∧ (∀ c ∈ t.dirtyChains, c ∈ d) ∧
      (0 < t.refCount name → name ∈ d) ∧
      t.removeChainByName referredChain name =
        { swapReferences referredChain [] old
            { t with chainNameToChain := t.chainNameToChain.erase name, dirtyChains := d } with
          inSyncWithDataPlane := false } := by
  unfold Table.removeChainByName
  cases hl : t.chainNameToChain.lookup name with
  | none => exact .inl ⟨rfl, invalidateDataplaneCache_eq t⟩
  | some old =>
    right
    dsimp only
    split_ifs with hpos
    · refine ⟨old, t.dirtyChains.add name, rfl, fun c hc => IterSet.mem_add.mpr (.inr hc),
        fun _ => IterSet.mem_add.mpr (.inl rfl), ?_⟩
      rw [invalidateDataplaneCache_eq]
      rfl
    · refine ⟨old, t.dirtyChains, rfl, fun c hc => hc, fun h => absurd h hpos, ?_⟩
      rw [invalidateDataplaneCache_eq]
      rfl

theorem CountsReferences.removeChainByName {t : Table ρ} (h : CountsReferences referredChain t)
    (name : String) : CountsReferences referredChain (t.removeChainByName referredChain name) := by
  rcases removeChainByName_inv referredChain name t with ⟨-, hu⟩ | ⟨old, d, hl, -, -, hu⟩
  · rw [hu]
    exact h
  · intro c
    have hers := mapReferences_erase referredChain t.chainNameToChain name c
    rw [hl, Option.getD_some] at hers
    set t₁ : Table ρ :=
      { t with chainNameToChain := t.chainNameToChain.erase name, dirtyChains := d }
    set s := swapReferences referredChain [] old t₁
    have hs := refsOnly_swapReferences referredChain [] old t₁
    set u := t.removeChainByName referredChain name
    -- the references after: those of the chain's rules taken off
    have hhook : ∀ hook, u.hookedRules hook = t.hookedRules hook := by
      intro hook
      rw [hu]
      calc _ = s.hookedRules hook := by cases hook <;> rfl
        _ = t₁.hookedRules hook := hs.hookedRules hook
        _ = t.hookedRules hook := by cases hook <;> rfl
    have href := references_add_of t u referredChain
      (by rw [hu]; exact hs.name) hhook c
    have hcn : u.chainNameToChain = t.chainNameToChain.erase name := by
      rw [hu]
      exact hs.chainNameToChain
    have hcount : u.refCount c = s.refCount c := by
      rw [hu]
      rfl
    rw [hcn] at href
    rw [hcount, refCount_swapReferences, show t₁.refCount c = t.refCount c from rfl, h c,
      referenceCount_nil]
    push_cast
    omega

theorem marksChanges_removeChainByName {t : Table ρ} (h : CountsReferences referredChain t)
    (name : String) : MarksChanges t (t.removeChainByName referredChain name) := by
  have h' := h.removeChainByName referredChain name
  rcases removeChainByName_inv referredChain name t with ⟨-, hu⟩ | ⟨old, d, hl, hmono, hmark, hu⟩
  · rw [hu]
    exact ⟨fun _ hc => hc, fun _ hne => absurd rfl hne⟩
  · set t₁ : Table ρ :=
      { t with chainNameToChain := t.chainNameToChain.erase name, dirtyChains := d }
    set s := swapReferences referredChain [] old t₁
    have hs := refsOnly_swapReferences referredChain [] old t₁
    set u := t.removeChainByName referredChain name
    have hcount : ∀ c, u.refCount c = s.refCount c := fun c => by rw [hu]; rfl
    have hcn : u.chainNameToChain = t.chainNameToChain.erase name := by
      rw [hu]
      exact hs.chainNameToChain
    have hdirty : u.dirtyChains = s.dirtyChains := by rw [hu]
    refine ⟨fun c hc => hdirty ▸ mem_dirtyChains_swapReferences referredChain (hmono c hc),
      fun c hne => ?_⟩
    rw [hdirty]
    have hnn' : 0 ≤ s.refCount c := by
      rw [← hcount]
      exact h'.nonneg c
    by_cases hc : c = name
    · -- the chain is gone: a change only if something referred to it, which marked it
      subst hc
      by_cases hz : t.refCount c = 0
      · refine absurd ?_ hne
        rw [desiredStateOfChain_of_lookup_none (by rw [hcn]; exact AList.lookup_erase c _)]
        simp only [Table.desiredStateOfChain]
        rw [if_pos hz]
      · exact mem_dirtyChains_swapReferences referredChain
          (hmark (lt_of_le_of_ne (h.nonneg c) (Ne.symm hz)))
    · rcases zero_iff_or_mem_dirtyChains referredChain [] old t₁ c (h.nonneg c) hnn' with
        hiff | hmem
      · refine absurd (desiredStateOfChain_eq_of ?_ (hcount c ▸ hiff)) hne
        rw [hcn]
        exact AList.lookup_erase_ne hc
      · exact hmem

/-! ### `InsertOrAppendRules` and `AppendRules` -/

/-- What the two operations on hooked rules do: the write of the rules, the mark of the chain for
the insert and append pass, and the swap of references. -/
theorem updateHookedRules_eq (hook : Hook) (chainName : String) (rules : List ρ) (t : Table ρ) :
    t.updateHookedRules referredChain hook chainName rules =
      { swapReferences referredChain rules (((t.hookedRules hook).lookup chainName).getD [])
          { t.setHookedRules hook ((t.hookedRules hook).insert chainName rules) with
            dirtyInsertAppend := t.dirtyInsertAppend.add chainName } with
        inSyncWithDataPlane := false } := by
  rw [Table.updateHookedRules, invalidateDataplaneCache_eq]
  cases hook <;> rfl

theorem references_setHookedRules (t : Table ρ) (hook : Hook)
    (m : AList fun _ : String => List ρ) (c : String) :
    (t.setHookedRules hook m).references referredChain c +
        mapReferences referredChain (t.hookedRules hook) c =
      t.references referredChain c + mapReferences referredChain m c := by
  cases hook <;> simp only [Table.references, Table.setHookedRules, Table.hookedRules] <;> omega

/-- The table before the swap of references in the operations on hooked rules. -/
def hookedWrite (hook : Hook) (chainName : String) (rules : List ρ) (t : Table ρ) : Table ρ :=
  { t.setHookedRules hook ((t.hookedRules hook).insert chainName rules) with
    dirtyInsertAppend := t.dirtyInsertAppend.add chainName }

theorem refCount_hookedWrite (hook : Hook) (chainName : String) (rules : List ρ) (t : Table ρ) :
    (hookedWrite hook chainName rules t).refCount = t.refCount := by
  cases hook <;> rfl

theorem CountsReferences.updateHookedRules {t : Table ρ} (h : CountsReferences referredChain t)
    (hook : Hook) (chainName : String) (rules : List ρ) :
    CountsReferences referredChain (t.updateHookedRules referredChain hook chainName rules) := by
  intro c
  have hins := mapReferences_insert referredChain (t.hookedRules hook) chainName rules c
  have hset := references_setHookedRules referredChain t hook
    ((t.hookedRules hook).insert chainName rules) c
  set old := ((t.hookedRules hook).lookup chainName).getD []
  set t₁ := hookedWrite hook chainName rules t
  have hs := refsOnly_swapReferences referredChain rules old t₁
  have hu : t.updateHookedRules referredChain hook chainName rules =
      { swapReferences referredChain rules old t₁ with inSyncWithDataPlane := false } :=
    updateHookedRules_eq referredChain hook chainName rules t
  -- the references after: those of the written map, as `setHookedRules` left them
  have hhook : ∀ h', (t.updateHookedRules referredChain hook chainName rules).hookedRules h' =
      (t.setHookedRules hook ((t.hookedRules hook).insert chainName rules)).hookedRules h' := by
    intro h'
    rw [hu]
    calc _ = (swapReferences referredChain rules old t₁).hookedRules h' := by cases h' <;> rfl
      _ = t₁.hookedRules h' := hs.hookedRules h'
      _ = _ := by cases hook <;> cases h' <;> rfl
  have href := references_eq_of referredChain
    (by rw [hu]; exact hs.name.trans (by cases hook <;> rfl))
    (by rw [hu]; exact hs.chainNameToChain.trans (by cases hook <;> rfl)) hhook c
  have hcount : (t.updateHookedRules referredChain hook chainName rules).refCount c =
      (swapReferences referredChain rules old t₁).refCount c := by
    rw [hu]
    rfl
  rw [hcount, refCount_swapReferences, refCount_hookedWrite, h c, href]
  omega

theorem marksChanges_updateHookedRules {t : Table ρ} (h : CountsReferences referredChain t)
    (hook : Hook) (chainName : String) (rules : List ρ) :
    MarksChanges t (t.updateHookedRules referredChain hook chainName rules) := by
  have h' := h.updateHookedRules referredChain hook chainName rules
  set old := ((t.hookedRules hook).lookup chainName).getD []
  set t₁ := hookedWrite hook chainName rules t
  set s := swapReferences referredChain rules old t₁
  have hs := refsOnly_swapReferences referredChain rules old t₁
  have hu : t.updateHookedRules referredChain hook chainName rules =
      { s with inSyncWithDataPlane := false } :=
    updateHookedRules_eq referredChain hook chainName rules t
  set u := t.updateHookedRules referredChain hook chainName rules
  have hcount : ∀ c, u.refCount c = s.refCount c := fun c => by rw [hu]; rfl
  have hcn : u.chainNameToChain = t.chainNameToChain := by
    rw [hu]
    exact hs.chainNameToChain.trans (by cases hook <;> rfl)
  have hdirty : u.dirtyChains = s.dirtyChains := by rw [hu]
  have hdirty₁ : t₁.dirtyChains = t.dirtyChains := by cases hook <;> rfl
  refine ⟨fun c hc => hdirty ▸ mem_dirtyChains_swapReferences referredChain (hdirty₁ ▸ hc),
    fun c hne => ?_⟩
  rw [hdirty]
  have hnn' : 0 ≤ s.refCount c := by
    rw [← hcount]
    exact h'.nonneg c
  have hnn : 0 ≤ t₁.refCount c := by
    rw [refCount_hookedWrite]
    exact h.nonneg c
  -- the chains are as they were: only a count crossing zero changes a desired state
  rcases zero_iff_or_mem_dirtyChains referredChain rules old t₁ c hnn hnn' with hiff | hmem
  · refine absurd (desiredStateOfChain_eq_of (congrArg (AList.lookup c) hcn) ?_) hne
    rw [hcount, hiff, refCount_hookedWrite]
  · exact hmem

end Operations

/-! ## Runs -/

section Runs

variable {ρ : Type} (referredChain : ρ → Option String)

/-- The calls that change the table's chains and hooked rules. -/
inductive TableOp (ρ : Type) where
  | updateChain (chainName : String) (rules : List ρ)
  | removeChainByName (name : String)
  | insertOrAppendRules (chainName : String) (rules : List ρ)
  | appendRules (chainName : String) (rules : List ρ)

/-- One call. -/
def TableOp.apply : TableOp ρ → Table ρ → Table ρ
  | .updateChain chainName rules, t => t.updateChain referredChain chainName rules
  | .removeChainByName name, t => t.removeChainByName referredChain name
  | .insertOrAppendRules chainName rules, t => t.insertOrAppendRules referredChain chainName rules
  | .appendRules chainName rules, t => t.appendRules referredChain chainName rules

/-- The calls, in order. -/
def runOps (ops : List (TableOp ρ)) (t : Table ρ) : Table ρ :=
  ops.foldl (fun t op => op.apply referredChain t) t

theorem CountsReferences.apply {t : Table ρ} (h : CountsReferences referredChain t)
    (op : TableOp ρ) :
    CountsReferences referredChain (op.apply referredChain t) ∧
      MarksChanges t (op.apply referredChain t) := by
  cases op with
  | updateChain chainName rules =>
    exact ⟨h.updateChain referredChain chainName rules,
      marksChanges_updateChain referredChain h chainName rules⟩
  | removeChainByName name =>
    exact ⟨h.removeChainByName referredChain name,
      marksChanges_removeChainByName referredChain h name⟩
  | insertOrAppendRules chainName rules =>
    exact ⟨h.updateHookedRules referredChain .inserted chainName rules,
      marksChanges_updateHookedRules referredChain h .inserted chainName rules⟩
  | appendRules chainName rules =>
    exact ⟨h.updateHookedRules referredChain .appended chainName rules,
      marksChanges_updateHookedRules referredChain h .appended chainName rules⟩

/-- **No change of a desired chain goes unmarked over a run.** From a table whose refcounts count
the references it holds, after any sequence of `UpdateChain`, `RemoveChainByName`,
`InsertOrAppendRules` and `AppendRules` calls the refcounts still count the references, every
chain dirty at the start is still dirty, and every chain whose desired state differs from the one
it had at the start is dirty. -/
theorem runOps_marksChanges {t : Table ρ} (h : CountsReferences referredChain t)
    (ops : List (TableOp ρ)) :
    CountsReferences referredChain (runOps referredChain ops t) ∧
      MarksChanges t (runOps referredChain ops t) := by
  induction ops generalizing t with
  | nil => exact ⟨h, MarksChanges.refl t⟩
  | cons op ops ih =>
    -- one call, then the rest of the run from the table it leaves
    obtain ⟨h₁, hm₁⟩ := h.apply referredChain op
    obtain ⟨h₂, hm₂⟩ := ih h₁
    exact ⟨h₂, hm₁.trans hm₂⟩

theorem lookup_foldl_incr (c : String) : ∀ (l : List String) (m : AList fun _ : String => ℤ),
    ((l.foldl (fun m k => m.insert k ((m.lookup k).getD 0 + 1)) m).lookup c).getD 0 =
      (m.lookup c).getD 0 + l.count c
  | [], m => by simp
  | k :: l, m => by
    rw [List.foldl_cons, lookup_foldl_incr c l, List.count_cons]
    by_cases hk : c = k
    · subst hk
      simp only [AList.lookup_insert, Option.getD_some, beq_self_eq_true, if_true]
      push_cast
      ring
    · simp [AList.lookup_insert_ne hk, Ne.symm hk]

theorem mapReferences_foldl_insert_nil (c : String) : ∀ (l : List String)
    (m : AList fun _ : String => List ρ), mapReferences referredChain m c = 0 →
      mapReferences referredChain (l.foldl (fun m k => m.insert k []) m) c = 0
  | [], _, h => h
  | k :: l, m, h => by
    have hins := mapReferences_insert referredChain m k [] c
    rw [referenceCount_nil, h] at hins
    rw [List.foldl_cons]
    exact mapReferences_foldl_insert_nil c l (m.insert k []) (by omega)

/-- `NewTable` counts one reference for each kernel chain of the table, and holds no other. -/
theorem countsReferences_newTable (name hashPrefix : String) (ourChainsRegexp : String → Bool)
    (insertMode : InsertMode) (nftablesMode : Bool) :
    CountsReferences referredChain
      (newTable name hashPrefix ourChainsRegexp insertMode nftablesMode : Table ρ) := by
  intro c
  have hhooked := mapReferences_foldl_insert_nil referredChain c (tableToKernelChains name) ∅ rfl
  have hcount := lookup_foldl_incr c (tableToKernelChains name) ∅
  simp only [Table.refCount, newTable, hcount, Table.references, Table.hookedRules, hhooked,
    mapReferences_empty]
  simp

/-- A run from `NewTable` whose rules are their jump targets: a chain written, then jumped to
from `INPUT`. -/
theorem runOps_marksChanges_newTable :
    CountsReferences id (newTable "filter" "cali:" (fun _ => true) .insert false : Table
      (Option String)) ∧
    (CountsReferences id (runOps id [.updateChain "cali-a" [none],
        .insertOrAppendRules "INPUT" [some "cali-a"]]
        (newTable "filter" "cali:" (fun _ => true) .insert false)) ∧
      MarksChanges (newTable "filter" "cali:" (fun _ => true) .insert false)
        (runOps id [.updateChain "cali-a" [none], .insertOrAppendRules "INPUT" [some "cali-a"]]
          (newTable "filter" "cali:" (fun _ => true) .insert false))) :=
  ⟨countsReferences_newTable id _ _ _ _ _,
    runOps_marksChanges id (countsReferences_newTable id _ _ _ _ _) _⟩

end Runs

end Felix.Iptables
