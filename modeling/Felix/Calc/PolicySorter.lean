import Mathlib

/-!
# The policy sorter

`PolicySorter` (`calc/policy_sorter.go`) holds the policies of the one tier, `default`, and
sorts them on demand by `PolicyByOrder`: by order, a policy without one last, then by name.
`OnUpdate` stores a policy and says whether the update was "dirty", that is whether it may
have changed the order of the tier or the kind of one of its policies: a new or deleted policy,
or a change of its order, its types or its `DoNotTrack`, `PreDNAT` or `ApplyOnForward` flags.
A clean update leaves the sorted tier as it was, with the old value of the updated policy in it.

Orders are the source's `float64` values, here the values of any linear order. The types of a
policy are a list, `none` for a `nil` slice; `policyTypesEqual` compares two lists as sets.

`PolicyByOrder.Less` is the order of the pairs (order, with `none` on top; name) of two policies
(`less_iff_lt`), so it orders policies of different names totally: every sort gives the same
list, and `sorted` is the one `mergeSort` gives.

## Main definitions

* `PolicyKey`, `PolicyData`, `PolKV`
* `policyTypesEqual`, `sortFieldsDiffer`, `SameSortFields`
* `PolicySorter`, `PolicySorter.onUpdate`, `PolicySorter.sorted`
* `PolicyByOrder.less`

## Main results

* `PolicyByOrder.less_iff_lt`
* `PolicySorter.mem_sorted`, `PolicySorter.pairwise_less_sorted`
* `PolicySorter.onUpdate_clean`, `PolicySorter.lookup_onUpdate_ne`
-/

namespace Felix.Calc

/-- `model.PolicyKey`. -/
structure PolicyKey where
  name : String
  deriving DecidableEq, Repr

/-- `model.Policy`, with the fields the policy sorter and resolver read; `other` stands for the
rest (the selector, the rules), which they only pass on. -/
structure PolicyData (O X : Type) where
  order : Option O
  types : Option (List String)
  doNotTrack : Bool
  preDNAT : Bool
  applyOnForward : Bool
  other : X
  deriving DecidableEq, Repr

/-- `PolKV`: a policy of the sorted tier with its key. The source's caches of `GovernsIngress`
and `GovernsEgress` are left out. -/
structure PolKV (O X : Type) where
  key : PolicyKey
  value : PolicyData O X
  deriving DecidableEq, Repr

variable {O X : Type}

/-- `policyTypesEqual`: both `nil`, or neither and with the same members. -/
def policyTypesEqual : Option (List String) → Option (List String) → Bool
  | none, none => true
  | some types1, some types2 => types1.all (· ∈ types2) && types2.all (· ∈ types1)
  | _, _ => false
attribute [grind] policyTypesEqual

/-- The condition of a dirty update of a known policy in `PolicySorter.OnUpdate`. The source
compares the `Order` pointers, which differ whenever the orders do; this compares the orders. -/
def sortFieldsDiffer [DecidableEq O] (oldPolicy newPolicy : PolicyData O X) : Bool :=
  decide (oldPolicy.order ≠ newPolicy.order) || oldPolicy.doNotTrack != newPolicy.doNotTrack ||
    oldPolicy.preDNAT != newPolicy.preDNAT || oldPolicy.applyOnForward != newPolicy.applyOnForward ||
    !policyTypesEqual oldPolicy.types newPolicy.types

/-- Two values of a policy that a clean update may swap: the same order and flags, and types
that `policyTypesEqual` finds equal. -/
structure SameSortFields (p q : PolicyData O X) : Prop where
  order : p.order = q.order
  types : policyTypesEqual p.types q.types = true
  doNotTrack : p.doNotTrack = q.doNotTrack
  preDNAT : p.preDNAT = q.preDNAT
  applyOnForward : p.applyOnForward = q.applyOnForward

theorem policyTypesEqual_some {types1 types2 : List String} :
    policyTypesEqual (some types1) (some types2) = true ↔ ∀ t, t ∈ types1 ↔ t ∈ types2 := by
  simp only [policyTypesEqual, Bool.and_eq_true, List.all_eq_true, decide_eq_true_eq]
  constructor
  · rintro ⟨h₁, h₂⟩ t
    exact ⟨h₁ t, h₂ t⟩
  · intro h
    exact ⟨fun t => (h t).mp, fun t => (h t).mpr⟩

theorem policyTypesEqual_refl (t : Option (List String)) : policyTypesEqual t t = true := by
  cases t with
  | none => rfl
  | some types => exact policyTypesEqual_some.mpr fun _ => Iff.rfl

theorem policyTypesEqual_trans {t₁ t₂ t₃ : Option (List String)}
    (h₁₂ : policyTypesEqual t₁ t₂ = true) (h₂₃ : policyTypesEqual t₂ t₃ = true) :
    policyTypesEqual t₁ t₃ = true := by
  cases t₁ <;> cases t₂ <;> cases t₃ <;> try rfl
  -- what is left: a `nil` against a list, which neither hypothesis allows, or three lists
  all_goals first
    | exact absurd h₁₂ Bool.false_ne_true
    | exact absurd h₂₃ Bool.false_ne_true
    | exact policyTypesEqual_some.mpr fun t =>
        (policyTypesEqual_some.mp h₁₂ t).trans (policyTypesEqual_some.mp h₂₃ t)

theorem SameSortFields.refl (p : PolicyData O X) : SameSortFields p p :=
  ⟨rfl, policyTypesEqual_refl p.types, rfl, rfl, rfl⟩

theorem SameSortFields.trans {p q r : PolicyData O X} (hpq : SameSortFields p q)
    (hqr : SameSortFields q r) : SameSortFields p r :=
  ⟨hpq.order.trans hqr.order, policyTypesEqual_trans hpq.types hqr.types,
    hpq.doNotTrack.trans hqr.doNotTrack, hpq.preDNAT.trans hqr.preDNAT,
    hpq.applyOnForward.trans hqr.applyOnForward⟩

theorem sortFieldsDiffer_eq_false [DecidableEq O] {p q : PolicyData O X} :
    sortFieldsDiffer p q = false ↔ SameSortFields p q := by
  simp only [sortFieldsDiffer, Bool.or_eq_false_iff, decide_eq_false_iff_not, not_not,
    bne_eq_false_iff_eq, Bool.not_eq_false']
  constructor
  · rintro ⟨⟨⟨⟨ho, hd⟩, hp⟩, ha⟩, ht⟩
    exact ⟨ho, ht, hd, hp, ha⟩
  · rintro ⟨ho, ht, hd, hp, ha⟩
    exact ⟨⟨⟨⟨ho, hd⟩, hp⟩, ha⟩, ht⟩

/-- `PolicySorter`: the policies of the tier. -/
structure PolicySorter (O X : Type) where
  policies : AList fun _ : PolicyKey => PolicyData O X

/-- `NewPolicySorter`. -/
def newPolicySorter : PolicySorter O X := ⟨∅⟩

/-- On the policies `P` selects, `s'` holds the policies `s` holds, each with the same order,
types and flags. -/
def KeepsSortFields (P : PolicyKey → Prop) (s s' : PolicySorter O X) : Prop :=
  ∀ k, P k → (k ∈ s'.policies ↔ k ∈ s.policies) ∧
    ∀ p, s.policies.lookup k = some p → ∃ p', s'.policies.lookup k = some p' ∧ SameSortFields p p'

namespace PolicyByOrder

variable [LinearOrder O]

/-- `PolicyByOrder.Less`: equal orders, or none on both, by name; otherwise a policy without an
order after every other, and two orders by value. -/
def less (a b : PolKV O X) : Bool :=
  match a.value.order, b.value.order with
  | none, none => decide (a.key.name < b.key.name)
  | some x, some y => if x = y then decide (a.key.name < b.key.name) else decide (x < y)
  | none, some _ => false
  | some _, none => true

/-- The order of a policy, a missing one above every other. -/
def orderKey : Option O → WithTop O
  | none => ⊤
  | some x => x

/-- What `less` compares: the order, then the name. -/
def sortKey (a : PolKV O X) : WithTop O ×ₗ String := toLex (orderKey a.value.order, a.key.name)

theorem less_iff_lt (a b : PolKV O X) : less a b = true ↔ sortKey a < sortKey b := by
  unfold less sortKey
  rw [Prod.Lex.toLex_lt_toLex]
  cases a.value.order with
  | none =>
    cases b.value.order with
    | none => simp [orderKey]
    | some y => simp [orderKey]
  | some x =>
    cases b.value.order with
    | none => simp [orderKey, WithTop.coe_lt_top]
    | some y =>
      by_cases hxy : x = y
      · simp [orderKey, hxy]
      · simp [orderKey, hxy, WithTop.coe_lt_coe]

theorem less_asymm {a b : PolKV O X} (h : less a b = true) : less b a = false := by
  rw [less_iff_lt] at h
  rw [← Bool.not_eq_true, less_iff_lt]
  exact lt_asymm h

theorem less_trans {a b c : PolKV O X} (hab : less a b = true) (hbc : less b c = true) :
    less a c = true := by
  rw [less_iff_lt] at *
  exact hab.trans hbc

/-- Policies of different names are ordered one way or the other. -/
theorem less_total {a b : PolKV O X} (h : a.key.name ≠ b.key.name) :
    less a b = true ∨ less b a = true := by
  rw [less_iff_lt, less_iff_lt]
  have hne : sortKey a ≠ sortKey b := fun e => h (congrArg (fun k => (ofLex k).2) e)
  exact lt_or_gt_of_ne hne

/-- The comparison `sort.Sort` makes of `PolicyByOrder`, as a sort's "not after". -/
def le (a b : PolKV O X) : Bool := !less b a
attribute [grind] le

theorem le_trans' (a b c : PolKV O X) (hab : le a b = true) (hbc : le b c = true) :
    le a c = true := by
  simp only [le, Bool.not_eq_true', ← Bool.not_eq_true, less_iff_lt, not_lt] at *
  exact hab.trans hbc

theorem le_total' (a b : PolKV O X) : (le a b || le b a) = true := by
  cases h : less b a
  · simp [le, h]
  · simp [le, less_asymm h]

end PolicyByOrder

namespace PolicySorter

open PolicyByOrder

/-- `PolicySorter.OnUpdate` for a policy: store or delete it, and say whether the update was
dirty. -/
def onUpdate [DecidableEq O] (key : PolicyKey) (value : Option (PolicyData O X))
    (s : PolicySorter O X) : PolicySorter O X × Bool :=
  match value with
  | some newPolicy =>
    let dirty :=
      match s.policies.lookup key with
      | none => true
      | some oldPolicy => sortFieldsDiffer oldPolicy newPolicy
    (⟨s.policies.insert key newPolicy⟩, dirty)
  | none => if key ∈ s.policies then (⟨s.policies.erase key⟩, true) else (s, false)
attribute [grind] onUpdate

/-- A clean update keeps the keys, and every policy's order, types and flags. -/
theorem onUpdate_clean [DecidableEq O] {key : PolicyKey} {value : Option (PolicyData O X)}
    {s s' : PolicySorter O X} (h : s.onUpdate key value = (s', false)) :
    (∀ k, k ∈ s'.policies ↔ k ∈ s.policies) ∧
      ∀ k p, s.policies.lookup k = some p →
        ∃ p', s'.policies.lookup k = some p' ∧ SameSortFields p p' := by
  unfold onUpdate at h
  split at h
  · -- a stored policy: clean only when it replaces one with the same sort fields
    next newPolicy =>
    obtain ⟨rfl, hd⟩ := Prod.mk.inj h
    cases hold : s.policies.lookup key with
    | none =>
      rw [hold] at hd
      cases hd
    | some oldPolicy =>
      rw [hold] at hd
      have hkey : key ∈ s.policies := AList.lookup_isSome.mp (by rw [hold]; rfl)
      refine ⟨fun k => ?_, fun k p hp => ?_⟩
      · rw [AList.mem_insert]
        constructor
        · rintro (rfl | hk)
          · exact hkey
          · exact hk
        · exact .inr
      · by_cases hk : k = key
        · subst hk
          rw [hold] at hp
          cases hp
          exact ⟨newPolicy, AList.lookup_insert _, sortFieldsDiffer_eq_false.mp hd⟩
        · exact ⟨p, by rw [AList.lookup_insert_ne hk, hp], .refl p⟩
  · -- a deletion is clean only for an unknown policy, and then changes nothing
    split_ifs at h
    · cases h
    · cases h
      exact ⟨fun _ => Iff.rfl, fun k p hp => ⟨p, hp, .refl p⟩⟩

/-- An update changes only its own policy. -/
theorem lookup_onUpdate_ne [DecidableEq O] {key k : PolicyKey} {value : Option (PolicyData O X)}
    {s s' : PolicySorter O X} {dirty : Bool} (h : s.onUpdate key value = (s', dirty))
    (hk : k ≠ key) : s'.policies.lookup k = s.policies.lookup k := by
  unfold onUpdate at h
  split at h
  · cases h
    exact AList.lookup_insert_ne hk
  · split_ifs at h <;> cases h
    · exact AList.lookup_erase_ne hk
    · rfl

theorem keepsSortFields_of_lookup {P : PolicyKey → Prop} {s s' : PolicySorter O X}
    (h : ∀ k, P k → s'.policies.lookup k = s.policies.lookup k) : KeepsSortFields P s s' := by
  intro k hk
  refine ⟨?_, fun p hp => ⟨p, (h k hk).trans hp, .refl p⟩⟩
  rw [← AList.lookup_isSome, ← AList.lookup_isSome, h k hk]

theorem KeepsSortFields.mono {P P' : PolicyKey → Prop} {s s' : PolicySorter O X}
    (h : KeepsSortFields P s s') (hP : ∀ k, P' k → P k) : KeepsSortFields P' s s' :=
  fun k hk => h k (hP k hk)

/-- An update keeps the sort fields of every other policy, and, when it is clean, of all. -/
theorem onUpdate_keepsSortFields [DecidableEq O] {key : PolicyKey}
    {value : Option (PolicyData O X)} {s s' : PolicySorter O X} {dirty : Bool}
    (h : s.onUpdate key value = (s', dirty)) :
    KeepsSortFields (fun k => dirty = false ∨ k ≠ key) s s' := by
  rintro k (hclean | hk)
  · subst hclean
    obtain ⟨hkeys, hsame⟩ := onUpdate_clean h
    exact ⟨hkeys k, hsame k⟩
  · exact keepsSortFields_of_lookup (fun _ hk => lookup_onUpdate_ne h hk) k hk

variable [LinearOrder O]

/-- `pols` lists the policies of `s` that `P` selects: each once, in `PolicyByOrder` order,
with the order, types and flags `s` holds for it now. -/
structure ListsPolicies (P : PolicyKey → Prop) (pols : List (PolKV O X)) (s : PolicySorter O X) :
    Prop where
  mem_iff : ∀ k, k ∈ pols.map PolKV.key ↔ P k ∧ k ∈ s.policies
  nodup : (pols.map PolKV.key).Nodup
  sorted : pols.Pairwise fun a b => PolicyByOrder.less a b
  current : ∀ kv ∈ pols, ∃ p, s.policies.lookup kv.key = some p ∧ SameSortFields kv.value p

/-- A listing stays right across a change of the selection and of the sorter that keeps the
selected policies and their sort fields. -/
theorem ListsPolicies.frame {P P' : PolicyKey → Prop} {pols : List (PolKV O X)}
    {s s' : PolicySorter O X} (h : ListsPolicies P pols s) (hP : ∀ k, P' k ↔ P k)
    (hkeep : KeepsSortFields P s s') : ListsPolicies P' pols s' where
  mem_iff k := by
    rw [h.mem_iff, hP]
    constructor
    · rintro ⟨hk, hm⟩
      exact ⟨hk, ((hkeep k hk).1).mpr hm⟩
    · rintro ⟨hk, hm⟩
      exact ⟨hk, ((hkeep k hk).1).mp hm⟩
  nodup := h.nodup
  sorted := h.sorted
  current kv hkv := by
    obtain ⟨p, hp, hsame⟩ := h.current kv hkv
    have hsel : P kv.key := ((h.mem_iff kv.key).mp (List.mem_map_of_mem hkv)).1
    obtain ⟨p', hp', hsame'⟩ := (hkeep kv.key hsel).2 p hp
    exact ⟨p', hp', hsame.trans hsame'⟩

/-- The policies of a listing of all that a predicate selects are a listing of those. -/
theorem ListsPolicies.filter {pols : List (PolKV O X)} {s : PolicySorter O X}
    (h : ListsPolicies (fun _ => True) pols s) (P : PolicyKey → Prop) [DecidablePred P] :
    ListsPolicies P (pols.filter fun kv => decide (P kv.key)) s where
  mem_iff k := by
    rw [List.mem_map]
    constructor
    · rintro ⟨kv, hkv, rfl⟩
      rw [List.mem_filter, decide_eq_true_eq] at hkv
      exact ⟨hkv.2, ((h.mem_iff kv.key).mp (List.mem_map_of_mem hkv.1)).2⟩
    · rintro ⟨hk, hm⟩
      obtain ⟨kv, hkv, rfl⟩ := List.mem_map.mp ((h.mem_iff k).mpr ⟨trivial, hm⟩)
      exact ⟨kv, List.mem_filter.mpr ⟨hkv, decide_eq_true hk⟩, rfl⟩
  nodup := h.nodup.sublist (List.filter_sublist.map _)
  sorted := h.sorted.filter _
  current kv hkv := h.current kv (List.mem_of_mem_filter hkv)

/-- `PolicySorter.Sorted`: the tier's policies in `PolicyByOrder` order. -/
def sorted (s : PolicySorter O X) : List (PolKV O X) :=
  (s.policies.entries.map fun e => ⟨e.1, e.2⟩).mergeSort le
attribute [grind] sorted

theorem mem_sorted {s : PolicySorter O X} {kv : PolKV O X} :
    kv ∈ s.sorted ↔ s.policies.lookup kv.key = some kv.value := by
  rw [sorted, (List.mergeSort_perm _ _).mem_iff, List.mem_map, ← Option.mem_def,
    AList.mem_lookup_iff]
  constructor
  · rintro ⟨⟨k, v⟩, he, rfl⟩
    exact he
  · intro h
    exact ⟨⟨kv.key, kv.value⟩, h, rfl⟩

theorem nodup_keys_sorted (s : PolicySorter O X) : (s.sorted.map PolKV.key).Nodup := by
  have hperm := (List.mergeSort_perm (s.policies.entries.map fun e => (⟨e.1, e.2⟩ : PolKV O X)) le)
  rw [sorted, (hperm.map PolKV.key).nodup_iff, List.map_map]
  exact s.policies.nodupKeys

theorem mem_keys_sorted {s : PolicySorter O X} {k : PolicyKey} :
    k ∈ s.sorted.map PolKV.key ↔ k ∈ s.policies := by
  rw [← AList.lookup_isSome, Option.isSome_iff_exists, List.mem_map]
  constructor
  · rintro ⟨kv, hkv, rfl⟩
    exact ⟨kv.value, mem_sorted.mp hkv⟩
  · rintro ⟨v, hv⟩
    exact ⟨⟨k, v⟩, mem_sorted.mpr hv, rfl⟩

/-- The sorted tier is in `PolicyByOrder` order. -/
theorem pairwise_less_sorted (s : PolicySorter O X) : s.sorted.Pairwise fun a b => less a b := by
  have hle := List.pairwise_mergeSort le_trans' le_total'
    (s.policies.entries.map fun e => (⟨e.1, e.2⟩ : PolKV O X))
  have hnd := List.pairwise_map.mp (nodup_keys_sorted s)
  refine (hle.and hnd).imp fun {a b} ⟨hab, hk⟩ => ?_
  -- two policies of different keys have different names, and `le` rules out the other way
  have hname : a.key.name ≠ b.key.name := fun e => hk (congrArg PolicyKey.mk e)
  rcases less_total hname with h | h
  · exact h
  · simp [le, h] at hab

/-- The sorted tier lists every policy of the sorter. -/
theorem listsPolicies_sorted (s : PolicySorter O X) : ListsPolicies (fun _ => True) s.sorted s where
  mem_iff k := by
    rw [mem_keys_sorted]
    exact ⟨fun hk => ⟨trivial, hk⟩, And.right⟩
  nodup := nodup_keys_sorted s
  sorted := pairwise_less_sorted s
  current kv hkv := ⟨kv.value, mem_sorted.mp hkv, .refl kv.value⟩

end PolicySorter

end Felix.Calc
