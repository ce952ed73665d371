import Felix.Rules.Dispatch

/-!
# The dispatch chains route every interface to its endpoint

For non-empty interface names `N` and an interface `x`, the packet on `x` leaves the chains
`buildSingleDispatchChains` renders from `sortAndDivideEndpointNamesToPrefixTree N` by a goto to
`x`'s endpoint chain when `x` is in `N`, and runs the end rules otherwise; the chains do not depend
on the order of `N` (`buildSingleDispatchChains_routes`). This needs every name of `N` to be free
of a trailing `+`: iptables reads a name ending in `+` as a wildcard, and its exact-match rule then
catches the names it prefixes (`buildSingleDispatchChains_plus_misroutes`).

The proof follows the code. The common prefix is a prefix of every name, so the bin of a name is
the common prefix only for the name equal to it; the divide loop keeps, for the sorted names it
has read, the names of each bin without repeats (`Divided`). A bin of several names is then one
byte longer than the common prefix, and its wildcard catches exactly the interfaces of that bin;
every other rule of the root chain matches only its own name.

## Main results

* `commonPrefix_isPrefix`: the common prefix is a prefix of every name
* `Divided.step`, `Divided.foldlM`: the divide loop keeps `Divided`
* `sortAndDivideEndpointNamesToPrefixTree_perm`: the bins do not depend on the order of the names
* `buildSingleDispatchChains_routes`, `buildSingleDispatchChains_plus_misroutes`
-/

namespace Felix.Rules.Dispatch

open Stringutils

/-! ## The common prefix -/

theorem commonPrefixTwoStrings_isPrefix_left (a b : GoString) :
    commonPrefixTwoStrings a b <+: a := by
  induction a generalizing b with
  | nil => cases b <;> exact List.nil_prefix
  | cons c a ih =>
    cases b with
    | nil => exact List.nil_prefix
    | cons d b =>
      rw [commonPrefixTwoStrings]
      split_ifs
      · exact List.cons_prefix_cons.mpr ⟨rfl, ih b⟩
      · exact List.nil_prefix

theorem commonPrefixTwoStrings_isPrefix_right (a b : GoString) :
    commonPrefixTwoStrings a b <+: b := by
  induction a generalizing b with
  | nil => exact List.nil_prefix
  | cons c a ih =>
    cases b with
    | nil => exact List.nil_prefix
    | cons d b =>
      rw [commonPrefixTwoStrings]
      split_ifs with h
      · exact List.cons_prefix_cons.mpr ⟨h, ih b⟩
      · exact List.nil_prefix

/-- Cutting a string down by each string of a list leaves a prefix of all of them. -/
theorem foldl_commonPrefixTwoStrings_isPrefix (strs : List GoString) (acc : GoString) :
    strs.foldl commonPrefixTwoStrings acc <+: acc ∧
      ∀ n ∈ strs, strs.foldl commonPrefixTwoStrings acc <+: n := by
  induction strs generalizing acc with
  | nil => exact ⟨List.prefix_refl acc, fun _ h => absurd h List.not_mem_nil⟩
  | cons t ts ih =>
    obtain ⟨hacc, hts⟩ := ih (commonPrefixTwoStrings acc t)
    refine ⟨hacc.trans (commonPrefixTwoStrings_isPrefix_left acc t), fun n hn => ?_⟩
    rcases List.mem_cons.mp hn with rfl | hn
    · exact hacc.trans (commonPrefixTwoStrings_isPrefix_right acc n)
    · exact hts n hn

theorem commonPrefix_isPrefix {names : List GoString} {n : GoString} (h : n ∈ names) :
    commonPrefix names <+: n := by
  cases names with
  | nil => exact absurd h List.not_mem_nil
  | cons s strs =>
    rcases List.mem_cons.mp h with rfl | h
    · exact (foldl_commonPrefixTwoStrings_isPrefix strs n).1
    · exact (foldl_commonPrefixTwoStrings_isPrefix strs s).2 n h

/-! ## Bins -/

section Bins

variable {cp n x k : GoString}

/-- The bin of a name starts with the common prefix and is a prefix of the name. -/
theorem binOf_isPrefix (h : cp <+: n) : binOf cp n <+: n := by
  unfold binOf
  split_ifs
  · exact List.take_prefix _ n
  · exact h

theorem isPrefix_binOf (h : cp <+: n) : cp <+: binOf cp n := by
  unfold binOf
  split_ifs
  · exact List.prefix_take_iff.mpr ⟨h, by omega⟩
  · exact List.prefix_refl cp

/-- Only the common prefix itself falls in the bin of the common prefix. -/
theorem binOf_eq_self_iff (h : cp <+: n) : binOf cp n = cp ↔ n = cp := by
  unfold binOf
  split_ifs with hlen
  · constructor
    · intro heq
      have := congrArg List.length heq
      rw [List.length_take] at this
      omega
    · rintro rfl
      omega
  · exact ⟨fun _ => (h.eq_of_length (by have := h.length_le; omega)).symm, fun _ => rfl⟩

/-- A bin other than the common prefix is one byte longer. -/
theorem length_binOf_of_ne (h : binOf cp n ≠ cp) : (binOf cp n).length = cp.length + 1 := by
  unfold binOf at h ⊢
  split_ifs at h ⊢ with hlen
  · rw [List.length_take]
    omega
  · exact absurd rfl h

/-- An interface that starts with a bin one byte longer than the common prefix is in that bin. -/
theorem binOf_of_isPrefix (hk : k <+: x) (hlen : k.length = cp.length + 1) :
    binOf cp x = k := by
  have hx := hk.length_le
  unfold binOf
  rw [if_pos (by omega), ← hlen]
  exact (List.prefix_iff_eq_take.mp hk).symm

end Bins

/-! ## The divide loop -/

/-- What the divide loop has made of the names `P` it has read: the last name kept, the bins in a
list without repeats that are exactly those with an entry, and each bin holding, once each, the
names of `P` that fall in it. -/
structure Divided (cp : GoString) (P : List GoString) (st : DivideState) : Prop where
  lastName : st.lastName = P.getLast?.getD []
  mem_prefixes : ∀ k, k ∈ st.prefixes ↔ (st.prefixToNames k).isSome
  prefixes_nodup : st.prefixes.Nodup
  mem_bin : ∀ k l, st.prefixToNames k = some l → ∀ n, n ∈ l ↔ n ∈ P ∧ binOf cp n = k
  bin_nodup : ∀ k l, st.prefixToNames k = some l → l.Nodup
  bin_ne_nil : ∀ k l, st.prefixToNames k = some l → l ≠ []
  isSome_bin : ∀ n ∈ P, (st.prefixToNames (binOf cp n)).isSome

theorem divided_init (cp : GoString) : Divided cp [] DivideState.init where
  lastName := rfl
  mem_prefixes _ := by simp [DivideState.init]
  prefixes_nodup := List.nodup_nil
  mem_bin _ _ h := by simp [DivideState.init] at h
  bin_nodup _ _ h := by simp [DivideState.init] at h
  bin_ne_nil _ _ h := by simp [DivideState.init] at h
  isSome_bin _ h := absurd h List.not_mem_nil

/-- In names read in order, a name that differs from the last one has not been read yet. -/
theorem not_mem_of_sorted {P : List GoString} {name : GoString}
    (hs : (P ++ [name]).Pairwise (· ≤ ·)) (hlast : name ≠ P.getLast?.getD []) : name ∉ P := by
  intro hmem
  rcases List.eq_nil_or_concat P with rfl | ⟨Q, a, rfl⟩
  · exact List.not_mem_nil hmem
  · rw [List.concat_eq_append] at hs hmem hlast
    simp only [List.getLast?_append, List.getLast?_singleton, Option.some_or,
      Option.getD_some] at hlast
    obtain ⟨hQa, -, hname⟩ := List.pairwise_append.mp hs
    -- `a` is the largest name read, and no larger than `name`
    have hle : a ≤ name :=
      hname a (List.mem_append_right Q (List.mem_singleton_self a)) name
        (List.mem_singleton_self name)
    have hge : name ≤ a := by
      rcases List.mem_append.mp hmem with hq | ha
      · exact (List.pairwise_append.mp hQa).2.2 name hq a (List.mem_singleton_self a)
      · rw [List.mem_singleton.mp ha]
    exact hlast (le_antisymm hge hle)

section Step

variable {cp : GoString} {P : List GoString} {st : DivideState} {name : GoString}

/-- The last name read is among the names read. -/
theorem Divided.mem_of_lastName (h : Divided cp P st) (hname : name ≠ [])
    (hlast : name = st.lastName) : name ∈ P := by
  rw [h.lastName] at hlast
  cases hP : P.getLast? with
  | none => rw [hP, Option.getD_none] at hlast; exact absurd hlast hname
  | some a =>
    rw [hP, Option.getD_some] at hlast
    exact hlast ▸ List.mem_of_getLast? hP

/-- A repeat of the last name is skipped, and the state still describes the names read. -/
theorem Divided.skip (h : Divided cp P st) (hname : name ≠ []) (hlast : name = st.lastName) :
    Divided cp (P ++ [name]) st := by
  have hmem := h.mem_of_lastName hname hlast
  have hiff : ∀ n, n ∈ P ++ [name] ↔ n ∈ P := fun n =>
    ⟨fun hn => (List.mem_append.mp hn).elim id fun hn => (List.mem_singleton.mp hn) ▸ hmem,
      fun hn => List.mem_append_left _ hn⟩
  exact
    { lastName := by simp [hlast]
      mem_prefixes := h.mem_prefixes
      prefixes_nodup := h.prefixes_nodup
      mem_bin := fun k l hk n => by rw [hiff]; exact h.mem_bin k l hk n
      bin_nodup := h.bin_nodup
      bin_ne_nil := h.bin_ne_nil
      isSome_bin := fun n hn => h.isSome_bin n ((hiff n).mp hn) }

/-- A new name joins its bin, which is recorded if it is new. -/
theorem Divided.add (h : Divided cp P st) (hnew : name ∉ P) :
    Divided cp (P ++ [name])
      { prefixes := if (st.prefixToNames (binOf cp name)).isNone then
            st.prefixes ++ [binOf cp name] else st.prefixes
        prefixToNames := Function.update st.prefixToNames (binOf cp name)
          (some ((st.prefixToNames (binOf cp name)).getD [] ++ [name]))
        lastName := name } := by
  set pfx := binOf cp name with hpfx
  -- the bin of `name` before: absent exactly when no name read falls in it
  have hold : ∀ n, n ∈ (st.prefixToNames pfx).getD [] ↔ n ∈ P ∧ binOf cp n = pfx := by
    intro n
    cases hm : st.prefixToNames pfx with
    | none =>
      simp only [Option.getD_none, List.not_mem_nil, false_iff, not_and]
      intro hn hbin
      have := h.isSome_bin n hn
      rw [hbin, hm] at this
      exact Bool.false_ne_true this
    | some l => exact h.mem_bin pfx l hm n
  refine
    { lastName := by simp
      mem_prefixes := fun k => ?_
      prefixes_nodup := ?_
      mem_bin := fun k l hk n => ?_
      bin_nodup := fun k l hk => ?_
      bin_ne_nil := fun k l hk => ?_
      isSome_bin := fun n hn => ?_ } <;> dsimp only at *
  · by_cases hk : k = pfx
    · subst hk
      simp only [Function.update_self, Option.isSome_some, iff_true]
      split_ifs with hnone
      · exact List.mem_append_right _ (List.mem_singleton_self _)
      · refine (h.mem_prefixes _).mpr ?_
        cases hm : st.prefixToNames pfx <;> simp [hm] at hnone ⊢
    · rw [Function.update_of_ne hk, ← h.mem_prefixes]
      split_ifs
      · simp [hk]
      · rfl
  · split_ifs with hnone
    · refine List.nodup_append.mpr ⟨h.prefixes_nodup, List.nodup_singleton _, ?_⟩
      intro a ha b hb heq
      rw [List.mem_singleton.mp hb] at heq
      rw [heq, h.mem_prefixes] at ha
      simp only [Option.isNone_iff_eq_none] at hnone
      rw [hnone] at ha
      exact Bool.false_ne_true ha
    · exact h.prefixes_nodup
  · by_cases hkp : k = pfx
    · subst hkp
      rw [Function.update_self, Option.some.injEq] at hk
      subst hk
      simp only [List.mem_append, List.mem_singleton, hold]
      constructor
      · rintro (⟨hn, hb⟩ | rfl)
        · exact ⟨.inl hn, hb⟩
        · exact ⟨.inr rfl, hpfx.symm⟩
      · rintro ⟨hn | hn, hb⟩
        · exact .inl ⟨hn, hb⟩
        · exact .inr hn
    · rw [Function.update_of_ne hkp] at hk
      rw [h.mem_bin k l hk n, List.mem_append, List.mem_singleton]
      constructor
      · exact fun ⟨hn, hb⟩ => ⟨.inl hn, hb⟩
      · rintro ⟨hn | rfl, hb⟩
        · exact ⟨hn, hb⟩
        · exact absurd (hb.symm.trans hpfx.symm) hkp
  · by_cases hkp : k = pfx
    · subst hkp
      rw [Function.update_self, Option.some.injEq] at hk
      subst hk
      refine List.Nodup.append ?_ (List.nodup_singleton name) ?_
      · cases hm : st.prefixToNames pfx with
        | none => exact List.nodup_nil
        | some l => exact h.bin_nodup _ l hm
      · intro a ha hb
        rw [List.mem_singleton.mp hb] at ha
        exact hnew ((hold name).mp ha).1
    · rw [Function.update_of_ne hkp] at hk
      exact h.bin_nodup k l hk
  · by_cases hkp : k = pfx
    · subst hkp
      rw [Function.update_self, Option.some.injEq] at hk
      rw [← hk]
      exact List.append_ne_nil_of_right_ne_nil _ (List.cons_ne_nil _ _)
    · rw [Function.update_of_ne hkp] at hk
      exact h.bin_ne_nil k l hk
  · by_cases hb : binOf cp n = pfx
    · rw [hb, Function.update_self]
      rfl
    · rw [Function.update_of_ne hb]
      rcases List.mem_append.mp hn with hn | hn
      · exact h.isSome_bin n hn
      · exact absurd (congrArg (binOf cp) (List.mem_singleton.mp hn)) hb

/-- One name of the loop keeps `Divided`, on sorted names that are not empty. -/
theorem Divided.step (h : Divided cp P st) (hs : (P ++ [name]).Pairwise (· ≤ ·))
    (hname : name ≠ []) :
    ∃ st', divideStep cp st name = .ok st' ∧ Divided cp (P ++ [name]) st' := by
  by_cases hlast : name = st.lastName
  · exact ⟨st, by rw [divideStep, if_neg hname, if_pos hlast], h.skip hname hlast⟩
  · refine ⟨_, by rw [divideStep, if_neg hname, if_neg hlast], h.add ?_⟩
    exact not_mem_of_sorted hs (by rw [← h.lastName]; exact hlast)

/-- The whole loop keeps `Divided`, and does not panic, on sorted names that are not empty. -/
theorem Divided.foldlM (h : Divided cp P st) (L : List GoString)
    (hs : (P ++ L).Pairwise (· ≤ ·)) (hne : ∀ n ∈ L, n ≠ []) :
    ∃ st', L.foldlM (divideStep cp) st = .ok st' ∧ Divided cp (P ++ L) st' := by
  induction L generalizing P st with
  | nil => exact ⟨st, rfl, by simpa using h⟩
  | cons name L ih =>
    have hs' : ((P ++ [name]) ++ L).Pairwise (· ≤ ·) := by simpa using hs
    obtain ⟨st₁, hstep, h₁⟩ :=
      h.step (hs'.sublist (List.sublist_append_left _ _)) (hne name List.mem_cons_self)
    obtain ⟨st', hL, h'⟩ := ih h₁ hs' fun n hn => hne n (List.mem_cons_of_mem _ hn)
    refine ⟨st', ?_, by simpa using h'⟩
    rw [List.foldlM_cons, hstep]
    exact hL

end Step

/-- `sortAndDivideEndpointNamesToPrefixTree` does not panic on names that are not empty, and
divides the sorted names. -/
theorem sortAndDivideEndpointNamesToPrefixTree_ok {names : List GoString}
    (hne : ∀ n ∈ names, n ≠ []) :
    ∃ st, sortAndDivideEndpointNamesToPrefixTree names =
        .ok (commonPrefix (names.insertionSort (· ≤ ·)), st.prefixes, st.prefixToNames) ∧
      Divided (commonPrefix (names.insertionSort (· ≤ ·))) (names.insertionSort (· ≤ ·)) st := by
  obtain ⟨st, hloop, hd⟩ := (divided_init (commonPrefix (names.insertionSort (· ≤ ·)))).foldlM
    (names.insertionSort (· ≤ ·)) List.sortedLE_insertionSort.pairwise
    fun n hn => hne n ((List.mem_insertionSort _).mp hn)
  refine ⟨st, ?_, hd⟩
  simp only [sortAndDivideEndpointNamesToPrefixTree, hloop]
  rfl

/-- The bins depend only on the names, not on their order: the code sorts them first. -/
theorem sortAndDivideEndpointNamesToPrefixTree_perm {names names' : List GoString}
    (h : names'.Perm names) :
    sortAndDivideEndpointNamesToPrefixTree names' =
      sortAndDivideEndpointNamesToPrefixTree names := by
  have hsort : names'.insertionSort (· ≤ ·) = names.insertionSort (· ≤ ·) :=
    List.Perm.eq_of_sortedLE List.sortedLE_insertionSort List.sortedLE_insertionSort
      ((List.perm_insertionSort _ _).trans (h.trans (List.perm_insertionSort _ _).symm))
  simp only [sortAndDivideEndpointNamesToPrefixTree, hsort]

/-! ## The bins of names that share the common prefix -/

section Bins

variable {cp : GoString} {S : List GoString} {st : DivideState} {k : GoString}
  {l : List GoString}

/-- The bin of the common prefix holds at most the common prefix. -/
theorem Divided.length_bin_self_le (hd : Divided cp S st) (hcp : ∀ n ∈ S, cp <+: n)
    (hk : st.prefixToNames cp = some l) : l.length ≤ 1 := by
  have hsub : l ⊆ [cp] := fun n hn => by
    obtain ⟨hnS, hb⟩ := (hd.mem_bin cp l hk n).mp hn
    exact List.mem_singleton.mpr ((binOf_eq_self_iff (hcp n hnS)).mp hb)
  exact (List.subperm_of_subset (hd.bin_nodup cp l hk) hsub).length_le

/-- A bin of several names is the common prefix and one byte more. -/
theorem Divided.isPrefix_of_multi (hd : Divided cp S st) (hcp : ∀ n ∈ S, cp <+: n)
    (hk : st.prefixToNames k = some l) (hl : 1 < l.length) :
    cp <+: k ∧ k.length = cp.length + 1 := by
  obtain ⟨n, hn⟩ := List.exists_mem_of_ne_nil l (hd.bin_ne_nil k l hk)
  obtain ⟨hnS, rfl⟩ := (hd.mem_bin _ l hk n).mp hn
  have hne : binOf cp n ≠ cp := fun heq => by
    have := hd.length_bin_self_le hcp (heq ▸ hk)
    omega
  exact ⟨isPrefix_binOf (hcp n hnS), length_binOf_of_ne hne⟩

end Bins

/-! ## Interface matches and the walk -/

/-- A pattern that does not end in `+` matches only itself. -/
theorem ifaceMatches_of_getLast?_ne {p : GoString} (h : p.getLast? ≠ some '+') (x : GoString) :
    ifaceMatches p x = decide (p = x) := by
  rw [ifaceMatches, if_neg h]
  exact Bool.eq_iff_iff.mpr (by simp)

/-- A wildcard matches the names that start with what precedes its `+`. -/
theorem ifaceMatches_wildcard (k x : GoString) :
    ifaceMatches (k ++ ['+']) x = decide (k <+: x) := by
  rw [ifaceMatches, if_pos (by simp), List.dropLast_concat]
  exact Bool.eq_iff_iff.mpr (by simp [ List.isPrefixOf_iff_prefix])

section Walk

variable {ρ : Type} {chains : List (DispatchChain ρ)} {pkt : Packet}
  {enter : DispatchChain ρ → Option (Dispatched ρ)}

theorem walk_endRules (ends : List ρ) :
    walk chains pkt enter (ends.map .endRule) = some (.runs (ends.map .endRule)) := by
  cases ends <;> rfl

theorem walk_gotoRule_of_not_matches {m : IfaceMatch} (h : m.matches pkt = false)
    (target : GoString) (rs : List (DispatchRule ρ)) :
    walk chains pkt enter (.gotoRule m target :: rs) = walk chains pkt enter rs := by
  simp [walk, h]

theorem walk_gotoRule_of_find?_none {m : IfaceMatch} (h : m.matches pkt = true) {target : GoString}
    (hf : chains.find? (·.name == target) = none) (rs : List (DispatchRule ρ)) :
    walk chains pkt enter (.gotoRule m target :: rs) = some (.goto target) := by
  simp [walk, h, hf]

theorem walk_gotoRule_of_find?_some {m : IfaceMatch} (h : m.matches pkt = true) {target : GoString}
    {c : DispatchChain ρ} (hf : chains.find? (·.name == target) = some c)
    (rs : List (DispatchRule ρ)) :
    walk chains pkt enter (.gotoRule m target :: rs) = enter c := by
  simp [walk, h, hf]

variable (endpointPfx : GoString) (getMatch : GoString → IfaceMatch)
  (epName : GoString → GoString → GoString) {x : GoString}

/-- Exact matches of names that do not end in `+`: the interface's own goto, if its name is one of
them, and otherwise the rules after them. -/
theorem walk_endpointRules (hm : ∀ p, (getMatch p).matches pkt = ifaceMatches p x)
    (hf : chains.find? (·.name == epName endpointPfx x) = none) (names : List GoString)
    (hplus : ∀ n ∈ names, n.getLast? ≠ some '+') (rest : List (DispatchRule ρ)) :
    walk chains pkt enter (names.map (endpointRule endpointPfx getMatch epName) ++ rest) =
      if x ∈ names then some (.goto (epName endpointPfx x)) else walk chains pkt enter rest := by
  induction names with
  | nil => simp
  | cons n names ih =>
    have hn := hm n
    rw [ifaceMatches_of_getLast?_ne (hplus n List.mem_cons_self)] at hn
    rw [List.map_cons, List.cons_append, endpointRule]
    by_cases hnx : n = x
    · subst hnx
      rw [walk_gotoRule_of_find?_none (by simpa using hn) hf, if_pos List.mem_cons_self]
    · rw [walk_gotoRule_of_not_matches (by simpa [hnx] using hn),
        ih fun n' hn' => hplus n' (List.mem_cons_of_mem _ hn')]
      simp [List.mem_cons, Ne.symm hnx]

end Walk

/-- A list has at most one element that a test picks out; `find?` gives it. -/
theorem find?_eq_some_of_unique {α : Type} {l : List α} {p : α → Bool} {a : α} (ha : a ∈ l)
    (hp : p a = true) (huniq : ∀ b ∈ l, p b = true → b = a) : l.find? p = some a := by
  cases hf : l.find? p with
  | none => exact absurd hp (List.find?_eq_none.mp hf a ha)
  | some b => rw [huniq b (List.mem_of_find?_eq_some hf) (List.find?_some hf)]

/-! ## The chains of one build -/

/-- The arguments of one call of `buildSingleDispatchChains`, but the bins. -/
structure Render (ρ : Type) where
  chainName : GoString
  commonPrefix : GoString
  prefixToNames : GoString → Option (List GoString)
  endpointPfx : GoString
  getMatch : GoString → IfaceMatch
  endpointChainName : GoString → GoString → GoString
  endRules : List ρ

namespace Render

variable {ρ : Type} (R : Render ρ)

/-- The call itself. -/
def build (prefixes : List GoString) :
    List (DispatchChain ρ) × DispatchChain ρ × List (DispatchRule ρ) :=
  buildSingleDispatchChains R.chainName R.commonPrefix R.prefixToNames R.endpointPfx R.getMatch
    R.endpointChainName R.endRules prefixes

/-- The names of a bin, as the loop reads them. -/
def names (k : GoString) : List GoString := (R.prefixToNames k).getD []
attribute [grind] names

/-- The name of a bin's child chain. -/
def childName (k : GoString) : GoString := R.chainName ++ ['-'] ++ k.drop R.commonPrefix.length

/-- The end rules, as rules of a dispatch chain. -/
def ends : List (DispatchRule ρ) := R.endRules.map .endRule
attribute [grind] ends

/-- The child chain of a bin of several names. -/
def binChain (k : GoString) : Option (DispatchChain ρ) :=
  if (R.names k).length > 1 then
    some ⟨R.childName k,
      (R.names k).map (endpointRule R.endpointPfx R.getMatch R.endpointChainName) ++ R.ends⟩
  else none

/-- The rule of a bin in the root chain. -/
def binRule (k : GoString) : DispatchRule ρ :=
  if (R.names k).length > 1 then .gotoRule (R.getMatch (k ++ ['+'])) (R.childName k)
  else endpointRule R.endpointPfx R.getMatch R.endpointChainName ((R.names k).headD [])

theorem buildPrefix_eq (acc : List (DispatchChain ρ) × List (DispatchRule ρ)) (k : GoString) :
    buildPrefix R.chainName R.commonPrefix R.prefixToNames R.endpointPfx R.getMatch
        R.endpointChainName R.endRules acc k =
      (acc.1 ++ (R.binChain k).toList, acc.2 ++ [R.binRule k]) := by
  unfold buildPrefix binChain binRule names childName ends
  dsimp only
  split_ifs
  · rfl
  · simp

/-- The loop over the bins renders each bin's child chain and root rule, in order. -/
theorem foldl_buildPrefix (ks : List GoString)
    (acc : List (DispatchChain ρ) × List (DispatchRule ρ)) :
    ks.foldl (buildPrefix R.chainName R.commonPrefix R.prefixToNames R.endpointPfx R.getMatch
        R.endpointChainName R.endRules) acc =
      (acc.1 ++ ks.filterMap R.binChain, acc.2 ++ ks.map R.binRule) := by
  induction ks generalizing acc with
  | nil => simp
  | cons k ks ih =>
    rw [List.foldl_cons, R.buildPrefix_eq, ih]
    cases h : R.binChain k <;> simp [h]

theorem build_eq (ks : List GoString) :
    R.build ks =
      (ks.filterMap R.binChain, ⟨R.chainName, ks.map R.binRule ++ R.ends⟩,
        ks.map R.binRule ++ R.ends) := by
  simp only [build, buildSingleDispatchChains, foldl_buildPrefix, List.nil_append]
  rfl

/-- Every chain of a build is named after its root chain. -/
theorem chainName_isPrefix_of_mem {ks : List GoString} {c : DispatchChain ρ}
    (hc : c ∈ (R.build ks).1 ++ [(R.build ks).2.1]) : R.chainName <+: c.name := by
  rw [build_eq] at hc
  rcases List.mem_append.mp hc with hc | hc
  · obtain ⟨k, -, hk⟩ := List.mem_filterMap.mp hc
    unfold binChain at hk
    split_ifs at hk
    cases hk
    exact (List.prefix_append _ _).trans (List.prefix_append _ _)
  · obtain rfl := List.mem_singleton.mp hc
    exact List.prefix_refl _

theorem binChain_eq_some {k : GoString} {c : DispatchChain ρ} :
    R.binChain k = some c ↔
      1 < (R.names k).length ∧
        c = ⟨R.childName k, (R.names k).map
          (endpointRule R.endpointPfx R.getMatch R.endpointChainName) ++ R.ends⟩ := by
  unfold binChain
  split_ifs with h
  · exact ⟨fun hc => ⟨h, (Option.some.inj hc).symm⟩, fun ⟨_, hc⟩ => hc ▸ rfl⟩
  · simp only [false_iff, not_and]
    exact fun h' => absurd h' h

end Render

/-- A walk from a dispatch chain's rules is a walk with some way of going on. -/
theorem dispatch_eq_walk {ρ : Type} (chains : List (DispatchChain ρ)) (pkt : Packet) (fuel : ℕ)
    (rules : List (DispatchRule ρ)) :
    ∃ enter, dispatch chains pkt fuel rules = walk chains pkt enter rules := by
  cases fuel
  · exact ⟨_, rfl⟩
  · exact ⟨_, rfl⟩

/-! ## Routing -/

/-- What the routing proof needs of one build for the packet's interface `x`: its bins are those
of a divide of the names `S`, which share the common prefix and do not end in `+`; its rules match
on `x`; and the endpoint chain of `x` is not one of the dispatch chains. -/
structure Fits {ρ : Type} (R : Render ρ) (S : List GoString) (st : DivideState) (pkt : Packet)
    (x : GoString) : Prop where
  divided : Divided R.commonPrefix S st
  prefixToNames_eq : R.prefixToNames = st.prefixToNames
  isPrefix_mem : ∀ n ∈ S, R.commonPrefix <+: n
  not_plus : ∀ n ∈ S, n.getLast? ≠ some '+'
  matches_iff : ∀ p, (R.getMatch p).matches pkt = ifaceMatches p x
  endpoint : ¬ R.chainName <+: R.endpointChainName R.endpointPfx x

namespace Fits

variable {ρ : Type} {R : Render ρ} {S : List GoString} {st : DivideState} {pkt : Packet}
  {x : GoString} (hF : Fits R S st pkt x)
include hF

/-- The names of a bin are the names that fall in it. -/
theorem mem_names (k n : GoString) : n ∈ R.names k ↔ n ∈ S ∧ binOf R.commonPrefix n = k := by
  rw [Render.names, hF.prefixToNames_eq]
  cases hk : st.prefixToNames k with
  | some l => exact hF.divided.mem_bin k l hk n
  | none =>
    simp only [Option.getD_none, List.not_mem_nil, false_iff, not_and]
    intro hn hb
    have := hF.divided.isSome_bin n hn
    rw [hb, hk] at this
    exact Bool.false_ne_true this

theorem names_ne_nil {k : GoString} (hk : k ∈ st.prefixes) : R.names k ≠ [] := by
  rw [Render.names, hF.prefixToNames_eq]
  obtain ⟨l, hl⟩ := Option.isSome_iff_exists.mp ((hF.divided.mem_prefixes k).mp hk)
  rw [hl, Option.getD_some]
  exact hF.divided.bin_ne_nil k l hl

theorem multi {k : GoString} (hk : 1 < (R.names k).length) :
    R.commonPrefix <+: k ∧ k.length = R.commonPrefix.length + 1 := by
  rw [Render.names, hF.prefixToNames_eq] at hk
  cases hl : st.prefixToNames k with
  | none => rw [hl, Option.getD_none] at hk; exact absurd hk (by simp)
  | some l =>
    rw [hl, Option.getD_some] at hk
    exact hF.divided.isPrefix_of_multi hF.isPrefix_mem hl hk

/-- Bins of several names have child chains of different names. -/
theorem childName_inj {k k' : GoString} (hk : 1 < (R.names k).length)
    (hk' : 1 < (R.names k').length) (h : R.childName k = R.childName k') : k = k' := by
  obtain ⟨hp, -⟩ := hF.multi hk
  obtain ⟨hp', -⟩ := hF.multi hk'
  have hd : k.drop R.commonPrefix.length = k'.drop R.commonPrefix.length :=
    List.append_cancel_left h
  calc k = R.commonPrefix ++ k.drop R.commonPrefix.length := (List.prefix_iff_eq_append.mp hp).symm
    _ = R.commonPrefix ++ k'.drop R.commonPrefix.length := by rw [hd]
    _ = k' := List.prefix_iff_eq_append.mp hp'

/-- The goto to the endpoint chain of `x` leaves the dispatch chains. -/
theorem find?_endpoint (ks : List GoString) :
    ((R.build ks).1 ++ [(R.build ks).2.1]).find?
      (·.name == R.endpointChainName R.endpointPfx x) = none := by
  rw [List.find?_eq_none]
  intro c hc heq
  have hpre := R.chainName_isPrefix_of_mem hc
  rw [beq_iff_eq.mp heq] at hpre
  exact hF.endpoint hpre

/-- The goto of a bin of several names reaches the bin's child chain. -/
theorem find?_child {ks : List GoString} {k : GoString} {c : DispatchChain ρ} (hks : k ∈ ks)
    (hc : R.binChain k = some c) :
    ((R.build ks).1 ++ [(R.build ks).2.1]).find? (·.name == R.childName k) = some c := by
  obtain ⟨hk, rfl⟩ := R.binChain_eq_some.mp hc
  rw [R.build_eq]
  refine find?_eq_some_of_unique (List.mem_append_left _ (List.mem_filterMap.mpr ⟨k, hks, hc⟩))
    (by simp) fun b hb hname => ?_
  rw [beq_iff_eq] at hname
  rcases List.mem_append.mp hb with hb | hb
  · obtain ⟨k', -, hk'⟩ := List.mem_filterMap.mp hb
    obtain ⟨hk'm, rfl⟩ := R.binChain_eq_some.mp hk'
    obtain rfl := hF.childName_inj hk'm hk hname
    rfl
  · -- the root chain's name is shorter than any child's
    rw [List.mem_singleton.mp hb] at hname
    have hlen := congrArg List.length hname
    simp [Render.childName] at hlen

/-- A child chain sends `x` to its endpoint chain if `x` is in the bin, and runs the end rules
otherwise. -/
theorem dispatch_child {k : GoString} {c : DispatchChain ρ} (hc : R.binChain k = some c)
    (chains : List (DispatchChain ρ))
    (hf : chains.find? (·.name == R.endpointChainName R.endpointPfx x) = none) (fuel : ℕ) :
    dispatch chains pkt fuel c.rules =
      some (if x ∈ R.names k then .goto (R.endpointChainName R.endpointPfx x)
        else .runs R.ends) := by
  obtain ⟨-, rfl⟩ := R.binChain_eq_some.mp hc
  obtain ⟨enter, he⟩ := dispatch_eq_walk chains pkt fuel _
  rw [he, walk_endpointRules R.endpointPfx R.getMatch R.endpointChainName hF.matches_iff hf _
    (fun n hn => hF.not_plus n ((hF.mem_names k n).mp hn).1), Render.ends, walk_endRules]
  split_ifs <;> rfl

/-- The root chain's rules for the bins `ks`, then the end rules: the goto to `x`'s endpoint chain
if `x` is one of the names and its bin is among `ks`, and the end rules otherwise. The induction
is on the bins; at each, either the bin's rule catches `x` and settles it, or `x` is not in the
bin and the walk goes on. -/
theorem walk_root (fuel : ℕ) (ks : List GoString) (hks : ∀ k ∈ ks, k ∈ st.prefixes) :
    walk ((R.build st.prefixes).1 ++ [(R.build st.prefixes).2.1]) pkt
        (fun c =>
          dispatch ((R.build st.prefixes).1 ++ [(R.build st.prefixes).2.1]) pkt fuel c.rules)
        (ks.map R.binRule ++ R.ends) =
      some (if x ∈ S ∧ binOf R.commonPrefix x ∈ ks then
        .goto (R.endpointChainName R.endpointPfx x) else .runs R.ends) := by
  induction ks with
  | nil => simp [Render.ends, walk_endRules]
  | cons k ks ih =>
    have hk := hks k List.mem_cons_self
    have ih' := ih fun k' hk' => hks k' (List.mem_cons_of_mem _ hk')
    rw [List.map_cons, List.cons_append]
    by_cases hmulti : 1 < (R.names k).length
    · -- several names: a wildcard on the bin, with a goto to its child chain
      obtain ⟨-, hlen⟩ := hF.multi hmulti
      rw [Render.binRule, if_pos hmulti]
      by_cases hpx : k <+: x
      · have hbin : x ∈ S → binOf R.commonPrefix x = k := fun _ => binOf_of_isPrefix hpx hlen
        rw [walk_gotoRule_of_find?_some
          (by rw [hF.matches_iff, ifaceMatches_wildcard]; exact decide_eq_true hpx)
          (hF.find?_child hk (R.binChain_eq_some.mpr ⟨hmulti, rfl⟩)), hF.dispatch_child
          (R.binChain_eq_some.mpr ⟨hmulti, rfl⟩) _ (hF.find?_endpoint _)]
        by_cases hxS : x ∈ S
        · rw [if_pos ((hF.mem_names k x).mpr ⟨hxS, hbin hxS⟩),
            if_pos ⟨hxS, List.mem_cons.mpr (.inl (hbin hxS))⟩]
        · rw [if_neg fun h => hxS ((hF.mem_names k x).mp h).1, if_neg fun h => hxS h.1]
      · rw [walk_gotoRule_of_not_matches
          (by rw [hF.matches_iff, ifaceMatches_wildcard]; exact decide_eq_false hpx), ih']
        -- a name of the bin would start with the bin
        have hiff : (x ∈ S ∧ binOf R.commonPrefix x ∈ k :: ks) ↔
            (x ∈ S ∧ binOf R.commonPrefix x ∈ ks) := by
          refine and_congr_right fun hxS => ⟨fun h => ?_, List.mem_cons_of_mem _⟩
          rcases List.mem_cons.mp h with h | h
          · exact absurd (h ▸ binOf_isPrefix (hF.isPrefix_mem x hxS)) hpx
          · exact h
        simp only [hiff]
    · -- one name: its exact match in the root chain
      have hone : (R.names k).length = 1 := by
        have := List.length_pos_iff.mpr (hF.names_ne_nil hk)
        omega
      obtain ⟨n, hn⟩ := List.length_eq_one_iff.mp hone
      obtain ⟨hnS, hnk⟩ := (hF.mem_names k n).mp (hn ▸ List.mem_singleton_self n)
      have hmatch := hF.matches_iff n
      rw [ifaceMatches_of_getLast?_ne (hF.not_plus n hnS)] at hmatch
      rw [Render.binRule, if_neg hmulti, hn, List.headD_cons, endpointRule]
      by_cases hnx : n = x
      · subst hnx
        rw [walk_gotoRule_of_find?_none (by simpa using hmatch) (hF.find?_endpoint _),
          if_pos ⟨hnS, List.mem_cons.mpr (.inl hnk)⟩]
      · rw [walk_gotoRule_of_not_matches (by simpa [hnx] using hmatch), ih']
        -- `x` in this bin would be its one name
        have hiff : (x ∈ S ∧ binOf R.commonPrefix x ∈ k :: ks) ↔
            (x ∈ S ∧ binOf R.commonPrefix x ∈ ks) := by
          refine and_congr_right fun hxS => ⟨fun h => ?_, List.mem_cons_of_mem _⟩
          rcases List.mem_cons.mp h with h | h
          · have hx := (hF.mem_names k x).mpr ⟨hxS, h⟩
            rw [hn, List.mem_singleton] at hx
            exact absurd hx.symm hnx
          · exact h
        simp only [hiff]

/-- From the root chain, `x` reaches its endpoint chain if it is one of the names, and the end
rules otherwise. -/
theorem dispatchFromRoot_build (fuel : ℕ) :
    dispatchFromRoot pkt (R.build st.prefixes) (fuel + 1) =
      some (if x ∈ S then .goto (R.endpointChainName R.endpointPfx x) else .runs R.ends) := by
  have hrules : (R.build st.prefixes).2.1.rules = st.prefixes.map R.binRule ++ R.ends := by
    rw [R.build_eq]
  rw [dispatchFromRoot, dispatch, hrules, hF.walk_root fuel st.prefixes fun _ hk => hk]
  -- every name's bin is recorded
  have hiff : (x ∈ S ∧ binOf R.commonPrefix x ∈ st.prefixes) ↔ x ∈ S :=
    ⟨And.left, fun hxS => ⟨hxS, (hF.divided.mem_prefixes _).mpr (hF.divided.isSome_bin x hxS)⟩⟩
  simp only [hiff]

end Fits

/-- The chains of one direction route every interface: for non-empty names that do not end in
`+`, the bins do not depend on the order of the names, and from the root chain an interface
reaches its endpoint chain if it is one of the names and runs exactly the end rules otherwise. -/
theorem buildSingleDispatchChains_routes {ρ : Type} (N : List GoString) (hne : ∀ n ∈ N, n ≠ [])
    (hplus : ∀ n ∈ N, n.getLast? ≠ some '+') (chainName endpointPfx : GoString)
    (getMatchForEndpoint : GoString → IfaceMatch)
    (endpointChainName : GoString → GoString → GoString) (endRules : List ρ) (pkt : Packet)
    (x : GoString) (hm : ∀ p, (getMatchForEndpoint p).matches pkt = ifaceMatches p x)
    (hep : ¬ chainName <+: endpointChainName endpointPfx x) :
    ∃ commonPrefix prefixes prefixToNames,
      (∀ N', N'.Perm N → sortAndDivideEndpointNamesToPrefixTree N' =
        .ok (commonPrefix, prefixes, prefixToNames)) ∧
      ∀ fuel, dispatchFromRoot pkt
          (buildSingleDispatchChains chainName commonPrefix prefixToNames endpointPfx
            getMatchForEndpoint endpointChainName endRules prefixes) (fuel + 1) =
        some (if x ∈ N then .goto (endpointChainName endpointPfx x)
          else .runs (endRules.map .endRule)) := by
  obtain ⟨st, hsd, hd⟩ := sortAndDivideEndpointNamesToPrefixTree_ok hne
  refine ⟨_, st.prefixes, st.prefixToNames,
    fun N' hN' => (sortAndDivideEndpointNamesToPrefixTree_perm hN').trans hsd, fun fuel => ?_⟩
  have hF : Fits ⟨chainName, _, st.prefixToNames, endpointPfx, getMatchForEndpoint,
      endpointChainName, endRules⟩ (N.insertionSort (· ≤ ·)) st pkt x :=
    { divided := hd
      prefixToNames_eq := rfl
      isPrefix_mem := fun n hn => commonPrefix_isPrefix hn
      not_plus := fun n hn => hplus n ((List.mem_insertionSort _).mp hn)
      matches_iff := hm
      endpoint := hep }
  have hroute := hF.dispatchFromRoot_build fuel
  simp only [List.mem_insertionSort] at hroute
  exact hroute

theorem buildSingleDispatchChains_routes_cali :
    ∃ commonPrefix prefixes prefixToNames,
      (∀ N', N'.Perm ["cali1".toList, "cali2".toList, "calx".toList] →
        sortAndDivideEndpointNamesToPrefixTree N' = .ok (commonPrefix, prefixes, prefixToNames)) ∧
      ∀ fuel, dispatchFromRoot ⟨"cali2".toList, []⟩
          (buildSingleDispatchChains "cali-from-wl-dispatch".toList commonPrefix prefixToNames
            "cali-fw-".toList .inInterface (· ++ ·) [()] prefixes) (fuel + 1) =
        some (if "cali2".toList ∈ ["cali1".toList, "cali2".toList, "calx".toList] then
          .goto ("cali-fw-".toList ++ "cali2".toList) else .runs [.endRule ()]) :=
  buildSingleDispatchChains_routes _ (by decide) (by decide) _ _ _ _ [()] ⟨"cali2".toList, []⟩
    "cali2".toList (fun _ => rfl) (by decide)

/-- A name ending in `+` is read as a wildcard: with the names `a+` and `ab`, the interface `ab`,
one of the names, reaches the endpoint chain of `a+`. -/
theorem buildSingleDispatchChains_plus_misroutes :
    ∃ commonPrefix prefixes prefixToNames,
      sortAndDivideEndpointNamesToPrefixTree ["a+".toList, "ab".toList] =
        .ok (commonPrefix, prefixes, prefixToNames) ∧
      dispatchFromRoot ⟨"ab".toList, []⟩
          (buildSingleDispatchChains "d".toList commonPrefix prefixToNames "e".toList .inInterface
            (· ++ ·) [()] prefixes) 1 =
        some (.goto ("e".toList ++ "a+".toList)) :=
  ⟨_, _, _, rfl, by decide⟩

end Felix.Rules.Dispatch
