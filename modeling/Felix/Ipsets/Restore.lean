import Felix.Ipsets.Reachable

/-!
# What an update does to the kernel

`tryUpdates` writes each dirty set's update as lines of one `ipset restore` session. The lines
of one set's update touch its main set and at most one temporary set, which they create and
destroy again; if they all go through, the main set holds exactly the members `GetMembers`
returns for the set, and every other set of the kernel is as it was (`restore_writeUpdates`).
For a rewrite this rests on the temporary set's name being new: `nextFreeTempIPSetName` never
returns an existing name (`nextFreeTempIPSetName_fresh`), because the candidate names it tries
are distinct and there are more of them than existing names.

## Main definitions

* `Kernel.Holds`: a set of the kernel has the given type and exactly the given members

## Main results

* `Kernel.restore_append_eq_true`: a session goes through when its parts do, in order
* `nextFreeTempIPSetName_fresh`: the temporary set's name is not an existing set's
* `restore_writeUpdates`: the effect of one set's update on the kernel
-/

namespace Felix.Ipsets

/-- Decimal numerals are distinct for distinct numbers. -/
theorem nat_toString_injective : Function.Injective (toString : ℕ → String) := fun a b h => by
  have h' : Nat.toDigits 10 a = Nat.toDigits 10 b := by
    simpa using congrArg String.toList h
  rw [← Nat.ofDigitChars_ten_toDigits (n := a), h', Nat.ofDigitChars_ten_toDigits]

namespace Kernel

variable {k k' : Kernel}

/-- The kernel's set `n` exists, has type `t`, and its members are those `P` holds of. -/
def Holds (k : Kernel) (n : String) (t : IPSetType) (P : String → Prop) : Prop :=
  ∃ ks, k.lookup n = some ks ∧ ks.type = t ∧ ∀ x, x ∈ ks.members ↔ P x

/-! ## One line at a time -/

theorem restore_cons_eq_true {l : RestoreLine} {ls : List RestoreLine} :
    k.restore (l :: ls) = (k', true) ↔
      ∃ k₁, k.restoreLine l = some k₁ ∧ k₁.restore ls = (k', true) := by
  rw [restore]
  cases k.restoreLine l with
  | none => simp
  | some k₁ => simp

theorem restore_append_eq_true {l₁ l₂ : List RestoreLine} :
    k.restore (l₁ ++ l₂) = (k', true) ↔
      ∃ k₁, k.restore l₁ = (k₁, true) ∧ k₁.restore l₂ = (k', true) := by
  induction l₁ generalizing k with
  | nil => simp [restore]
  | cons l ls ih =>
    rw [List.cons_append, restore_cons_eq_true]
    constructor
    · rintro ⟨k₁, h₁, h⟩
      obtain ⟨k₂, h₂, h₃⟩ := ih.mp h
      exact ⟨k₂, restore_cons_eq_true.mpr ⟨k₁, h₁, h₂⟩, h₃⟩
    · rintro ⟨k₂, h₂, h₃⟩
      obtain ⟨k₁, h₁, h₂⟩ := restore_cons_eq_true.mp h₂
      exact ⟨k₁, h₁, ih.mpr ⟨k₂, h₂, h₃⟩⟩

theorem restoreLine_create_eq {n : String} {t : IPSetType} {f : IPFamily} {m : ℕ}
    (h : k.restoreLine (.create n t f m) = some k') : n ∉ k ∧ k' = k.insert n ⟨t, ∅⟩ := by
  by_cases hn : n ∈ k
  · simp [restoreLine, hn] at h
  · simp only [restoreLine, hn, if_false, Option.some.injEq] at h
    exact ⟨hn, h.symm⟩

theorem restoreLine_add_eq {n m : String} (h : k.restoreLine (.add n m) = some k') :
    ∃ ks, k.lookup n = some ks ∧ k' = k.insert n { ks with members := ks.members.add m } := by
  cases hk : k.lookup n with
  | none => simp [restoreLine, hk] at h
  | some ks =>
    by_cases hm : m ∈ ks.members
    · simp [restoreLine, hk, hm] at h
    · simp only [restoreLine, hk, hm, Option.bind_some, if_false, Option.some.injEq] at h
      exact ⟨ks, rfl, h.symm⟩

theorem restoreLine_delExist_eq {n m : String} (h : k.restoreLine (.delExist n m) = some k') :
    ∃ ks, k.lookup n = some ks ∧ k' = k.insert n { ks with members := ks.members.discard m } := by
  cases hk : k.lookup n with
  | none => simp [restoreLine, hk] at h
  | some ks =>
    simp only [restoreLine, hk, Option.map_some, Option.some.injEq] at h
    exact ⟨ks, rfl, h.symm⟩

theorem restoreLine_swap_eq {a b : String} (h : k.restoreLine (.swap a b) = some k') :
    ∃ ka kb, k.lookup a = some ka ∧ k.lookup b = some kb ∧ ka.type = kb.type ∧
      k' = (k.insert a kb).insert b ka := by
  cases ha : k.lookup a with
  | none => simp [restoreLine, ha] at h
  | some ka =>
    cases hb : k.lookup b with
    | none => simp [restoreLine, ha, hb] at h
    | some kb =>
      by_cases ht : ka.type = kb.type
      · simp only [restoreLine, ha, hb, ht, Option.bind_some, if_true, Option.some.injEq] at h
        exact ⟨ka, kb, rfl, rfl, ht, h.symm⟩
      · simp [restoreLine, ha, hb, ht] at h

theorem restoreLine_destroy_eq {n : String} (h : k.restoreLine (.destroy n) = some k') :
    n ∈ k ∧ k' = k.erase n := by
  by_cases hn : n ∈ k
  · simp only [restoreLine, hn, if_true, Option.some.injEq] at h
    exact ⟨hn, h.symm⟩
  · simp [restoreLine, hn] at h

/-- Lines that each change the members of set `n` by `g` of their member change nothing else,
and change `n`'s members by each `g` in turn. -/
theorem restore_map_eq {n : String} {mk : String → RestoreLine}
    {g : String → IterSet String → IterSet String}
    (hline : ∀ x k k', Kernel.restoreLine k (mk x) = some k' →
      ∃ ks, k.lookup n = some ks ∧ k' = k.insert n { ks with members := g x ks.members }) :
    ∀ {xs : List String} {k k' : Kernel} {ks : KernelIPSet}, k.lookup n = some ks →
      k.restore (xs.map mk) = (k', true) →
        k'.lookup n = some { ks with members := xs.foldl (fun M x => g x M) ks.members } ∧
          ∀ n', n' ≠ n → k'.lookup n' = k.lookup n'
  | [], k, k', ks, hk, h => by
    simp only [List.map_nil, restore, Prod.mk.injEq] at h
    rw [← h.1]
    exact ⟨hk, fun _ _ => rfl⟩
  | x :: xs, k, k', ks, hk, h => by
    obtain ⟨k₁, h₁, h⟩ := restore_cons_eq_true.mp h
    obtain ⟨ks₀, hks₀, rfl⟩ := hline x k k₁ h₁
    rw [hk, Option.some.injEq] at hks₀
    subst hks₀
    have hk₁ : (k.insert n { ks with members := g x ks.members }).lookup n =
        some { ks with members := g x ks.members } := AList.lookup_insert _
    obtain ⟨hn, hframe⟩ := restore_map_eq hline hk₁ h
    refine ⟨hn, fun n' hn' => ?_⟩
    rw [hframe n' hn', AList.lookup_insert_ne hn']

/-- Lines adding members to set `n` add them and change nothing else. -/
theorem restore_adds {n : String} {xs : List String} {ks : KernelIPSet} (hk : k.lookup n = some ks)
    (h : k.restore (xs.map (.add n ·)) = (k', true)) :
    (∃ ks', k'.lookup n = some ks' ∧ ks'.type = ks.type ∧
      ∀ x, x ∈ ks'.members ↔ x ∈ xs ∨ x ∈ ks.members) ∧
      ∀ n', n' ≠ n → k'.lookup n' = k.lookup n' := by
  obtain ⟨hn, hframe⟩ := restore_map_eq (g := fun x M => M.add x)
    (fun _ _ _ h => restoreLine_add_eq h) hk h
  exact ⟨⟨_, hn, rfl, fun x => IterSet.mem_foldl_add⟩, hframe⟩

/-- Lines deleting members from set `n` delete them and change nothing else. -/
theorem restore_dels {n : String} {xs : List String} {ks : KernelIPSet} (hk : k.lookup n = some ks)
    (h : k.restore (xs.map (.delExist n ·)) = (k', true)) :
    (∃ ks', k'.lookup n = some ks' ∧ ks'.type = ks.type ∧
      ∀ x, x ∈ ks'.members ↔ x ∉ xs ∧ x ∈ ks.members) ∧
      ∀ n', n' ≠ n → k'.lookup n' = k.lookup n' := by
  obtain ⟨hn, hframe⟩ := restore_map_eq (g := fun x M => M.discard x)
    (fun _ _ _ h => restoreLine_delExist_eq h) hk h
  exact ⟨⟨_, hn, rfl, fun x => IterSet.mem_foldl_discard⟩, hframe⟩

/-- Swapping `a` with `b` and destroying `b` moves `b` to `a` and changes nothing else. -/
theorem restore_swap_destroy {a b : String} (hab : a ≠ b)
    (h : k.restore [.swap a b, .destroy b] = (k', true)) :
    k'.lookup a = k.lookup b ∧ k'.lookup b = none ∧
      ∀ n, n ≠ a → n ≠ b → k'.lookup n = k.lookup n := by
  obtain ⟨k₁, h₁, h⟩ := restore_cons_eq_true.mp h
  obtain ⟨k₂, h₂, h⟩ := restore_cons_eq_true.mp h
  obtain ⟨ka, kb, ha, hb, -, rfl⟩ := restoreLine_swap_eq h₁
  obtain ⟨-, rfl⟩ := restoreLine_destroy_eq h₂
  simp only [restore, Prod.mk.injEq, and_true] at h
  subst h
  refine ⟨?_, AList.lookup_erase _ _, fun n hna hnb => ?_⟩
  · rw [AList.lookup_erase_ne hab, AList.lookup_insert_ne hab, AList.lookup_insert, hb]
  · rw [AList.lookup_erase_ne hnb, AList.lookup_insert_ne hnb, AList.lookup_insert_ne hna]

end Kernel

/-! ## Temporary set names -/

theorem IPVersionConfig.nameForTempIPSet_injective (c : IPVersionConfig) :
    Function.Injective c.nameForTempIPSet :=
  fun _ _ h => nat_toString_injective ((String.append_right_inj _).mp h)

/-- When the name `nextFreeTempIPSetNameFrom` settles on is taken, so is every candidate it
tried before it. -/
theorem nextFreeTempIPSetNameFrom_mem (c : IPVersionConfig) (existing : IterSet String) :
    ∀ (fuel idx : ℕ), (nextFreeTempIPSetNameFrom c existing fuel idx).1 ∈ existing →
      ∀ i ≤ fuel, c.nameForTempIPSet (idx + i) ∈ existing
  | 0, idx, h, i, hi => by
    rw [Nat.le_zero.mp hi]
    exact h
  | fuel + 1, idx, h, i, hi => by
    simp only [nextFreeTempIPSetNameFrom] at h
    split_ifs at h with hc
    · -- the first candidate was taken, and so were the later ones
      rcases i with _ | i
      · exact hc
      · have := nextFreeTempIPSetNameFrom_mem c existing fuel (idx + 1) h i (by omega)
        rwa [show idx + 1 + i = idx + (i + 1) by omega] at this
    · exact absurd h hc

/-- `nextFreeTempIPSetName` never returns an existing set's name: it may try one more candidate
than there are existing names, and its candidates are distinct. -/
theorem nextFreeTempIPSetName_fresh (s : IPSets) :
    s.nextFreeTempIPSetName.1 ∉ s.existingIPSetNames := by
  intro h
  set c := s.ipVersionConfig
  set idx := s.nextTempIPSetIdx
  set L := s.existingIPSetNames.toList.length
  have hall := nextFreeTempIPSetNameFrom_mem c s.existingIPSetNames (L + 1) idx h
  -- the first `L + 2` candidates are distinct, and each is one of the `L` existing names
  set tried := (List.range (L + 2)).map fun i => c.nameForTempIPSet (idx + i)
  have hsub : tried ⊆ s.existingIPSetNames.toList := by
    intro n hn
    obtain ⟨i, hi, rfl⟩ := List.mem_map.mp hn
    exact hall i (by rw [List.mem_range] at hi; omega)
  have hnd : tried.Nodup :=
    List.nodup_range.map fun i j hij => Nat.add_left_cancel (c.nameForTempIPSet_injective hij)
  have hlen := hnd.length_le_of_subset hsub
  simp only [tried, List.length_map, List.length_range] at hlen
  omega

/-! ## One set's update -/

namespace IPSets

variable {s : IPSets} {k k' : Kernel} {ipSet : IPSet}

theorem writeFullRewrite_fst (r : IterSet String) : (s.writeFullRewrite ipSet r).1 =
    ((if ipSet.mainIPSetName ∈ s.existingIPSetNames then []
      else [.create ipSet.mainIPSetName ipSet.type s.ipVersionConfig.family ipSet.maxSize]) ++
      .create s.nextFreeTempIPSetName.1 ipSet.type s.ipVersionConfig.family ipSet.maxSize ::
        r.toList.map (.add s.nextFreeTempIPSetName.1 ·)) ++
      [.swap ipSet.mainIPSetName s.nextFreeTempIPSetName.1, .destroy s.nextFreeTempIPSetName.1] :=
  rfl

/-- A rewrite that goes through leaves the main set with the set's type and exactly the
rewrite's members, and every other set as it was: the temporary set is new, so destroying it
again restores the kernel there. -/
theorem restore_writeFullRewrite {r : IterSet String}
    (h : k.restore (s.writeFullRewrite ipSet r).1 = (k', true)) :
    k'.Holds ipSet.mainIPSetName ipSet.type (· ∈ r) ∧
      ∀ n, n ≠ ipSet.mainIPSetName → k'.lookup n = k.lookup n := by
  set m := ipSet.mainIPSetName
  set t := s.nextFreeTempIPSetName.1
  have ht : t ∉ s.existingIPSetNames := nextFreeTempIPSetName_fresh s
  rw [writeFullRewrite_fst, Kernel.restore_append_eq_true] at h
  obtain ⟨k₃, h, hswap⟩ := h
  obtain ⟨k₁, h₁, h⟩ := Kernel.restore_append_eq_true.mp h
  -- creating the main set if it is not known to exist changes nothing else
  have hk₁ : (∀ n, n ≠ m → k₁.lookup n = k.lookup n) ∧ (m ∈ s.existingIPSetNames ∨ m ∈ k₁) := by
    split_ifs at h₁ with hm
    · simp only [Kernel.restore, Prod.mk.injEq, and_true] at h₁
      subst h₁
      exact ⟨fun _ _ => rfl, .inl hm⟩
    · obtain ⟨k₀, h₀, h₁⟩ := Kernel.restore_cons_eq_true.mp h₁
      obtain ⟨-, rfl⟩ := Kernel.restoreLine_create_eq h₀
      simp only [Kernel.restore, Prod.mk.injEq, and_true] at h₁
      subst h₁
      exact ⟨fun n hn => AList.lookup_insert_ne hn, .inr ((AList.mem_insert _).mpr (.inl rfl))⟩
  -- the temporary set is created new, so it is not the main set
  obtain ⟨k₂, h₂, h⟩ := Kernel.restore_cons_eq_true.mp h
  obtain ⟨htk₁, rfl⟩ := Kernel.restoreLine_create_eq h₂
  have hmt : m ≠ t := by
    rintro hmt
    rw [hmt] at hk₁
    rcases hk₁.2 with hm | hm
    · exact ht hm
    · exact htk₁ hm
  -- it is filled, swapped in and destroyed
  obtain ⟨⟨ks₃, hks₃, hty₃, hmem₃⟩, hframe₃⟩ := Kernel.restore_adds (AList.lookup_insert _) h
  obtain ⟨hm', ht', hframe'⟩ := Kernel.restore_swap_destroy hmt hswap
  have hkt : k.lookup t = none := by
    rw [← hk₁.1 t hmt.symm]
    exact AList.lookup_eq_none.mpr htk₁
  refine ⟨⟨ks₃, by rw [hm', hks₃], hty₃, fun x => ?_⟩, fun n hn => ?_⟩
  · simp [hmem₃]
  · by_cases hnt : n = t
    · rw [hnt, ht', hkt]
    · rw [hframe' n hn hnt, hframe₃ n hnt, AList.lookup_insert_ne hnt, hk₁.1 n hn]

/-- Deltas that go through delete and add members of the main set and change nothing else. -/
theorem restore_writeDeltas {ks : KernelIPSet} (hk : k.lookup ipSet.mainIPSetName = some ks)
    (h : k.restore ipSet.writeDeltas = (k', true)) :
    (∃ ks', k'.lookup ipSet.mainIPSetName = some ks' ∧ ks'.type = ks.type ∧
      ∀ x, x ∈ ks'.members ↔
        x ∈ ipSet.pendingAdds ∨ x ∉ ipSet.pendingDeletions ∧ x ∈ ks.members) ∧
      ∀ n, n ≠ ipSet.mainIPSetName → k'.lookup n = k.lookup n := by
  rw [IPSet.writeDeltas, Kernel.restore_append_eq_true] at h
  obtain ⟨k₁, h₁, h₂⟩ := h
  -- the deletions come first, then the additions
  obtain ⟨⟨ks₁, hks₁, hty₁, hmem₁⟩, hframe₁⟩ := Kernel.restore_dels hk h₁
  obtain ⟨⟨ks₂, hks₂, hty₂, hmem₂⟩, hframe₂⟩ := Kernel.restore_adds hks₁ h₂
  refine ⟨⟨ks₂, hks₂, hty₂.trans hty₁, fun x => ?_⟩, fun n hn => ?_⟩
  · rw [hmem₂, hmem₁, IterSet.mem_toList, IterSet.mem_toList]
  · rw [hframe₂ n hn, hframe₁ n hn]

/-- One set's update that goes through leaves its main set with the set's type and exactly the
members `GetMembers` returns for it, and every other set as it was, provided the main set held
what the record says is programmed. -/
theorem restore_writeUpdates (hwf : ipSet.Wf)
    (hagree : ∀ M, ipSet.members = some M → k.Holds ipSet.mainIPSetName ipSet.type (· ∈ M))
    (h : k.restore (s.writeUpdates ipSet).1 = (k', true)) :
    k'.Holds ipSet.mainIPSetName ipSet.type ipSet.Wants ∧
      ∀ n, n ≠ ipSet.mainIPSetName → k'.lookup n = k.lookup n := by
  unfold writeUpdates at h
  cases hr : ipSet.pendingReplace with
  | some r =>
    rw [hr] at h
    obtain ⟨⟨ks, hks, hty, hmem⟩, hframe⟩ := restore_writeFullRewrite h
    exact ⟨⟨ks, hks, hty, fun x => (hmem x).trans (IPSet.wants_of_rewrite hr).symm⟩, hframe⟩
  | none =>
    rw [hr] at h
    obtain ⟨M, hM⟩ := hwf.exists_members hr
    obtain ⟨ks, hks, hty, hmem⟩ := hagree M hM
    -- in delta mode the record wants its additions and its members less its deletions, which
    -- do not meet its additions
    have hwants : ∀ x, ipSet.Wants x ↔
        x ∈ ipSet.pendingAdds ∨ x ∉ ipSet.pendingDeletions ∧ x ∈ M := by
      intro x
      have hdisj : x ∈ ipSet.pendingAdds → x ∉ ipSet.pendingDeletions := fun ha hd =>
        hwf.adds_fresh M hM x ha (hwf.dels_programmed M hM x hd)
      rw [IPSet.wants_of_delta hM hr]
      tauto
    dsimp only at h
    split_ifs at h with hnone
    · -- no deltas: nothing is written
      simp only [Kernel.restore, Prod.mk.injEq, and_true] at h
      subst h
      refine ⟨⟨ks, hks, hty, fun x => ?_⟩, fun _ _ => rfl⟩
      have ha : x ∉ ipSet.pendingAdds := fun hx => by
        simpa [hnone.1] using IterSet.mem_toList.mpr hx
      have hd : x ∉ ipSet.pendingDeletions := fun hx => by
        simpa [hnone.2] using IterSet.mem_toList.mpr hx
      rw [hmem, hwants]
      tauto
    · obtain ⟨⟨ks', hks', hty', hmem'⟩, hframe⟩ := restore_writeDeltas hks h
      refine ⟨⟨ks', hks', hty'.trans hty, fun x => ?_⟩, hframe⟩
      rw [hmem', hmem, hwants]

end IPSets

end Felix.Ipsets
