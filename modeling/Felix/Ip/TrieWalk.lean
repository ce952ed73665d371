import Felix.Ip.TrieInvariant

/-!
# Walks down the IPv4 trie

`Get`, `LookupPath`, `LPM`, `Covers` and `Intersects` walk from the root towards a CIDR `q`,
at each node taking the child on `q`'s side of the bit after the node's prefix. On a trie that
keeps its invariant the child not taken holds nothing that contains `q` or lies inside it
(`Wf.childIdx_of_contains`, `Wf.childIdx_of_contained`), so a walk sees every entry that
matters. The entries that contain `q` (`containing`) are those on the walk, in order of their
prefixes.

## Main results

* `Wf.lookupPath_eq`, `lookupPath_eq_nil`: `LookupPath` lists the entries containing a CIDR
  that is in the trie, and nothing for one that is not
* `Wf.lpmLoop_eq`, `Wf.pairwise_containing`: the loop of `LPM` ends at the last of the entries
  containing an address, the one with the longest prefix
* `Wf.covers_iff`: `Covers` finds an entry containing the CIDR
* `Wf.intersects_iff`: `Intersects` finds an entry inside the CIDR; an entry that only
  contains it is not seen, since the walk stops at the first node inside it and never looks at
  the data of the nodes above
-/

namespace Felix.Ip

universe u

namespace V4Node

variable {α : Type u} {n c0 c1 : V4Node α} {c q x : V4CIDR} {d : Option α}

/-- The entries whose CIDR contains `q`. -/
def containing (n : V4Node α) (q : V4CIDR) : List (V4TrieEntry α) :=
  n.entries.filter fun e => decide (e.cidr.Contains q)
attribute [grind] containing

theorem mem_containing {e : V4TrieEntry α} :
    e ∈ n.containing q ↔ e ∈ n.entries ∧ e.cidr.Contains q := by
  simp [containing]

/-! ## The child a walk does not take -/

/-- A walk towards a CIDR inside one under `children[0]` goes to `children[0]`. -/
theorem Wf.childIdx_of_contains0 (hw : (V4Node.node c c0 c1 d).Wf) (hx : x ∈ c0.cidrs)
    (hxq : x.Contains q) : c.childIdx q.addr = 0 :=
  ((hw.below_child0 x hx).of_contains (hw.canonical x (by simp [cidrs, hx])).1 hxq).2.2

theorem Wf.childIdx_of_contains1 (hw : (V4Node.node c c0 c1 d).Wf) (hx : x ∈ c1.cidrs)
    (hxq : x.Contains q) : c.childIdx q.addr = 1 :=
  ((hw.below_child1 x hx).of_contains (hw.canonical x (by simp [cidrs, hx])).1 hxq).2.2

/-- A walk towards a CIDR strictly inside the node and around one under `children[0]` goes to
`children[0]`. -/
theorem Wf.childIdx_of_contained0 (hw : (V4Node.node c c0 c1 d).Wf) (hx : x ∈ c0.cidrs)
    (hq : q.Canonical) (hlt : c.prefixLen.toNat < q.prefixLen.toNat) (hqx : q.Contains x) :
    c.childIdx q.addr = 0 := by
  have hb := hw.below_child0 x hx
  rw [← hb.2.2, V4CIDR.childIdx_eq (by have := hq.1; omega),
    V4CIDR.childIdx_eq (by have := hq.1; omega), hqx.bitAt_eq hlt]

theorem Wf.childIdx_of_contained1 (hw : (V4Node.node c c0 c1 d).Wf) (hx : x ∈ c1.cidrs)
    (hq : q.Canonical) (hlt : c.prefixLen.toNat < q.prefixLen.toNat) (hqx : q.Contains x) :
    c.childIdx q.addr = 1 := by
  have hb := hw.below_child1 x hx
  rw [← hb.2.2, V4CIDR.childIdx_eq (by have := hq.1; omega),
    V4CIDR.childIdx_eq (by have := hq.1; omega), hqx.bitAt_eq hlt]

theorem containing_node :
    (V4Node.node c c0 c1 d).containing q =
      (d.toList.map (⟨c, ·⟩)).filter (fun e => decide (e.cidr.Contains q)) ++
        c0.containing q ++ c1.containing q := by
  rw [containing, entries_node, List.filter_append, List.filter_append]
  rfl

theorem containing_eq_nil (h : ∀ e ∈ n.entries, ¬e.cidr.Contains q) : n.containing q = [] := by
  rw [containing, List.filter_eq_nil_iff]
  simpa using h

/-- The entries of `children[1]` contain nothing that a walk to `children[0]` seeks. -/
theorem Wf.containing_child1 (hw : (V4Node.node c c0 c1 d).Wf) (h : c.childIdx q.addr = 0) :
    c1.containing q = [] :=
  containing_eq_nil fun e he hcont => by
    have := hw.childIdx_of_contains1 (cidr_mem_cidrs he) hcont
    omega

theorem Wf.containing_child0 (hw : (V4Node.node c c0 c1 d).Wf) (h : c.childIdx q.addr ≠ 0) :
    c0.containing q = [] :=
  containing_eq_nil fun _ he hcont => h (hw.childIdx_of_contains0 (cidr_mem_cidrs he) hcont)

/-- Nothing under a node contains its own CIDR. -/
theorem Wf.containing_children_self (hw : (V4Node.node c c0 c1 d).Wf) :
    c0.containing c = [] ∧ c1.containing c = [] := by
  refine ⟨containing_eq_nil fun _ he hcont => ?_, containing_eq_nil fun _ he hcont => ?_⟩
  · have := (hw.below_child0 _ (cidr_mem_cidrs he)).1
    have := hcont.1
    omega
  · have := (hw.below_child1 _ (cidr_mem_cidrs he)).1
    have := hcont.1
    omega

/-- Nothing under a node contains a CIDR outside it. -/
theorem Wf.containing_of_not_contains (hw : (V4Node.node c c0 c1 d).Wf) (h : ¬c.Contains q) :
    (V4Node.node c c0 c1 d).containing q = [] :=
  containing_eq_nil fun _ he hcont => h ((hw.contains _ (cidr_mem_cidrs he)).trans hcont)

theorem Wf.containing_of_containsV4 (hw : (V4Node.node c c0 c1 d).Wf)
    (h : c.containsV4 q.addr = false) : (V4Node.node c c0 c1 d).containing q = [] :=
  hw.containing_of_not_contains fun hcq => by
    rw [V4CIDR.contains_iff hw.1.1, h] at hcq
    exact Bool.false_ne_true hcq.2

/-! ## `LookupPath` -/

/-- For a CIDR that is not in the trie, `LookupPath` gives nothing. -/
theorem lookupPath_eq_nil (h : n.get q = none) (buffer : List (V4TrieEntry α)) :
    n.lookupPath buffer q = [] := by
  induction n generalizing buffer with
  | nil => rfl
  | node c c0 c1 d ih0 ih1 =>
    by_cases hcon : c.containsV4 q.addr = true
    · by_cases hqc : q = c
      · simp_all [get, lookupPath]
      · by_cases hb : c.childIdx q.addr = 0
        · simp only [get, lookupPath, hcon, hqc, hb, Bool.not_true, Bool.false_eq_true, if_false,
            if_true] at h ⊢
          exact ih0 h _
        · simp only [get, lookupPath, hcon, hqc, hb, Bool.not_true, Bool.false_eq_true,
            if_false] at h ⊢
          exact ih1 h _
    · simp [lookupPath, hcon]

/-- For a CIDR in the trie, `LookupPath` gives the entries that contain it. -/
theorem Wf.lookupPath_eq (hw : n.Wf) (h : n.get q ≠ none) (buffer : List (V4TrieEntry α)) :
    n.lookupPath buffer q = buffer ++ n.containing q := by
  induction n generalizing buffer with
  | nil => exact absurd rfl h
  | node c c0 c1 d ih0 ih1 =>
    have hcon : c.containsV4 q.addr = true := by
      by_contra hn
      exact h (by simp [get, hn])
    have hagree := (V4CIDR.containsV4_iff hw.1.1 q.addr).mp hcon
    rw [containing_node]
    by_cases hqc : q = c
    · -- the walk ends at this node, which has data
      subst hqc
      obtain ⟨v, rfl⟩ := Option.ne_none_iff_exists'.mp (by simpa [get, hcon] using h)
      obtain ⟨h0, h1⟩ := hw.containing_children_self
      simp [lookupPath, hcon, h0, h1]
    · -- the walk goes on, and this node's data contains `q`, which lies under it
      obtain ⟨v, hv⟩ := Option.ne_none_iff_exists'.mp h
      have hmem := cidr_mem_cidrs ((hw.get_eq_some_iff).mp hv)
      have hcq : c.Contains q := hw.contains q hmem
      have hown : (d.toList.map (⟨c, ·⟩)).filter (fun e : V4TrieEntry α =>
          decide (e.cidr.Contains q)) = d.toList.map (⟨c, ·⟩) := by
        cases d <;> simp [hcq]
      rw [hown]
      by_cases hb : c.childIdx q.addr = 0
      · have hget : c0.get q ≠ none := by simpa [get, hcon, hqc, hb] using h
        simp only [lookupPath, hcon, hqc, hb, Bool.not_true, Bool.false_eq_true, if_false,
          if_true]
        rw [ih0 hw.2.2.2.2.1 hget, hw.containing_child1 hb]
        cases d <;> simp
      · have hget : c1.get q ≠ none := by simpa [get, hcon, hqc, hb] using h
        simp only [lookupPath, hcon, hqc, hb, Bool.not_true, Bool.false_eq_true, if_false]
        rw [ih1 hw.2.2.2.2.2 hget, hw.containing_child0 hb]
        cases d <;> simp

/-! ## `LPM` -/

/-- The loop of `LPM` for an address ends at the last entry containing it, or keeps what it
had. -/
theorem Wf.lpmLoop_eq (hw : n.Wf) (a : UInt32) (m : Option (V4TrieEntry α)) :
    n.lpmLoop ⟨a, 32⟩ m = (n.containing ⟨a, 32⟩).getLast?.or m := by
  induction n generalizing m with
  | nil => rfl
  | node c c0 c1 d ih0 ih1 =>
    by_cases hcon : c.containsV4 a = true
    · have hcq : c.Contains ⟨a, 32⟩ :=
        (V4CIDR.contains_iff hw.1.1).mpr ⟨hw.1.1, hcon⟩
      -- the node's own entry comes first, and it contains the address
      have hown : (d.toList.map (⟨c, ·⟩)).filter (fun e : V4TrieEntry α =>
          decide (e.cidr.Contains ⟨a, 32⟩)) = d.toList.map (⟨c, ·⟩) := by
        cases d <;> simp [hcq]
      rw [containing_node, hown]
      by_cases hqc : (⟨a, 32⟩ : V4CIDR) = c
      · -- the walk ends here; the children contain nothing this long
        subst hqc
        obtain ⟨h0, h1⟩ := hw.containing_children_self
        simp only [lpmLoop, hcon, Bool.not_true, Bool.false_eq_true, if_false, if_true, h0, h1,
          List.append_nil]
        cases d <;> rfl
      · by_cases hb : c.childIdx a = 0
        · simp only [lpmLoop, hcon, hqc, hb, Bool.not_true, Bool.false_eq_true, if_false,
            if_true]
          rw [ih0 hw.2.2.2.2.1, hw.containing_child1 (q := ⟨a, 32⟩) hb, List.append_nil,
            List.getLast?_append, Option.or_assoc]
          cases d <;> rfl
        · simp only [lpmLoop, hcon, hqc, hb, Bool.not_true, Bool.false_eq_true, if_false]
          rw [ih1 hw.2.2.2.2.2, hw.containing_child0 (q := ⟨a, 32⟩) hb, List.append_nil,
            List.getLast?_append, Option.or_assoc]
          cases d <;> rfl
    · have hnil := hw.containing_of_containsV4 (q := ⟨a, 32⟩) (Bool.eq_false_iff.mpr hcon)
      simp [lpmLoop, hcon, hnil]

/-- Below a node, at most one child holds entries containing a CIDR, and they are deeper than
the node's own, so the entries containing a CIDR come in order of their prefixes. -/
theorem Wf.pairwise_containing (hw : n.Wf) (q : V4CIDR) :
    (n.containing q).Pairwise (fun e e' => e.cidr.prefixLen.toNat < e'.cidr.prefixLen.toNat) := by
  induction n with
  | nil => simp [containing]
  | node c c0 c1 d ih0 ih1 =>
    have hown : ∀ e ∈ (d.toList.map (⟨c, ·⟩)).filter (fun e : V4TrieEntry α =>
        decide (e.cidr.Contains q)), e.cidr = c := by
      cases d <;> simp
    have hdeep : ∀ e ∈ c0.containing q ++ c1.containing q,
        c.prefixLen.toNat < e.cidr.prefixLen.toNat := by
      intro e he
      rcases List.mem_append.mp he with he | he
      · exact (hw.below_child0 _ (cidr_mem_cidrs (mem_containing.mp he).1)).1
      · exact (hw.below_child1 _ (cidr_mem_cidrs (mem_containing.mp he).1)).1
    rw [containing_node, List.append_assoc, List.pairwise_append, List.pairwise_append]
    refine ⟨List.Pairwise.sublist List.filter_sublist (by cases d <;> simp), ⟨ih0 hw.2.2.2.2.1,
      ih1 hw.2.2.2.2.2, ?_⟩, ?_⟩
    · -- both children cannot hold one
      intro e he e' he'
      have h0 := hw.childIdx_of_contains0 (cidr_mem_cidrs (mem_containing.mp he).1)
        (mem_containing.mp he).2
      have h1 := hw.childIdx_of_contains1 (cidr_mem_cidrs (mem_containing.mp he').1)
        (mem_containing.mp he').2
      omega
    · intro e he e' he'
      rw [hown e he]
      exact hdeep e' he'

/-- The last of a list of entries in order of their prefixes has the longest prefix. -/
theorem prefixLen_le_of_getLast? {l : List (V4TrieEntry α)}
    (hl : l.Pairwise (fun e e' => e.cidr.prefixLen.toNat < e'.cidr.prefixLen.toNat))
    {z : V4TrieEntry α} (hz : l.getLast? = some z) {y : V4TrieEntry α} (hy : y ∈ l) :
    y.cidr.prefixLen.toNat ≤ z.cidr.prefixLen.toNat := by
  obtain ⟨l', rfl⟩ := List.getLast?_eq_some_iff.mp hz
  rcases List.mem_append.mp hy with hy | hy
  · exact le_of_lt ((List.pairwise_append.mp hl).2.2 y hy z (List.mem_singleton_self z))
  · rw [List.mem_singleton.mp hy]

/-! ## `Covers` and `Intersects` -/

/-- A node without data joins two children, so every node holds an entry below it. -/
theorem Wf.exists_entry (hw : n.Wf) (hn : n ≠ .nil) : ∃ e, e ∈ n.entries := by
  induction n with
  | nil => exact absurd rfl hn
  | node c c0 c1 d ih0 _ =>
    cases d with
    | some v => exact ⟨⟨c, v⟩, mem_entries_node.mpr (.inl ⟨rfl, rfl⟩)⟩
    | none =>
      obtain ⟨e, he⟩ := ih0 hw.2.2.2.2.1 (hw.2.1 rfl).1
      exact ⟨e, mem_entries_node.mpr (.inr (.inl he))⟩

/-- `Covers` finds an entry whose CIDR contains `q`. -/
theorem Wf.covers_iff (hw : n.Wf) : n.covers q = true ↔ n.containing q ≠ [] := by
  induction n with
  | nil => simp [covers, containing]
  | node c c0 c1 d ih0 ih1 =>
    by_cases hcq : c.Contains q
    · have hcom : v4CommonPrefix c q = c := (V4CIDR.v4CommonPrefix_eq_left_iff hw.1).mpr hcq
      rw [containing_node]
      cases d with
      | some v =>
        -- the node's own entry contains `q`
        simp [covers, hcom, hcq]
      | none =>
        by_cases hb : c.childIdx q.addr = 0
        · simp only [covers, hcom, ne_eq, not_true_eq_false, if_false, Option.isSome_none,
            Bool.false_eq_true, hb, if_true]
          rw [ih0 hw.2.2.2.2.1, hw.containing_child1 hb]
          simp
        · simp only [covers, hcom, ne_eq, not_true_eq_false, if_false, Option.isSome_none,
            Bool.false_eq_true, hb]
          rw [ih1 hw.2.2.2.2.2, hw.containing_child0 hb]
          simp
    · have hcom : v4CommonPrefix c q ≠ c :=
        fun h => hcq ((V4CIDR.v4CommonPrefix_eq_left_iff hw.1).mp h)
      simp [covers, hcom, hw.containing_of_not_contains hcq]

/-- An entry inside `q` under one of the children is on the side of `q`. -/
theorem Wf.exists_inside_node (hw : (V4Node.node c c0 c1 d).Wf) (hq : q.Canonical)
    (hcq : c.Contains q) (hqc : ¬q.Contains c) :
    (∃ e ∈ (V4Node.node c c0 c1 d).entries, q.Contains e.cidr) ↔
      ∃ e ∈ (if c.childIdx q.addr = 0 then c0 else c1).entries, q.Contains e.cidr := by
  have hlt : c.prefixLen.toNat < q.prefixLen.toNat :=
    hcq.lt_of_ne hw.1 hq fun h => hqc (h ▸ V4CIDR.Contains.refl c)
  constructor
  · rintro ⟨e, he, hqe⟩
    rcases mem_entries_node.mp he with ⟨hec, -⟩ | he | he
    · exact absurd (hec ▸ hqe) hqc
    · rw [if_pos (hw.childIdx_of_contained0 (cidr_mem_cidrs he) hq hlt hqe)]
      exact ⟨e, he, hqe⟩
    · have h1 := hw.childIdx_of_contained1 (cidr_mem_cidrs he) hq hlt hqe
      rw [if_neg (by omega)]
      exact ⟨e, he, hqe⟩
  · rintro ⟨e, he, hqe⟩
    split_ifs at he
    · exact ⟨e, mem_entries_node.mpr (.inr (.inl he)), hqe⟩
    · exact ⟨e, mem_entries_node.mpr (.inr (.inr he)), hqe⟩

/-- `Intersects` finds an entry whose CIDR lies inside `q`. -/
theorem Wf.intersects_iff (hw : n.Wf) (hq : q.Canonical) :
    n.intersects q = true ↔ ∃ e ∈ n.entries, q.Contains e.cidr := by
  induction n with
  | nil => simp [intersects]
  | node c c0 c1 d ih0 ih1 =>
    by_cases hqc : q.Contains c
    · -- the node lies inside `q`, and holds an entry below it
      have hcom : v4CommonPrefix c q = q := (V4CIDR.v4CommonPrefix_eq_right_iff hq).mpr hqc
      obtain ⟨e, he⟩ := hw.exists_entry (by simp)
      simp only [intersects, hcom, if_true, true_iff]
      exact ⟨e, he, hqc.trans (hw.contains _ (cidr_mem_cidrs he))⟩
    · have hcom : v4CommonPrefix c q ≠ q :=
        fun h => hqc ((V4CIDR.v4CommonPrefix_eq_right_iff hq).mp h)
      by_cases hcq : c.Contains q
      · have hcom' : v4CommonPrefix c q = c := (V4CIDR.v4CommonPrefix_eq_left_iff hw.1).mpr hcq
        have hne : c ≠ q := fun h => hqc (h ▸ V4CIDR.Contains.refl c)
        rw [hw.exists_inside_node hq hcq hqc]
        by_cases hb : c.childIdx q.addr = 0
        · simp only [intersects, hcom', hne, if_false, ne_eq, not_true_eq_false, hb, if_true]
          exact ih0 hw.2.2.2.2.1
        · simp only [intersects, hcom', hne, if_false, ne_eq, not_true_eq_false, hb]
          exact ih1 hw.2.2.2.2.2
      · -- `q` and the node are disjoint, and so is everything below it
        have hcom' : v4CommonPrefix c q ≠ c :=
          fun h => hcq ((V4CIDR.v4CommonPrefix_eq_left_iff hw.1).mp h)
        simp only [intersects, hcom, hcom', if_false, ne_eq, not_false_eq_true, if_true,
          Bool.false_eq_true, false_iff, not_exists, not_and]
        intro e he hqe
        rcases (hw.contains _ (cidr_mem_cidrs he)).total hqe with h | h
        · exact hcq h
        · exact hqc h

end V4Node

namespace V4Trie

variable {α : Type u} {t : V4Trie α}

/-- `LPM` of an address answers with the last entry containing it, or `V4CIDR{}` and nil. -/
theorem lpm_eq (hw : t.root.Wf) (a : UInt32) :
    t.lpm ⟨a, 32⟩ = (((t.root.containing ⟨a, 32⟩).getLast?).map fun e => (e.cidr, some e.data)).getD
      (⟨0, 0⟩, none) := by
  rw [lpm, hw.lpmLoop_eq, Option.or_none]
  cases (t.root.containing ⟨a, 32⟩).getLast? <;> rfl

end V4Trie

end Felix.Ip
