import Felix.Ip.Trie

/-!
# The structural invariant of the IPv4 trie

Every node's CIDR is canonical, every child lies strictly inside its parent on the side of the
bit after the parent's prefix (`V4CIDR.Below`), and a node without data has two children
(`V4Node.Wf`). Under it the nodes' CIDRs are distinct, and the trie is a finite map: `get`
answers for exactly the entries `appendTo` lists (`Wf.get_eq_some_iff`). `Update` and `Delete`
keep the invariant and change the entries as a map update and a map removal
(`mem_entries_update`, `mem_entries_deleteInternal`).

The argument for every walk down the trie is the same: the entries of the child a walk does not
take lie on the other side of the parent, so none of them is the CIDR sought, contains it, or
lies inside it.

## Main definitions

* `V4CIDR.Below`: strictly inside a CIDR, on one side
* `V4Node.cidrs`, `V4Node.entries`: the nodes' CIDRs, and the entries `appendTo` lists
* `V4Node.Wf`: the invariant

## Main results

* `Wf.get_eq_some_iff`, `Wf.nodup_entries`: the trie is a finite map
* `Wf.update`, `mem_entries_update`: `Update`
* `Wf.deleteInternal`, `mem_entries_deleteInternal`: `Delete` below the root
-/

namespace Felix.Ip

universe u

/-! ## Sides -/

namespace V4CIDR

variable {p x y : V4CIDR} {a : UInt32} {b b' : ℕ}

/-- The walk below `p` follows bit `p.prefixLen` of the address. -/
theorem childIdx_eq (hp : p.prefixLen.toNat < 32) :
    p.childIdx a = (bitAt a p.prefixLen.toNat).toNat := by
  rw [childIdx, UInt8.toNat_add, show (1 : UInt8).toNat = 1 from rfl,
    Nat.mod_eq_of_lt (by omega : p.prefixLen.toNat + 1 < 2 ^ 8)]
  exact nthBit_succ a hp

theorem childIdx_le_one (hp : p.prefixLen.toNat < 32) : p.childIdx a ≤ 1 := by
  rw [childIdx_eq hp]
  cases bitAt a p.prefixLen.toNat <;> decide

/-- `x` lies strictly inside `p`, on the side `b` of the bit after `p`'s prefix. -/
def Below (p : V4CIDR) (b : ℕ) (x : V4CIDR) : Prop :=
  p.prefixLen.toNat < x.prefixLen.toNat ∧ p.Contains x ∧ p.childIdx x.addr = b

/-- A CIDR inside one below `p` is below `p` on the same side. -/
theorem Below.of_contains (h : p.Below b x) (hx : x.prefixLen.toNat ≤ 32) (hxy : x.Contains y) :
    p.Below b y := by
  have hpx := h.1
  refine ⟨lt_of_lt_of_le hpx hxy.1, h.2.1.trans hxy, ?_⟩
  rw [← h.2.2, childIdx_eq (by omega), childIdx_eq (by omega), hxy.bitAt_eq hpx]

theorem Below.ne (hx : p.Below b x) (hy : p.Below b' y) (hb : b ≠ b') : x ≠ y := by
  rintro rfl
  exact hb (hx.2.2.symm.trans hy.2.2)

/-- Two CIDRs on one side of `p` share more than `p`'s prefix. -/
theorem Below.common (hx : p.Below b x) (hy : p.Below b y) (hx32 : x.prefixLen.toNat ≤ 32) :
    p.Below b (v4CommonPrefix x y) := by
  have hpx := hx.1
  have hpy := hy.1
  have hpc : p.Contains (v4CommonPrefix x y) :=
    contains_v4CommonPrefix (by omega) hx.2.1 hy.2.1
  have hbit : bitAt x.addr p.prefixLen.toNat = bitAt y.addr p.prefixLen.toNat := by
    have h := hx.2.2.trans hy.2.2.symm
    rw [childIdx_eq (by omega), childIdx_eq (by omega)] at h
    revert h
    cases bitAt x.addr p.prefixLen.toNat <;> cases bitAt y.addr p.prefixLen.toNat <;> decide
  -- the two addresses agree one bit past `p`'s prefix
  have hlt : p.prefixLen.toNat < (v4CommonPrefix x y).prefixLen.toNat := by
    rcases Nat.lt_or_ge p.prefixLen.toNat (v4CommonPrefix x y).prefixLen.toNat with h | h
    · exact h
    · have heq : (v4CommonPrefix x y).prefixLen.toNat = p.prefixLen.toNat := le_antisymm h hpc.1
      have hne := bitAt_ne_of_lt_v4CommonPrefix (a := x) (b := y) (by omega) (by omega)
      rw [heq] at hne
      exact absurd hbit hne
  refine ⟨hlt, hpc, ?_⟩
  rw [← hx.2.2, childIdx_eq (by omega), childIdx_eq (by omega),
    contains_v4CommonPrefix_left.bitAt_eq hlt]

end V4CIDR

namespace V4Node

variable {α : Type u} {n c0 c1 : V4Node α} {c p x cidr : V4CIDR} {d : Option α} {b : ℕ}

/-! ## Nodes and entries -/

/-- The CIDR of the node, none for nil. -/
def cidr? : V4Node α → Option V4CIDR
  | .nil => none
  | .node c _ _ _ => some c

/-- The CIDRs of all the nodes. -/
def cidrs : V4Node α → List V4CIDR
  | .nil => []
  | .node c c0 c1 _ => c :: (c0.cidrs ++ c1.cidrs)

/-- The entries the trie holds, as `ToSlice` lists them. -/
def entries (n : V4Node α) : List (V4TrieEntry α) := n.appendTo []
attribute [grind] entries

theorem appendTo_eq (n : V4Node α) (s : List (V4TrieEntry α)) :
    n.appendTo s = s ++ n.entries := by
  induction n generalizing s with
  | nil => simp [appendTo, entries]
  | node c c0 c1 d ih0 ih1 =>
    cases d with
    | none =>
      rw [entries, appendTo, appendTo, ih1, ih0, ih1 (c0.appendTo []), ih0 []]
      simp
    | some v =>
      rw [entries, appendTo, appendTo, ih1, ih0, ih1 (c0.appendTo _), ih0 (_ ++ _)]
      simp

@[simp] theorem entries_nil : (V4Node.nil : V4Node α).entries = [] := rfl

theorem entries_node :
    (V4Node.node c c0 c1 d).entries = d.toList.map (⟨c, ·⟩) ++ c0.entries ++ c1.entries := by
  cases d <;> rw [entries, appendTo, appendTo_eq, appendTo_eq] <;> simp

theorem mem_entries_node {e : V4TrieEntry α} :
    e ∈ (V4Node.node c c0 c1 d).entries ↔
      (e.cidr = c ∧ d = some e.data) ∨ e ∈ c0.entries ∨ e ∈ c1.entries := by
  rw [entries_node, List.mem_append, List.mem_append, or_assoc]
  cases e with
  | mk ec ev =>
    cases d with
    | none => simp
    | some v =>
      simp only [Option.toList_some, List.map_cons, List.map_nil, List.mem_singleton,
        V4TrieEntry.mk.injEq, Option.some.injEq]
      rw [eq_comm (a := v)]

theorem cidr_mem_cidrs {e : V4TrieEntry α} (h : e ∈ n.entries) : e.cidr ∈ n.cidrs := by
  induction n with
  | nil => cases h
  | node c c0 c1 d ih0 ih1 =>
    rcases mem_entries_node.mp h with ⟨hc, -⟩ | h | h
    · exact hc ▸ List.mem_cons_self
    · exact List.mem_cons_of_mem _ (List.mem_append_left _ (ih0 h))
    · exact List.mem_cons_of_mem _ (List.mem_append_right _ (ih1 h))

/-! ## The invariant -/

/-- The structural invariant: canonical CIDRs, each child strictly inside its parent on the
side of the bit after the parent's prefix, and two children at each node without data. -/
def Wf : V4Node α → Prop
  | .nil => True
  | .node c c0 c1 d => c.Canonical ∧ (d = none → c0 ≠ .nil ∧ c1 ≠ .nil) ∧
      (∀ x ∈ c0.cidr?, c.Below 0 x) ∧ (∀ x ∈ c1.cidr?, c.Below 1 x) ∧ c0.Wf ∧ c1.Wf

theorem forall_mem_cidr?_nil (P : V4CIDR → Prop) :
    ∀ x ∈ (V4Node.nil : V4Node α).cidr?, P x := fun _ h => by cases h

@[simp] theorem forall_mem_cidr?_node {P : V4CIDR → Prop} :
    (∀ x ∈ (V4Node.node c c0 c1 d).cidr?, P x) ↔ P c :=
  ⟨fun h => h c rfl, fun h _ hx => by cases hx; exact h⟩

/-- A node with data and no children. -/
theorem wf_leaf (hc : c.Canonical) {v : α} : (V4Node.node c .nil .nil (some v)).Wf :=
  ⟨hc, by simp, forall_mem_cidr?_nil _, forall_mem_cidr?_nil _, trivial, trivial⟩

theorem Wf.canonical (hw : n.Wf) : ∀ x ∈ n.cidrs, x.Canonical := by
  induction n with
  | nil => intro x hx; cases hx
  | node c c0 c1 d ih0 ih1 =>
    obtain ⟨hc, -, -, -, hw0, hw1⟩ := hw
    intro x hx
    rcases List.mem_cons.mp hx with rfl | hx
    · exact hc
    · rcases List.mem_append.mp hx with hx | hx
      · exact ih0 hw0 x hx
      · exact ih1 hw1 x hx

/-- What lies below `p` on one side, with everything under it. -/
theorem Wf.below (hw : n.Wf) (hroot : ∀ x ∈ n.cidr?, p.Below b x) : ∀ x ∈ n.cidrs, p.Below b x := by
  induction n with
  | nil => intro x hx; cases hx
  | node c c0 c1 d ih0 ih1 =>
    obtain ⟨hc, -, h0, h1, hw0, hw1⟩ := hw
    have hpc : p.Below b c := hroot c rfl
    intro x hx
    rcases List.mem_cons.mp hx with rfl | hx
    · exact hpc
    · -- a child's subtree is inside the child, so inside `c`, so below `p` with `c`
      rcases List.mem_append.mp hx with hx | hx
      · exact ih0 hw0 (fun y hy => hpc.of_contains hc.1 (h0 y hy).2.1) x hx
      · exact ih1 hw1 (fun y hy => hpc.of_contains hc.1 (h1 y hy).2.1) x hx

theorem Wf.below_child0 (hw : (V4Node.node c c0 c1 d).Wf) : ∀ x ∈ c0.cidrs, c.Below 0 x :=
  hw.2.2.2.2.1.below hw.2.2.1

theorem Wf.below_child1 (hw : (V4Node.node c c0 c1 d).Wf) : ∀ x ∈ c1.cidrs, c.Below 1 x :=
  hw.2.2.2.2.2.below hw.2.2.2.1

/-- A node's CIDR contains the CIDRs of all the nodes under it. -/
theorem Wf.contains (hw : (V4Node.node c c0 c1 d).Wf) :
    ∀ x ∈ (V4Node.node c c0 c1 d).cidrs, c.Contains x := by
  intro x hx
  rcases List.mem_cons.mp hx with rfl | hx
  · exact V4CIDR.Contains.refl x
  · rcases List.mem_append.mp hx with hx | hx
    · exact (hw.below_child0 x hx).2.1
    · exact (hw.below_child1 x hx).2.1

/-- The nodes' CIDRs are distinct. -/
theorem Wf.nodup_cidrs (hw : n.Wf) : n.cidrs.Nodup := by
  induction n with
  | nil => exact List.nodup_nil
  | node c c0 c1 d ih0 ih1 =>
    have hb0 := hw.below_child0
    have hb1 := hw.below_child1
    obtain ⟨-, -, -, -, hw0, hw1⟩ := hw
    refine List.nodup_cons.mpr ⟨?_, List.nodup_append.mpr ⟨ih0 hw0, ih1 hw1, ?_⟩⟩
    · -- the nodes below are strictly inside
      intro hc
      rcases List.mem_append.mp hc with hc | hc
      · exact lt_irrefl _ (hb0 c hc).1
      · exact lt_irrefl _ (hb1 c hc).1
    · intro x hx y hy
      exact (hb0 x hx).ne (hb1 y hy) zero_ne_one

theorem map_cidr_entries_sublist : (n.entries.map (·.cidr)).Sublist n.cidrs := by
  induction n with
  | nil => exact List.Sublist.slnil
  | node c c0 c1 d ih0 ih1 =>
    rw [entries_node, List.map_append, List.map_append, cidrs]
    have hd : ((d.toList.map (fun v => (⟨c, v⟩ : V4TrieEntry α))).map (·.cidr)).Sublist [c] := by
      cases d <;> simp
    simpa using hd.append (ih0.append ih1)

/-- The entries have distinct CIDRs. -/
theorem Wf.nodup_entries (hw : n.Wf) : (n.entries.map (·.cidr)).Nodup :=
  map_cidr_entries_sublist.nodup hw.nodup_cidrs

theorem not_mem_entries_of {v : α} (h : ∀ x ∈ n.cidrs, x ≠ cidr) : ⟨cidr, v⟩ ∉ n.entries :=
  fun he => h _ (cidr_mem_cidrs he) rfl

/-! ## Walking down -/

/-- No node under one whose CIDR does not hold the address is at `cidr`. -/
theorem Wf.ne_of_containsV4 (hw : (V4Node.node c c0 c1 d).Wf)
    (h : c.containsV4 cidr.addr = false) : ∀ x ∈ (V4Node.node c c0 c1 d).cidrs, x ≠ cidr := by
  rintro x hx rfl
  have hcx := (V4CIDR.contains_iff hw.1.1).mp (hw.contains x hx)
  rw [h] at hcx
  exact Bool.false_ne_true hcx.2

/-- No node under the child that a walk to `cidr` does not take is at `cidr`. -/
theorem Wf.ne_of_mem_child0 (hw : (V4Node.node c c0 c1 d).Wf) (h : c.childIdx cidr.addr ≠ 0) :
    ∀ x ∈ c0.cidrs, x ≠ cidr := by
  rintro x hx rfl
  exact h (hw.below_child0 x hx).2.2

theorem Wf.ne_of_mem_child1 (hw : (V4Node.node c c0 c1 d).Wf) (h : c.childIdx cidr.addr = 0) :
    ∀ x ∈ c1.cidrs, x ≠ cidr := by
  rintro x hx rfl
  have := (hw.below_child1 x hx).2.2
  omega

/-- No node under a node is at its CIDR. -/
theorem Wf.ne_of_mem_children (hw : (V4Node.node c c0 c1 d).Wf) :
    ∀ x ∈ c0.cidrs ++ c1.cidrs, x ≠ c := by
  rintro x hx rfl
  rcases List.mem_append.mp hx with hx | hx
  · exact lt_irrefl _ (hw.below_child0 x hx).1
  · exact lt_irrefl _ (hw.below_child1 x hx).1

/-- `get` answers for exactly the entries. -/
theorem Wf.get_eq_some_iff (hw : n.Wf) {v : α} : n.get cidr = some v ↔ ⟨cidr, v⟩ ∈ n.entries := by
  induction n with
  | nil => simp [get]
  | node c c0 c1 d ih0 ih1 =>
    rw [mem_entries_node]
    by_cases hcon : c.containsV4 cidr.addr = true
    · by_cases hc : cidr = c
      · -- the walk ends here
        subst hc
        have h0 : ⟨cidr, v⟩ ∉ c0.entries :=
          not_mem_entries_of fun x hx => hw.ne_of_mem_children x (List.mem_append_left _ hx)
        have h1 : ⟨cidr, v⟩ ∉ c1.entries :=
          not_mem_entries_of fun x hx => hw.ne_of_mem_children x (List.mem_append_right _ hx)
        simp [get, hcon, h0, h1]
      · by_cases h0 : c.childIdx cidr.addr = 0
        · have h1 : ⟨cidr, v⟩ ∉ c1.entries := not_mem_entries_of (hw.ne_of_mem_child1 h0)
          simp only [get, hcon, hc, h0, Bool.not_true, Bool.false_eq_true, if_false, if_true]
          rw [ih0 hw.2.2.2.2.1]
          simp [h1]
        · have h1 : ⟨cidr, v⟩ ∉ c0.entries := not_mem_entries_of (hw.ne_of_mem_child0 h0)
          simp only [get, hcon, hc, h0, Bool.not_true, Bool.false_eq_true, if_false]
          rw [ih1 hw.2.2.2.2.2]
          simp [h1]
    · -- the walk leaves the trie here
      have hne := hw.ne_of_containsV4 (Bool.eq_false_iff.mpr hcon)
      have h0 : ⟨cidr, v⟩ ∉ c0.entries :=
        not_mem_entries_of fun x hx => hne x (List.mem_cons_of_mem _ (List.mem_append_left _ hx))
      have h1 : ⟨cidr, v⟩ ∉ c1.entries :=
        not_mem_entries_of fun x hx => hne x (List.mem_cons_of_mem _ (List.mem_append_right _ hx))
      have hc : cidr ≠ c := fun h => hne c List.mem_cons_self h.symm
      simp [get, Bool.eq_false_iff.mpr hcon, h0, h1, hc]

/-! ## `Update` -/

section Update

variable {v : α}

theorem update_ne_nil (n : V4Node α) : n.update cidr v ≠ .nil := by
  cases n with
  | nil => simp [update]
  | node c c0 c1 d =>
    unfold update
    split_ifs <;> simp

theorem update_self : (V4Node.node c c0 c1 d).update c v = .node c c0 c1 (some v) := by
  rw [update, if_pos rfl]

/-- `Update` goes down below a node that contains its CIDR. -/
theorem update_of_contains (hc : c.Canonical) (h : c.Contains cidr) (hne : c ≠ cidr) :
    (V4Node.node c c0 c1 d).update cidr v =
      if c.childIdx cidr.addr = 0 then .node c (c0.update cidr v) c1 d
      else .node c c0 (c1.update cidr v) d := by
  have hp : (v4CommonPrefix cidr c).prefixLen = c.prefixLen :=
    (V4CIDR.prefixLen_v4CommonPrefix_eq_right_iff hc).mpr h
  rw [update, if_neg hne, if_pos hp, V4CIDR.childIdx, hp]

/-- `Update` puts its CIDR above a node inside it. -/
theorem update_of_contained (hc : c.Canonical) (hcc : cidr.Canonical) (h : cidr.Contains c)
    (hne : c ≠ cidr) :
    (V4Node.node c c0 c1 d).update cidr v =
      if cidr.childIdx c.addr = 0 then .node cidr (.node c c0 c1 d) .nil (some v)
      else .node cidr .nil (.node c c0 c1 d) (some v) := by
  have hnc : ¬c.Contains cidr := fun h' => hne (V4CIDR.Contains.antisymm hc hcc h' h)
  have hp : (v4CommonPrefix cidr c).prefixLen = cidr.prefixLen :=
    (V4CIDR.prefixLen_v4CommonPrefix_eq_left_iff hcc).mpr h
  rw [update, if_neg hne, if_neg (mt (V4CIDR.prefixLen_v4CommonPrefix_eq_right_iff hc).mp hnc),
    if_pos hp, V4CIDR.childIdx, hp]

/-- `Update` joins its CIDR and a node apart from it below a new node without data. -/
theorem update_of_disjoint (hc : c.Canonical) (hcc : cidr.Canonical) (h₁ : ¬c.Contains cidr)
    (h₂ : ¬cidr.Contains c) :
    (V4Node.node c c0 c1 d).update cidr v =
      if (v4CommonPrefix cidr c).childIdx c.addr = 0 then
        .node (v4CommonPrefix cidr c) (.node c c0 c1 d) (.node cidr .nil .nil (some v)) none
      else
        .node (v4CommonPrefix cidr c) (.node cidr .nil .nil (some v)) (.node c c0 c1 d) none := by
  have hne : c ≠ cidr := by
    rintro rfl
    exact h₁ (V4CIDR.Contains.refl c)
  rw [update, if_neg hne, if_neg (mt (V4CIDR.prefixLen_v4CommonPrefix_eq_right_iff hc).mp h₁),
    if_neg (mt (V4CIDR.prefixLen_v4CommonPrefix_eq_left_iff hcc).mp h₂)]
  rfl

/-- Where neither of two canonical CIDRs contains the other, both lie below their common
prefix, on the two sides. -/
theorem below_of_disjoint {a b : V4CIDR} (ha : a.Canonical) (hb : b.Canonical)
    (h₁ : ¬a.Contains b) (h₂ : ¬b.Contains a) :
    (v4CommonPrefix a b).Below ((v4CommonPrefix a b).childIdx a.addr) a ∧
      (v4CommonPrefix a b).Below ((v4CommonPrefix a b).childIdx b.addr) b ∧
      (v4CommonPrefix a b).childIdx a.addr ≠ (v4CommonPrefix a b).childIdx b.addr := by
  have hla : (v4CommonPrefix a b).prefixLen.toNat < a.prefixLen.toNat :=
    lt_of_le_of_ne prefixLen_v4CommonPrefix_le_left fun h =>
      h₁ ((V4CIDR.prefixLen_v4CommonPrefix_eq_left_iff ha).mp (UInt8.toNat_inj.mp h))
  have hlb : (v4CommonPrefix a b).prefixLen.toNat < b.prefixLen.toNat :=
    lt_of_le_of_ne prefixLen_v4CommonPrefix_le_right fun h =>
      h₂ ((V4CIDR.prefixLen_v4CommonPrefix_eq_right_iff hb).mp (UInt8.toNat_inj.mp h))
  have h32 := ha.1
  refine ⟨⟨hla, V4CIDR.contains_v4CommonPrefix_left, rfl⟩,
    ⟨hlb, V4CIDR.contains_v4CommonPrefix_right, rfl⟩, ?_⟩
  rw [V4CIDR.childIdx_eq (by omega), V4CIDR.childIdx_eq (by omega)]
  have hne := bitAt_ne_of_lt_v4CommonPrefix (a := a) (b := b) (by omega) (by omega)
  revert hne
  cases bitAt a.addr (v4CommonPrefix a b).prefixLen.toNat <;>
    cases bitAt b.addr (v4CommonPrefix a b).prefixLen.toNat <;> decide

/-- The node that takes the place of one below `p` is below `p` on the same side, when the new
CIDR is. -/
theorem below_update (hw : n.Wf) (hcc : cidr.Canonical) (hn : ∀ x ∈ n.cidr?, p.Below b x)
    (hp : p.Below b cidr) : ∀ x ∈ (n.update cidr v).cidr?, p.Below b x := by
  cases n with
  | nil =>
    rintro x ⟨⟩
    exact hp
  | node c c0 c1 d =>
    have hpc : p.Below b c := hn c rfl
    by_cases hne : c = cidr
    · subst hne
      rw [update_self]
      exact hn
    · by_cases h₁ : c.Contains cidr
      · rw [update_of_contains hw.1 h₁ hne]
        split_ifs <;> exact hn
      · by_cases h₂ : cidr.Contains c
        · rw [update_of_contained hw.1 hcc h₂ hne]
          split_ifs <;> (rintro x ⟨⟩; exact hp)
        · rw [update_of_disjoint hw.1 hcc h₁ h₂]
          split_ifs <;> (rintro x ⟨⟩; exact hp.common hpc hcc.1)

theorem Wf.update (hw : n.Wf) (hcc : cidr.Canonical) : (n.update cidr v).Wf := by
  induction n with
  | nil => exact wf_leaf hcc
  | node c c0 c1 d ih0 ih1 =>
    obtain ⟨hc, hd, h0, h1, hw0, hw1⟩ := hw
    have hw : (V4Node.node c c0 c1 d).Wf := ⟨hc, hd, h0, h1, hw0, hw1⟩
    by_cases hne : c = cidr
    · subst hne
      rw [update_self]
      exact ⟨hc, by simp, h0, h1, hw0, hw1⟩
    · by_cases h₁ : c.Contains cidr
      · -- the new CIDR goes down on its side
        have hlt := h₁.lt_of_ne hc hcc hne
        rw [update_of_contains hc h₁ hne]
        split_ifs with hb
        · exact ⟨hc, fun h => ⟨update_ne_nil _, (hd h).2⟩,
            below_update hw0 hcc h0 ⟨hlt, h₁, hb⟩, h1, ih0 hw0, hw1⟩
        · have hb1 : c.childIdx cidr.addr = 1 := by
            have := V4CIDR.childIdx_le_one (p := c) (a := cidr.addr) (by have := hcc.1; omega)
            omega
          exact ⟨hc, fun h => ⟨(hd h).1, update_ne_nil _⟩, h0,
            below_update hw1 hcc h1 ⟨hlt, h₁, hb1⟩, hw0, ih1 hw1⟩
      · by_cases h₂ : cidr.Contains c
        · -- the node goes below the new CIDR
          have hlt := h₂.lt_of_ne hcc hc (Ne.symm hne)
          rw [update_of_contained hc hcc h₂ hne]
          split_ifs with hb
          · exact ⟨hcc, by simp, forall_mem_cidr?_node.mpr ⟨hlt, h₂, hb⟩,
              forall_mem_cidr?_nil _, hw, trivial⟩
          · have hb1 : cidr.childIdx c.addr = 1 := by
              have := V4CIDR.childIdx_le_one (p := cidr) (a := c.addr) (by have := hc.1; omega)
              omega
            exact ⟨hcc, by simp, forall_mem_cidr?_nil _,
              forall_mem_cidr?_node.mpr ⟨hlt, h₂, hb1⟩, trivial, hw⟩
        · -- both go below their common prefix
          obtain ⟨hbc, hbn, hside⟩ := below_of_disjoint hcc hc h₂ h₁
          have h32 := hc.1
          rw [update_of_disjoint hc hcc h₁ h₂]
          split_ifs with hb
          · rw [hb] at hbn
            have hb1 : (v4CommonPrefix cidr c).childIdx cidr.addr = 1 := by
              have := V4CIDR.childIdx_le_one (p := v4CommonPrefix cidr c) (a := cidr.addr)
                (by have := hbn.1; omega)
              omega
            rw [hb1] at hbc
            exact ⟨canonical_v4CommonPrefix, fun _ => ⟨by simp, by simp⟩,
              forall_mem_cidr?_node.mpr hbn, forall_mem_cidr?_node.mpr hbc, hw, wf_leaf hcc⟩
          · have hb1 : (v4CommonPrefix cidr c).childIdx c.addr = 1 := by
              have := V4CIDR.childIdx_le_one (p := v4CommonPrefix cidr c) (a := c.addr)
                (by have := hbn.1; omega)
              omega
            rw [hb1] at hbn
            have hb0 : (v4CommonPrefix cidr c).childIdx cidr.addr = 0 := by
              have := V4CIDR.childIdx_le_one (p := v4CommonPrefix cidr c) (a := cidr.addr)
                (by have := hbn.1; omega)
              omega
            rw [hb0] at hbc
            exact ⟨canonical_v4CommonPrefix, fun _ => ⟨by simp, by simp⟩,
              forall_mem_cidr?_node.mpr hbc, forall_mem_cidr?_node.mpr hbn, wf_leaf hcc, hw⟩

/-- No node under a node that does not contain `cidr` is at `cidr`. -/
theorem Wf.ne_of_not_contains (hw : (V4Node.node c c0 c1 d).Wf) (h : ¬c.Contains cidr) :
    ∀ x ∈ (V4Node.node c c0 c1 d).cidrs, x ≠ cidr := by
  rintro x hx rfl
  exact h (hw.contains x hx)

theorem entry_eq_iff {e : V4TrieEntry α} : e = ⟨cidr, v⟩ ↔ e.cidr = cidr ∧ e.data = v := by
  cases e
  simp

theorem cidr_ne_of_mem_entries (h : ∀ x ∈ n.cidrs, x ≠ cidr) {e : V4TrieEntry α}
    (he : e ∈ n.entries) : e.cidr ≠ cidr :=
  h _ (cidr_mem_cidrs he)

/-- `Update` sets the entry at its CIDR and keeps the others. -/
theorem mem_entries_update (hw : n.Wf) (hcc : cidr.Canonical) {e : V4TrieEntry α} :
    e ∈ (n.update cidr v).entries ↔ e = ⟨cidr, v⟩ ∨ (e ∈ n.entries ∧ e.cidr ≠ cidr) := by
  induction n with
  | nil => simp [update, entries_node]
  | node c c0 c1 d ih0 ih1 =>
    obtain ⟨hc, hd, h0, h1, hw0, hw1⟩ := hw
    have hw : (V4Node.node c c0 c1 d).Wf := ⟨hc, hd, h0, h1, hw0, hw1⟩
    by_cases hne : c = cidr
    · -- only the data of this node changes
      subst hne
      have hn0 := cidr_ne_of_mem_entries (e := e) fun x hx =>
        hw.ne_of_mem_children x (List.mem_append_left c1.cidrs hx)
      have hn1 := cidr_ne_of_mem_entries (e := e) fun x hx =>
        hw.ne_of_mem_children x (List.mem_append_right c0.cidrs hx)
      rw [update_self, mem_entries_node, mem_entries_node, entry_eq_iff]
      grind
    · by_cases h₁ : c.Contains cidr
      · -- the change is on one side
        rw [update_of_contains hc h₁ hne]
        split_ifs with hb
        · have hn1 := cidr_ne_of_mem_entries (e := e) (hw.ne_of_mem_child1 hb)
          rw [mem_entries_node, ih0 hw0, mem_entries_node]
          grind
        · have hn0 := cidr_ne_of_mem_entries (e := e) (hw.ne_of_mem_child0 hb)
          rw [mem_entries_node, ih1 hw1, mem_entries_node]
          grind
      · -- the new CIDR is at no node of the trie
        have hn := cidr_ne_of_mem_entries (e := e) (hw.ne_of_not_contains h₁)
        rw [mem_entries_node] at hn
        by_cases h₂ : cidr.Contains c
        · rw [update_of_contained hc hcc h₂ hne]
          split_ifs <;> simp only [mem_entries_node, entries_nil, List.not_mem_nil, or_false,
            false_or, entry_eq_iff, Option.some.injEq] <;> grind
        · rw [update_of_disjoint hc hcc h₁ h₂]
          split_ifs <;> simp only [mem_entries_node, entries_nil, List.not_mem_nil, or_false,
            false_or, entry_eq_iff, Option.some.injEq, reduceCtorEq, and_false] <;> grind

end Update

/-! ## `Delete` -/

section Delete

theorem isNil_iff : n.isNil = true ↔ n = .nil := by
  cases n <;> simp [isNil]

theorem mem_cidrs_of_mem_cidr? (h : x ∈ n.cidr?) : x ∈ n.cidrs := by
  cases n with
  | nil => cases h
  | node c c0 c1 d =>
    cases h
    exact List.mem_cons_self

/-- What takes the place of a node after `deleteInternal` is a node from under it. -/
theorem mem_cidrs_of_mem_cidr?_deleteInternal (h : x ∈ (n.deleteInternal cidr).cidr?) :
    x ∈ n.cidrs := by
  cases n with
  | nil => cases h
  | node c c0 c1 d =>
    have h0 : ∀ y ∈ c0.cidr?, y ∈ (V4Node.node c c0 c1 d).cidrs := fun y hy =>
      List.mem_cons_of_mem _ (List.mem_append_left _ (mem_cidrs_of_mem_cidr? hy))
    have h1 : ∀ y ∈ c1.cidr?, y ∈ (V4Node.node c c0 c1 d).cidrs := fun y hy =>
      List.mem_cons_of_mem _ (List.mem_append_right _ (mem_cidrs_of_mem_cidr? hy))
    rw [deleteInternal] at h
    split_ifs at h <;> first
      | exact h0 x h
      | exact h1 x h
      | (cases h; exact List.mem_cons_self)

theorem below_deleteInternal (hw : n.Wf) (hn : ∀ x ∈ n.cidr?, p.Below b x) :
    ∀ x ∈ (n.deleteInternal cidr).cidr?, p.Below b x :=
  fun x hx => hw.below hn x (mem_cidrs_of_mem_cidr?_deleteInternal hx)

theorem Wf.deleteInternal (hw : n.Wf) : (n.deleteInternal cidr).Wf := by
  induction n with
  | nil => trivial
  | node c c0 c1 d ih0 ih1 =>
    obtain ⟨hc, hd, h0, h1, hw0, hw1⟩ := hw
    have hw : (V4Node.node c c0 c1 d).Wf := ⟨hc, hd, h0, h1, hw0, hw1⟩
    rw [V4Node.deleteInternal]
    split_ifs with hcon hc' hn0 hn1 hb hn0 hdel hn1 hdel
    · exact hw
    · exact hw1
    · exact hw0
    · -- the node stays without data, joining its two children
      exact ⟨hc, fun _ => ⟨mt isNil_iff.mpr hn0, mt isNil_iff.mpr hn1⟩, h0, h1, hw0, hw1⟩
    · exact hw
    · exact hw1
    · simp only [Bool.and_eq_true, not_and] at hdel
      exact ⟨hc, fun h => ⟨mt isNil_iff.mpr (mt hdel (by simp [h])), (hd h).2⟩,
        below_deleteInternal hw0 h0, h1, ih0 hw0, hw1⟩
    · exact hw
    · exact hw0
    · simp only [Bool.and_eq_true, not_and] at hdel
      exact ⟨hc, fun h => ⟨(hd h).1, mt isNil_iff.mpr (mt hdel (by simp [h]))⟩, h0,
        below_deleteInternal hw1 h1, hw0, ih1 hw1⟩

/-- `deleteInternal` removes the entry at its CIDR and keeps the others. -/
theorem mem_entries_deleteInternal (hw : n.Wf) {e : V4TrieEntry α} :
    e ∈ (n.deleteInternal cidr).entries ↔ e ∈ n.entries ∧ e.cidr ≠ cidr := by
  induction n with
  | nil => simp [V4Node.deleteInternal]
  | node c c0 c1 d ih0 ih1 =>
    obtain ⟨hc, hd, h0, h1, hw0, hw1⟩ := hw
    have hw : (V4Node.node c c0 c1 d).Wf := ⟨hc, hd, h0, h1, hw0, hw1⟩
    rw [V4Node.deleteInternal]
    split_ifs with hcon hc' hn0 hn1 hb hn0 hdel hn1 hdel
    · -- `cidr` is not under this node
      have hn := cidr_ne_of_mem_entries (e := e)
        (hw.ne_of_containsV4 (by simpa using hcon))
      grind
    · -- this node goes, and with it the slot of its nil child
      subst hc'
      rw [isNil_iff.mp hn0, mem_entries_node, entries_nil]
      have hn1 := cidr_ne_of_mem_entries (e := e) fun x hx =>
        hw.ne_of_mem_children x (List.mem_append_right c0.cidrs hx)
      grind
    · subst hc'
      rw [isNil_iff.mp hn1, mem_entries_node, entries_nil]
      have hn0 := cidr_ne_of_mem_entries (e := e) fun x hx =>
        hw.ne_of_mem_children x (List.mem_append_left c1.cidrs hx)
      grind
    · subst hc'
      have hn0 := cidr_ne_of_mem_entries (e := e) fun x hx =>
        hw.ne_of_mem_children x (List.mem_append_left c1.cidrs hx)
      have hn1 := cidr_ne_of_mem_entries (e := e) fun x hx =>
        hw.ne_of_mem_children x (List.mem_append_right c0.cidrs hx)
      rw [mem_entries_node, mem_entries_node]
      grind
    · -- the walk runs off the trie: nothing is at `cidr`
      rw [isNil_iff.mp hn0] at hw ⊢
      have hn1 := cidr_ne_of_mem_entries (e := e) (hw.ne_of_mem_child1 hb)
      rw [mem_entries_node, entries_nil]
      grind
    · -- the child was all there was below a node without data
      simp only [Bool.and_eq_true, isNil_iff, Option.isNone_iff_eq_none] at hdel
      have hgone := ih0 hw0
      rw [hdel.1, entries_nil] at hgone
      have hn1 := cidr_ne_of_mem_entries (e := e) (hw.ne_of_mem_child1 hb)
      rw [mem_entries_node, hdel.2]
      grind
    · have hn1 := cidr_ne_of_mem_entries (e := e) (hw.ne_of_mem_child1 hb)
      rw [mem_entries_node, ih0 hw0, mem_entries_node]
      grind
    · rw [isNil_iff.mp hn1] at hw ⊢
      have hn0 := cidr_ne_of_mem_entries (e := e) (hw.ne_of_mem_child0 hb)
      rw [mem_entries_node, entries_nil]
      grind
    · simp only [Bool.and_eq_true, isNil_iff, Option.isNone_iff_eq_none] at hdel
      have hgone := ih1 hw1
      rw [hdel.1, entries_nil] at hgone
      have hn0 := cidr_ne_of_mem_entries (e := e) (hw.ne_of_mem_child0 hb)
      rw [mem_entries_node, hdel.2]
      grind
    · have hn0 := cidr_ne_of_mem_entries (e := e) (hw.ne_of_mem_child0 hb)
      rw [mem_entries_node, ih1 hw1, mem_entries_node]
      grind

end Delete

end V4Node

/-! ## The trie -/

namespace V4Trie

variable {α : Type u} {t : V4Trie α} {cidr : V4CIDR} {v : α} {e : V4TrieEntry α}

theorem Wf.update (hw : t.root.Wf) (hcc : cidr.Canonical) : (t.update cidr v).root.Wf :=
  V4Node.Wf.update hw hcc

theorem mem_entries_update (hw : t.root.Wf) (hcc : cidr.Canonical) :
    e ∈ (t.update cidr v).root.entries ↔ e = ⟨cidr, v⟩ ∨ (e ∈ t.root.entries ∧ e.cidr ≠ cidr) :=
  V4Node.mem_entries_update hw hcc

theorem Wf.delete (hw : t.root.Wf) : (t.delete cidr).root.Wf := by
  obtain ⟨root⟩ := t
  cases root with
  | nil => exact hw
  | node c c0 c1 d =>
    simp only [delete]
    split_ifs
    · exact hw
    · exact V4Node.Wf.deleteInternal hw

/-- `Delete` removes the entry at its CIDR and keeps the others. -/
theorem mem_entries_delete (hw : t.root.Wf) :
    e ∈ (t.delete cidr).root.entries ↔ e ∈ t.root.entries ∧ e.cidr ≠ cidr := by
  obtain ⟨root⟩ := t
  cases root with
  | nil => simp [delete]
  | node c c0 c1 d =>
    simp only [delete]
    split_ifs with hroot
    · -- the root does not contain `cidr`, so nothing is at it
      have hn := V4Node.cidr_ne_of_mem_entries (e := e) fun x hx hxc => by
        subst hxc
        exact hroot ((V4CIDR.v4CommonPrefix_eq_left_iff hw.1).mpr (hw.contains _ hx))
      grind
    · exact V4Node.mem_entries_deleteInternal hw

end V4Trie

end Felix.Ip
