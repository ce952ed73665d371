import Felix.Iptree.IPTree
import Mathlib

/-!
# The IP tree denotes a set, and its covering CIDRs list it

A node at depth `d` holds the addresses whose bits from `d` on lead from it to `all`
(`Node.Mem`); bits past an address's end read as zeros. `add` adds the addresses that agree with
the CIDR's prefix bits (`mem_add`), `intersectNodes` holds the addresses both nodes hold and
`subtractNodes` those of the first that the second does not (`mem_intersectNodes`,
`mem_subtractNodes`).

The CIDRs `addCoveringCIDRs` lists below a node are those of the paths from it to `all`
(`mem_addCoveringCIDRs`), padded with zeros: canonical when the tree is no deeper than the
address width, disjoint since no such path extends another, and together holding what the node
holds. Two of them are the halves of one prefix only when a node has two `all` children. `add`
and `subtractNodes` never leave such a node, nor a node with two `nil` children (`Reduced`), but
`intersectNodes` can leave the second, and `subtractNodes` from `all` turns it into the first.

## Main definitions

* `Node.Mem`, `CIDR.Contains`, `AgreesAt`, `Node.AllAt`, `pathCIDR`, `Node.height`,
  `Node.Reduced`
* `CIDR.Canonical`, `CIDR.Disjoint`, `CIDR.Siblings`
* `Build`, `Build.tree`, `Build.Denotes`
-/

namespace Felix.Iptree

open Node

/-! ## What a node holds -/

/-- The addresses the node at depth `d` holds: all of them at `all`, none at `nil`, and at a
node those its child of the address's bit `d` holds at depth `d + 1`. -/
def Node.Mem : Node → List Bool → ℕ → Prop
  | nil, _, _ => False
  | all, _, _ => True
  | node child0 child1, a, d =>
    if a.getD d false then child1.Mem a (d + 1) else child0.Mem a (d + 1)
attribute [grind] Node.Mem

/-- The address agrees with `bits` from its bit `d` on. -/
def AgreesAt (bits a : List Bool) (d : ℕ) : Prop :=
  ∀ i < bits.length, a.getD (d + i) false = bits.getD i false

/-- The CIDR holds the address: they agree on the prefix's bits. -/
def CIDR.Contains (c : CIDR) (a : List Bool) : Prop :=
  ∀ i < c.prefixLen, a.getD i false = c.addr.getD i false

@[simp]
theorem mem_nil {a : List Bool} {d : ℕ} : ¬ nil.Mem a d := by
  simp [Node.Mem]

@[simp]
theorem mem_all {a : List Bool} {d : ℕ} : all.Mem a d := by
  simp [Node.Mem]

theorem mem_node {c0 c1 : Node} {a : List Bool} {d : ℕ} :
    (node c0 c1).Mem a d ↔ (if a.getD d false then c1 else c0).Mem a (d + 1) := by
  show (if a.getD d false then c1.Mem a (d + 1) else c0.Mem a (d + 1)) ↔ _
  split_ifs <;> rfl

/-- A node other than `all` holds what its child of the address's bit holds. -/
theorem mem_of_ne_all {n : Node} (h : n ≠ all) {a : List Bool} {d : ℕ} :
    n.Mem a d ↔ (if a.getD d false then n.children.2 else n.children.1).Mem a (d + 1) := by
  cases n with
  | nil => simp [children]
  | all => exact absurd rfl h
  | node c0 c1 => exact mem_node

@[simp]
theorem agreesAt_nil {a : List Bool} {d : ℕ} : AgreesAt [] a d := fun _ h => absurd h (by simp)

theorem agreesAt_cons {b : Bool} {bits a : List Bool} {d : ℕ} :
    AgreesAt (b :: bits) a d ↔ a.getD d false = b ∧ AgreesAt bits a (d + 1) := by
  constructor
  · intro h
    refine ⟨by simpa using h 0 (by simp), fun i hi => ?_⟩
    have := h (i + 1) (by simp; omega)
    rwa [show d + (i + 1) = d + 1 + i by omega] at this
  · rintro ⟨h0, h⟩ i hi
    cases i with
    | zero => simpa using h0
    | succ i =>
      have := h i (by simpa using hi)
      rwa [show d + 1 + i = d + (i + 1) by omega] at this

theorem agreesAt_append {p q a : List Bool} {d : ℕ} :
    AgreesAt (p ++ q) a d ↔ AgreesAt p a d ∧ AgreesAt q a (d + p.length) := by
  induction p generalizing d with
  | nil => simp
  | cons b p ih =>
    rw [List.cons_append, agreesAt_cons, agreesAt_cons, ih, List.length_cons,
      show d + 1 + p.length = d + (p.length + 1) by omega, and_assoc]

/-- A valid CIDR holds the addresses that agree with its prefix bits. -/
theorem contains_iff_agreesAt {c : CIDR} (h : c.prefixLen ≤ c.addr.length) {a : List Bool} :
    c.Contains a ↔ AgreesAt (c.addr.take c.prefixLen) a 0 := by
  unfold CIDR.Contains AgreesAt
  have hlen : (c.addr.take c.prefixLen).length = c.prefixLen := by simp [h]
  rw [hlen]
  refine forall₂_congr fun i hi => ?_
  simp only [Nat.zero_add, List.getD_eq_getElem?_getD, List.getElem?_take, if_pos hi]

/-! ## The operations -/

theorem copy_eq (n : Node) : n.copy = n := by
  induction n with
  | nil => rfl
  | all => rfl
  | node c0 c1 ih0 ih1 => rw [copy, ih0, ih1]

/-- The node `add` leaves: `all` when both children are, else a node. -/
theorem mem_collapse {c0 c1 : Node} {a : List Bool} {d : ℕ} :
    (if c0 = all ∧ c1 = all then all else node c0 c1).Mem a d ↔ (node c0 c1).Mem a d := by
  split_ifs with h
  · obtain ⟨rfl, rfl⟩ := h
    simp [mem_node]
  · rfl

/-- A step of `add` below a node other than `all`. -/
theorem add_cons {n : Node} (h : n ≠ all) (b : Bool) (bits : List Bool) :
    n.add (b :: bits) =
      if (if b then n.children.1 else n.children.1.add bits) = all ∧
          (if b then n.children.2.add bits else n.children.2) = all then all
      else node (if b then n.children.1 else n.children.1.add bits)
        (if b then n.children.2.add bits else n.children.2) := by
  cases n with
  | nil => rfl
  | all => exact absurd rfl h
  | node c0 c1 => rfl

/-- **`add` adds a CIDR**: afterwards the node also holds every address that agrees with the
bits. The induction is on the bits, with the node and the depth generalized. -/
theorem mem_add (n : Node) (bits : List Bool) (a : List Bool) (d : ℕ) :
    (n.add bits).Mem a d ↔ n.Mem a d ∨ AgreesAt bits a d := by
  induction bits generalizing n d with
  | nil => simp [add]
  | cons b bits ih =>
    by_cases hall : n = all
    · subst hall
      simp [add]
    · rw [add_cons hall, mem_collapse, mem_node, mem_of_ne_all hall, agreesAt_cons]
      -- the walk goes on in the child of bit `b`; the other child is left as it was
      cases hb : a.getD d false <;> cases b <;> simp [ih]

/-- `subtractNodes` leaves `nil` for a node with two `nil` children. -/
theorem mem_subtractResult {c0 c1 : Node} {a : List Bool} {d : ℕ} :
    (subtractResult c0 c1).Mem a d ↔ (node c0 c1).Mem a d := by
  unfold subtractResult
  split_ifs with h
  · obtain ⟨rfl, rfl⟩ := h
    simp [mem_node]
  · rfl

/-- **`intersectNodes` holds what both nodes hold.** -/
theorem mem_intersectNodes (p q : Node) :
    ∀ (a : List Bool) (d : ℕ), (intersectNodes p q).Mem a d ↔ p.Mem a d ∧ q.Mem a d := by
  fun_induction intersectNodes p q with
  | case1 => simp
  | case2 => simp
  | case3 => simp
  | case4 => simp [copy_eq]
  | case5 => simp [copy_eq]
  | case6 a0 a1 b0 b1 ih0 ih1 =>
    intro a d
    simp only [mem_node]
    cases a.getD d false <;> simp [ih0, ih1]

/-- **`subtractNodes` holds what the first node holds and the second does not.** -/
theorem mem_subtractNodes (p q : Node) :
    ∀ (a : List Bool) (d : ℕ), (subtractNodes p q).Mem a d ↔ p.Mem a d ∧ ¬ q.Mem a d := by
  fun_induction subtractNodes p q with
  | case1 => simp
  | case2 => simp [copy_eq]
  | case3 => simp
  | case4 b0 b1 ih0 ih1 =>
    intro a d
    simp only [mem_subtractResult, mem_node]
    cases a.getD d false <;> simp [ih0, ih1]
  | case5 a0 a1 b0 b1 ih0 ih1 =>
    intro a d
    simp only [mem_subtractResult, mem_node]
    cases a.getD d false <;> simp [ih0, ih1]

/-! ## The covering CIDRs -/

/-- The CIDR of a path from the root: its bits, padded with zeros to the width. -/
def pathCIDR (width : ℕ) (path : List Bool) : CIDR :=
  ⟨path ++ List.replicate (width - path.length) false, path.length⟩
attribute [grind] pathCIDR

/-- The paths from a node to an `all` below it. -/
def Node.AllAt : Node → List Bool → Prop
  | all, [] => True
  | node child0 _, false :: q => child0.AllAt q
  | node _ child1, true :: q => child1.AllAt q
  | _, _ => False
attribute [grind] Node.AllAt

theorem allAt_node {c0 c1 : Node} {b : Bool} {q : List Bool} :
    (node c0 c1).AllAt (b :: q) ↔ (if b then c1 else c0).AllAt q := by
  cases b <;> rfl

section Covering

variable (width : ℕ)

theorem addCoveringCIDRs_append (n : Node) :
    ∀ (path : List Bool) (cidrs : List CIDR),
      n.addCoveringCIDRs width path cidrs = cidrs ++ n.addCoveringCIDRs width path [] := by
  induction n with
  | nil => simp [addCoveringCIDRs]
  | all => simp [addCoveringCIDRs]
  | node c0 c1 ih0 ih1 =>
    intro path cidrs
    simp only [addCoveringCIDRs]
    rw [ih1 _ (c0.addCoveringCIDRs _ _ cidrs), ih0, ih1 _ (c0.addCoveringCIDRs _ _ []),
      List.append_assoc]

/-- A node lists the CIDRs of its first child, then those of its second. -/
theorem addCoveringCIDRs_node (c0 c1 : Node) (path : List Bool) :
    (node c0 c1).addCoveringCIDRs width path [] =
      c0.addCoveringCIDRs width (path ++ [false]) [] ++
        c1.addCoveringCIDRs width (path ++ [true]) [] := by
  rw [addCoveringCIDRs, addCoveringCIDRs_append]

/-- **The CIDRs below a node are those of its paths to `all`.** -/
theorem mem_addCoveringCIDRs (n : Node) :
    ∀ (path : List Bool) (c : CIDR),
      c ∈ n.addCoveringCIDRs width path [] ↔
        ∃ q, n.AllAt q ∧ c = pathCIDR width (path ++ q) := by
  induction n with
  | nil => simp [addCoveringCIDRs, Node.AllAt]
  | all =>
    intro path c
    constructor
    · intro h
      exact ⟨[], trivial, by simpa [addCoveringCIDRs, pathCIDR] using h⟩
    · rintro ⟨q, hq, rfl⟩
      cases q with
      | nil => simp [addCoveringCIDRs, pathCIDR]
      | cons b q => exact absurd hq id
  | node c0 c1 ih0 ih1 =>
    intro path c
    rw [addCoveringCIDRs_node, List.mem_append, ih0, ih1]
    constructor
    · rintro (⟨q, hq, rfl⟩ | ⟨q, hq, rfl⟩)
      · exact ⟨false :: q, hq, by simp⟩
      · exact ⟨true :: q, hq, by simp⟩
    · rintro ⟨q, hq, rfl⟩
      cases q with
      | nil => exact absurd hq id
      | cons b q =>
        cases b
        · exact .inl ⟨q, hq, by simp⟩
        · exact .inr ⟨q, hq, by simp⟩

theorem contains_pathCIDR {path a : List Bool} :
    (pathCIDR width path).Contains a ↔ AgreesAt path a 0 := by
  unfold CIDR.Contains AgreesAt pathCIDR
  refine forall₂_congr fun i hi => ?_
  simp only [Nat.zero_add, List.getD_eq_getElem?_getD, List.getElem?_append_left hi]

/-- A node holds an address exactly when the address follows one of its paths to `all`. -/
theorem mem_iff_exists_allAt (n : Node) :
    ∀ (a : List Bool) (d : ℕ), n.Mem a d ↔ ∃ q, n.AllAt q ∧ AgreesAt q a d := by
  induction n with
  | nil => simp [Node.AllAt]
  | all =>
    intro a d
    refine ⟨fun _ => ⟨[], trivial, agreesAt_nil⟩, fun _ => mem_all⟩
  | node c0 c1 ih0 ih1 =>
    intro a d
    have ih : ∀ b : Bool, (if b then c1 else c0).Mem a (d + 1) ↔
        ∃ q, (if b then c1 else c0).AllAt q ∧ AgreesAt q a (d + 1) := by
      intro b
      cases b
      · exact ih0 a (d + 1)
      · exact ih1 a (d + 1)
    rw [mem_node, ih]
    constructor
    · rintro ⟨q, hq, hagree⟩
      exact ⟨a.getD d false :: q, allAt_node.mpr hq, agreesAt_cons.mpr ⟨rfl, hagree⟩⟩
    · rintro ⟨q, hq, hagree⟩
      cases q with
      | nil => exact absurd hq id
      | cons b q =>
        obtain ⟨hb, hagree⟩ := agreesAt_cons.mp hagree
        rw [hb]
        exact ⟨q, allAt_node.mp hq, hagree⟩

/-- **The covering CIDRs hold what the node holds**, below the path. -/
theorem exists_contains_iff (n : Node) (path a : List Bool) :
    (∃ c ∈ n.addCoveringCIDRs width path [], c.Contains a) ↔
      AgreesAt path a 0 ∧ n.Mem a path.length := by
  rw [mem_iff_exists_allAt]
  constructor
  · rintro ⟨c, hc, hcontains⟩
    obtain ⟨q, hq, rfl⟩ := (mem_addCoveringCIDRs width n path c).mp hc
    obtain ⟨hpath, hq'⟩ := agreesAt_append.mp ((contains_pathCIDR width).mp hcontains)
    exact ⟨hpath, q, hq, by simpa using hq'⟩
  · rintro ⟨hpath, q, hq, hagree⟩
    refine ⟨pathCIDR width (path ++ q),
      (mem_addCoveringCIDRs width n path _).mpr ⟨q, hq, rfl⟩,
      (contains_pathCIDR width).mpr (agreesAt_append.mpr ⟨hpath, by simpa using hagree⟩)⟩

/-- A CIDR below the child of bit `b` holds only addresses with that bit. -/
theorem getD_of_mem_addCoveringCIDRs {child : Node} {path a : List Bool} {b : Bool} {c : CIDR}
    (hc : c ∈ child.addCoveringCIDRs width (path ++ [b]) []) (ha : c.Contains a) :
    a.getD path.length false = b := by
  obtain ⟨q, -, rfl⟩ := (mem_addCoveringCIDRs width child _ c).mp hc
  have h := (agreesAt_append.mp ((contains_pathCIDR width).mp ha)).1
  have h' := (agreesAt_append.mp h).2
  rw [agreesAt_cons] at h'
  simpa using h'.1

/-- Two CIDRs hold no address in common. -/
def CIDR.Disjoint (c₁ c₂ : CIDR) : Prop := ∀ a, ¬ (c₁.Contains a ∧ c₂.Contains a)

/-- **The covering CIDRs are pairwise disjoint**: those below the two children of a node
differ on the node's bit. -/
theorem pairwise_disjoint_addCoveringCIDRs (n : Node) :
    ∀ path : List Bool, (n.addCoveringCIDRs width path []).Pairwise CIDR.Disjoint := by
  induction n with
  | nil => simp [addCoveringCIDRs]
  | all => simp [addCoveringCIDRs]
  | node c0 c1 ih0 ih1 =>
    intro path
    rw [addCoveringCIDRs_node, List.pairwise_append]
    refine ⟨ih0 _, ih1 _, fun x hx y hy a ⟨hxa, hya⟩ => ?_⟩
    have h0 := getD_of_mem_addCoveringCIDRs width hx hxa
    have h1 := getD_of_mem_addCoveringCIDRs width hy hya
    rw [h0] at h1
    exact Bool.false_ne_true h1

end Covering

/-! ## Canonical CIDRs -/

/-- The depth of a node's deepest descendant. -/
def Node.height : Node → ℕ
  | nil | all => 0
  | node child0 child1 => max child0.height child1.height + 1
attribute [grind] Node.height

/-- A canonical CIDR of the width: its address has the width's bits, and those past the prefix
are zero. -/
def CIDR.Canonical (width : ℕ) (c : CIDR) : Prop :=
  c.addr.length = width ∧ c.prefixLen ≤ width ∧
    ∀ i, c.prefixLen ≤ i → c.addr.getD i false = false

theorem length_le_height_of_allAt (n : Node) :
    ∀ q : List Bool, n.AllAt q → q.length ≤ n.height := by
  induction n with
  | nil => intro q hq; cases q <;> exact absurd hq id
  | all =>
    intro q hq
    cases q with
    | nil => exact Nat.le_refl 0
    | cons b q => exact absurd hq id
  | node c0 c1 ih0 ih1 =>
    intro q hq
    cases q with
    | nil => exact absurd hq id
    | cons b q =>
      rw [allAt_node] at hq
      simp only [height, List.length_cons]
      cases b
      · have := ih0 q (by simpa using hq)
        omega
      · have := ih1 q (by simpa using hq)
        omega

/-- A path no longer than the width has a canonical CIDR. -/
theorem canonical_pathCIDR {width : ℕ} {path : List Bool} (h : path.length ≤ width) :
    (pathCIDR width path).Canonical width := by
  refine ⟨by simp [pathCIDR]; omega, h, fun i hi => ?_⟩
  simp only [pathCIDR] at hi ⊢
  rw [List.getD_eq_getElem?_getD, List.getElem?_append_right hi, List.getElem?_replicate]
  split <;> rfl

theorem height_children_add_one_le {n : Node} (h : n ≠ all) :
    n.children.1.height + 1 ≤ max n.height 1 ∧ n.children.2.height + 1 ≤ max n.height 1 := by
  cases n with
  | nil => simp [children, height]
  | all => exact absurd rfl h
  | node c0 c1 => simp only [children, height]; omega

theorem height_collapse_le (c0 c1 : Node) :
    (if c0 = all ∧ c1 = all then all else node c0 c1).height ≤ (node c0 c1).height := by
  split_ifs <;> simp [height]

/-- `add` goes no deeper than the tree and the CIDR's bits. -/
theorem height_add (n : Node) (bits : List Bool) :
    (n.add bits).height ≤ max n.height bits.length := by
  induction bits generalizing n with
  | nil => simp [add, height]
  | cons b bits ih =>
    by_cases hall : n = all
    · subst hall
      simp [add, height]
    · rw [add_cons hall]
      refine Nat.le_trans (height_collapse_le _ _) ?_
      have hc := height_children_add_one_le hall
      have h0 := ih n.children.1
      have h1 := ih n.children.2
      simp only [height, List.length_cons]
      cases b <;> simp only [if_true, Bool.false_eq_true, if_false] <;> omega

theorem height_subtractResult_le (c0 c1 : Node) :
    (subtractResult c0 c1).height ≤ (node c0 c1).height := by
  unfold subtractResult
  split_ifs <;> simp [height]

theorem height_intersectNodes (p q : Node) :
    (intersectNodes p q).height ≤ max p.height q.height := by
  fun_induction intersectNodes p q with
  | case1 => simp [height]
  | case2 => simp [height]
  | case3 => simp [height]
  | case4 => simp [copy_eq, height]
  | case5 => simp [copy_eq, height]
  | case6 a0 a1 b0 b1 ih0 ih1 =>
    simp only [height]
    omega

theorem height_subtractNodes (p q : Node) :
    (subtractNodes p q).height ≤ max p.height q.height := by
  fun_induction subtractNodes p q with
  | case1 => simp [height]
  | case2 => simp [copy_eq, height]
  | case3 => simp [height]
  | case4 b0 b1 ih0 ih1 =>
    refine Nat.le_trans (height_subtractResult_le _ _) ?_
    simp only [height] at ih0 ih1 ⊢
    omega
  | case5 a0 a1 b0 b1 ih0 ih1 =>
    refine Nat.le_trans (height_subtractResult_le _ _) ?_
    simp only [height]
    omega

/-! ## Reduced trees -/

/-- No node has two `all` children, nor two `nil` ones. -/
def Node.Reduced : Node → Prop
  | nil | all => True
  | node child0 child1 => child0.Reduced ∧ child1.Reduced ∧
      ¬ (child0 = all ∧ child1 = all) ∧
      ¬ (child0 = nil ∧ child1 = nil)

theorem add_ne_nil (n : Node) (bits : List Bool) : n.add bits ≠ nil := by
  cases bits with
  | nil => simp [add]
  | cons b bits =>
    by_cases hall : n = all
    · subst hall
      simp [add]
    · rw [add_cons hall]
      split_ifs <;> simp

theorem reduced_children {n : Node} (h : n.Reduced) :
    n.children.1.Reduced ∧ n.children.2.Reduced := by
  cases n with
  | nil => exact ⟨trivial, trivial⟩
  | all => exact ⟨trivial, trivial⟩
  | node c0 c1 => exact ⟨h.1, h.2.1⟩

/-- **`add` keeps a tree reduced**: the child it walks into is never `nil` afterwards, and a node
with two `all` children becomes `all`. -/
theorem reduced_add (n : Node) (bits : List Bool) (h : n.Reduced) : (n.add bits).Reduced := by
  induction bits generalizing n with
  | nil => simp [add, Node.Reduced]
  | cons b bits ih =>
    by_cases hall : n = all
    · subst hall
      simp [add, Node.Reduced]
    · rw [add_cons hall]
      obtain ⟨hc0, hc1⟩ := reduced_children h
      -- the bit picks the child that is added to; the other is kept
      cases b <;> simp only [Bool.false_eq_true, if_false, if_true] <;> split_ifs with hboth
      · trivial
      · exact ⟨ih _ hc0, hc1, hboth, fun h' => add_ne_nil _ _ h'.1⟩
      · trivial
      · exact ⟨hc0, ih _ hc1, hboth, fun h' => add_ne_nil _ _ h'.2⟩

/-- `subtractNodes` leaves `all` only for `all` less `nil`. -/
theorem eq_all_of_subtractNodes_eq_all (p q : Node) :
    subtractNodes p q = all → p = all ∧ q = nil := by
  fun_induction subtractNodes p q with
  | case1 => simp
  | case2 a ha => simp [copy_eq]
  | case3 => simp
  | case4 => unfold subtractResult; split_ifs <;> simp
  | case5 => unfold subtractResult; split_ifs <;> simp

/-- **`subtractNodes` keeps trees reduced**: a node with two `all` children would need two `nil`
children in the second tree, or two `all` ones in the first. -/
theorem reduced_subtractNodes (p q : Node) :
    p.Reduced → q.Reduced → (subtractNodes p q).Reduced := by
  fun_induction subtractNodes p q with
  | case1 => intros; trivial
  | case2 => intro hp _; rwa [copy_eq]
  | case3 => intros; trivial
  | case4 b0 b1 ih0 ih1 =>
    intro _ hq
    obtain ⟨hb0, hb1, -, hbnil⟩ := hq
    unfold subtractResult
    split_ifs with hnil
    · trivial
    · refine ⟨ih0 trivial hb0, ih1 trivial hb1, fun ⟨h0, h1⟩ => hbnil ⟨?_, ?_⟩, hnil⟩
      · exact (eq_all_of_subtractNodes_eq_all _ _ h0).2
      · exact (eq_all_of_subtractNodes_eq_all _ _ h1).2
  | case5 a0 a1 b0 b1 ih0 ih1 =>
    intro hp hq
    obtain ⟨ha0, ha1, hafull, -⟩ := hp
    unfold subtractResult
    split_ifs with hnil
    · trivial
    · refine ⟨ih0 ha0 hq.1, ih1 ha1 hq.2.1, fun ⟨h0, h1⟩ => hafull ⟨?_, ?_⟩, hnil⟩
      · exact (eq_all_of_subtractNodes_eq_all _ _ h0).1
      · exact (eq_all_of_subtractNodes_eq_all _ _ h1).1

/-! ## Halves of one prefix -/

/-- The two CIDRs are the halves of one prefix: of the same length, one bit longer than it, and
differing only in that bit. -/
def CIDR.Siblings (c₁ c₂ : CIDR) : Prop :=
  ∃ p, c₁.prefixLen = p + 1 ∧ c₂.prefixLen = p + 1 ∧
    (∀ i < p, c₁.addr.getD i false = c₂.addr.getD i false) ∧
    c₁.addr.getD p false ≠ c₂.addr.getD p false

theorem allAt_nil_iff {n : Node} : n.AllAt [] ↔ n = all := by
  cases n with
  | nil => exact ⟨fun h => absurd h id, fun h => nomatch h⟩
  | all => exact ⟨fun _ => rfl, fun _ => trivial⟩
  | node c0 c1 => exact ⟨fun h => absurd h id, fun h => nomatch h⟩

/-- In a reduced tree no two paths to `all` differ only in their last bit: their parent would
have two `all` children. The induction is on the common part of the paths. -/
theorem not_allAt_halves (n : Node) (hn : n.Reduced) :
    ∀ r : List Bool, n.AllAt (r ++ [false]) → n.AllAt (r ++ [true]) → False := by
  induction n with
  | nil => intro r h; cases r <;> exact absurd h id
  | all => intro r h; cases r <;> exact absurd h id
  | node c0 c1 ih0 ih1 =>
    obtain ⟨hc0, hc1, hfull, -⟩ := hn
    intro r h₀ h₁
    cases r with
    | nil => exact hfull ⟨allAt_nil_iff.mp h₀, allAt_nil_iff.mp h₁⟩
    | cons b r =>
      cases b
      · exact ih0 hc0 r h₀ h₁
      · exact ih1 hc1 r h₀ h₁

theorem getD_pathCIDR {width : ℕ} {path : List Bool} {i : ℕ} (hi : i < path.length) :
    (pathCIDR width path).addr.getD i false = path.getD i false := by
  simp only [pathCIDR, List.getD_eq_getElem?_getD, List.getElem?_append_left hi]

/-- Two paths to `all` in a reduced tree never differ in their last bit alone. -/
theorem not_allAt_of_last_ne {n : Node} (hn : n.Reduced) {r : List Bool} {b₁ b₂ : Bool}
    (hb : b₁ ≠ b₂) (h₁ : n.AllAt (r ++ [b₁])) (h₂ : n.AllAt (r ++ [b₂])) : False := by
  cases b₁ <;> cases b₂
  · exact hb rfl
  · exact not_allAt_halves n hn r h₁ h₂
  · exact not_allAt_halves n hn r h₂ h₁
  · exact hb rfl

/-- **In a reduced tree no two covering CIDRs are halves of one prefix.** -/
theorem not_siblings_of_reduced (width : ℕ) {n : Node} (hn : n.Reduced) :
    ∀ c₁ ∈ n.addCoveringCIDRs width [] [], ∀ c₂ ∈ n.addCoveringCIDRs width [] [],
      ¬ c₁.Siblings c₂ := by
  intro c₁ h₁ c₂ h₂ ⟨p, hp₁, hp₂, hagree, hdiff⟩
  obtain ⟨q₁, hq₁, rfl⟩ := (mem_addCoveringCIDRs width n [] c₁).mp h₁
  obtain ⟨q₂, hq₂, rfl⟩ := (mem_addCoveringCIDRs width n [] c₂).mp h₂
  simp only [List.nil_append] at hq₁ hq₂ hp₁ hp₂ hagree hdiff
  -- both paths are `p` bits and one more
  rcases List.eq_nil_or_concat' q₁ with rfl | ⟨r₁, b₁, rfl⟩
  · simp [pathCIDR] at hp₁
  rcases List.eq_nil_or_concat' q₂ with rfl | ⟨r₂, b₂, rfl⟩
  · simp [pathCIDR] at hp₂
  simp only [pathCIDR, List.length_append, List.length_singleton, Nat.add_right_cancel_iff]
    at hp₁ hp₂
  -- the paths agree on their first `p` bits, so they share them, and differ in the last
  have hr : r₁ = r₂ := by
    apply List.ext_getElem (by omega)
    intro i hi₁ hi₂
    have h := hagree i (by omega)
    rw [getD_pathCIDR (by simp; omega), getD_pathCIDR (by simp; omega),
      List.getD_append _ _ _ _ hi₁, List.getD_append _ _ _ _ hi₂,
      List.getD_eq_getElem _ _ hi₁, List.getD_eq_getElem _ _ hi₂] at h
    exact h
  subst hr
  rw [getD_pathCIDR (by simp; omega), getD_pathCIDR (by simp; omega),
    List.getD_append_right _ _ _ _ (by omega), List.getD_append_right _ _ _ _ (by omega),
    ← hp₁, Nat.sub_self] at hdiff
  exact not_allAt_of_last_ne hn hdiff hq₁ hq₂

/-! ## Trees built by the package's operations -/

/-- A tree as a caller builds it: from `New`, by `AddCIDR`, `Intersect` and `Subtract`. -/
inductive Build where
  | new
  | addCIDR (t : Build) (cidr : CIDR)
  | intersect (a b : Build)
  | subtract (a b : Build)

namespace Build

/-- The tree the build makes, for one IP version. -/
def tree (ipVersion : ℕ) : Build → IPTree
  | new => IPTree.new ipVersion
  | addCIDR t cidr => (t.tree ipVersion).addCIDR cidr
  | intersect a b => Iptree.intersect (a.tree ipVersion) (b.tree ipVersion)
  | subtract a b => Iptree.subtract (a.tree ipVersion) (b.tree ipVersion)
attribute [grind] tree

/-- The addresses the build stands for: the set algebra its operations are named after. -/
def Denotes : Build → List Bool → Prop
  | new, _ => False
  | addCIDR t cidr, a => t.Denotes a ∨ cidr.Contains a
  | intersect s t, a => s.Denotes a ∧ t.Denotes a
  | subtract s t, a => s.Denotes a ∧ ¬ t.Denotes a
attribute [grind] Denotes

/-- Every CIDR added has an address of the width and a prefix no longer than it. -/
def Valid (width : ℕ) : Build → Prop
  | new => True
  | addCIDR t cidr => t.Valid width ∧ cidr.addr.length = width ∧ cidr.prefixLen ≤ width
  | intersect s t | subtract s t => s.Valid width ∧ t.Valid width

/-- The build uses no `Intersect`. -/
def NoIntersect : Build → Prop
  | new => True
  | addCIDR t _ => t.NoIntersect
  | intersect _ _ => False
  | subtract s t => s.NoIntersect ∧ t.NoIntersect

variable (ipVersion : ℕ)

theorem ipVersion_tree (e : Build) : (e.tree ipVersion).ipVersion = ipVersion := by
  induction e with
  | new => rfl
  | addCIDR t cidr ih => exact ih
  | intersect s t ih _ => exact ih
  | subtract s t ih _ => exact ih

theorem width_tree (e : Build) : (e.tree ipVersion).width = (IPTree.new ipVersion).width := by
  simp only [IPTree.width, ipVersion_tree ipVersion e]
  rfl

/-- **The tree holds what the build stands for**, one case per operation. -/
theorem mem_tree {width : ℕ} (e : Build) (hv : e.Valid width) (a : List Bool) :
    (e.tree ipVersion).root.Mem a 0 ↔ e.Denotes a := by
  induction e with
  | new => simp [tree, IPTree.new, Denotes]
  | addCIDR t cidr ih =>
    obtain ⟨ht, hlen, hpfx⟩ := hv
    rw [tree, IPTree.addCIDR, mem_add, ih ht, Denotes, contains_iff_agreesAt (by omega)]
  | intersect s t ihs iht =>
    rw [tree, Iptree.intersect, mem_intersectNodes, ihs hv.1, iht hv.2, Denotes]
  | subtract s t ihs iht =>
    rw [tree, Iptree.subtract, mem_subtractNodes, ihs hv.1, iht hv.2, Denotes]

/-- The tree is no deeper than the width of the CIDRs added to it. -/
theorem height_tree {width : ℕ} (e : Build) (hv : e.Valid width) :
    (e.tree ipVersion).root.height ≤ width := by
  induction e with
  | new => simp [tree, IPTree.new, height]
  | addCIDR t cidr ih =>
    obtain ⟨ht, hlen, -⟩ := hv
    have hbits : (cidr.addr.take cidr.prefixLen).length ≤ width := by simp; omega
    have := height_add (t.tree ipVersion).root (cidr.addr.take cidr.prefixLen)
    simp only [tree, IPTree.addCIDR]
    have := ih ht
    omega
  | intersect s t ihs iht =>
    have := height_intersectNodes (s.tree ipVersion).root (t.tree ipVersion).root
    have := ihs hv.1
    have := iht hv.2
    simp only [tree, Iptree.intersect]
    omega
  | subtract s t ihs iht =>
    have := height_subtractNodes (s.tree ipVersion).root (t.tree ipVersion).root
    have := ihs hv.1
    have := iht hv.2
    simp only [tree, Iptree.subtract]
    omega

/-- Without `Intersect` the tree stays reduced. -/
theorem reduced_tree (e : Build) (h : e.NoIntersect) : (e.tree ipVersion).root.Reduced := by
  induction e with
  | new => trivial
  | addCIDR t cidr ih => exact reduced_add _ _ (ih h)
  | intersect s t _ _ => exact absurd h id
  | subtract s t ihs iht => exact reduced_subtractNodes _ _ (ihs h.1) (iht h.2)

end Build

/-- **What `CoveringCIDRs` returns.** For every tree built from `New` by `AddCIDR`, `Intersect`
and `Subtract` with CIDRs of its version, the CIDRs are canonical, pairwise disjoint, and
together hold exactly the addresses the build stands for; when the build uses no `Intersect`,
no two of them are the halves of one prefix. -/
theorem coveringCIDRs_cover (ipVersion : ℕ) (e : Build)
    (hvalid : e.Valid (IPTree.new ipVersion).width) :
    (∀ c ∈ (e.tree ipVersion).coveringCIDRs, c.Canonical (e.tree ipVersion).width) ∧
    (e.tree ipVersion).coveringCIDRs.Pairwise CIDR.Disjoint ∧
    (∀ a, (∃ c ∈ (e.tree ipVersion).coveringCIDRs, c.Contains a) ↔ e.Denotes a) ∧
    (e.NoIntersect → ∀ c₁ ∈ (e.tree ipVersion).coveringCIDRs,
      ∀ c₂ ∈ (e.tree ipVersion).coveringCIDRs, ¬ c₁.Siblings c₂) := by
  rw [← Build.width_tree ipVersion e] at hvalid
  refine ⟨?_, pairwise_disjoint_addCoveringCIDRs _ _ _, fun a => ?_, fun hni => ?_⟩
  · -- each CIDR is a path to `all`, no longer than the tree is deep
    intro c hc
    obtain ⟨q, hq, rfl⟩ := (mem_addCoveringCIDRs _ _ [] c).mp hc
    apply canonical_pathCIDR
    have := length_le_height_of_allAt _ q hq
    have := Build.height_tree ipVersion e hvalid
    simp only [List.nil_append]
    omega
  · rw [IPTree.coveringCIDRs, exists_contains_iff, ← Build.mem_tree ipVersion e hvalid a]
    simp [agreesAt_nil]
  · exact not_siblings_of_reduced _ (Build.reduced_tree ipVersion e hni)

/-- 10.0.0.0/8. -/
def tenSlash8 : CIDR :=
  ⟨[false, false, false, false, true, false, true, false] ++ List.replicate 24 false, 8⟩

theorem coveringCIDRs_cover_tenSlash8 :
    (Build.addCIDR .new tenSlash8).Valid (IPTree.new 4).width ∧
    ∀ a, (∃ c ∈ ((Build.addCIDR .new tenSlash8).tree 4).coveringCIDRs, c.Contains a) ↔
      (Build.addCIDR .new tenSlash8).Denotes a := by
  have hv : (Build.addCIDR .new tenSlash8).Valid (IPTree.new 4).width :=
    ⟨trivial, rfl, by decide⟩
  exact ⟨hv, (coveringCIDRs_cover 4 _ hv).2.2.1⟩

/-- 0.0.0.0/0 less the intersection of its halves 0.0.0.0/1 and 128.0.0.0/1: the intersection
is a node with two `nil` children, and subtracting it from `all` leaves a node with two `all`
children that nothing collapses. -/
def halvesDemo : Build :=
  .subtract (.addCIDR .new ⟨List.replicate 32 false, 0⟩)
    (.intersect (.addCIDR .new ⟨List.replicate 32 false, 1⟩)
      (.addCIDR .new ⟨true :: List.replicate 31 false, 1⟩))

/-- With `Intersect` the cover need not be minimal: the tree above stands for every address,
yet its covering CIDRs are the two halves 0.0.0.0/1 and 128.0.0.0/1, not 0.0.0.0/0. -/
theorem coveringCIDRs_halves_of_intersect :
    halvesDemo.Valid (IPTree.new 4).width ∧ (∀ a, halvesDemo.Denotes a) ∧
    (halvesDemo.tree 4).coveringCIDRs =
      [⟨List.replicate 32 false, 1⟩, ⟨true :: List.replicate 31 false, 1⟩] ∧
    CIDR.Siblings ⟨List.replicate 32 false, 1⟩ ⟨true :: List.replicate 31 false, 1⟩ := by
  -- each CIDR added has 32 bits and a prefix of at most 32
  refine ⟨⟨⟨trivial, rfl, by decide⟩, ⟨trivial, rfl, by decide⟩,
      ⟨trivial, rfl, by decide⟩⟩, fun a => ?_, rfl, ⟨0, rfl, rfl, by simp, by decide⟩⟩
  simp [halvesDemo, Build.Denotes, CIDR.Contains]

end Felix.Iptree
