import Mathlib

/-!
# The IP tree

`IPTree` (`iptree/iptree.go`) holds a set of addresses of one IP version as a binary tree over
the address bits, most significant first. A `nil` child holds nothing, and the shared node `all`
holds every address below it. `AddCIDR` walks the CIDR's prefix bits down from the root, creating
nodes, puts `all` where the prefix ends, and on the way back up replaces a node whose children
are both `all` by `all`. `Intersect` and `Subtract` combine two trees node by node, and
`CoveringCIDRs` lists a CIDR for every `all` below the root, in address order.

The source compares nodes with `all` and `nil` by pointer; here they are two constructors, and
every other node is a `node` with its two children. `add` at `all` walks into the shared node's
children and writes there; nothing reads those children (every read of a node's children first
checks for `all`), so the model leaves `all` as it is. `copy` rebuilds a tree node by node.

An address is the list of its bits, and a CIDR its address's bits and its prefix length.
`CoveringCIDRs` writes the path's bits into a byte buffer, and `CIDRFromIPNet` masks the bits
past the prefix length: the CIDR of a path is the path, padded with zeros to the address width.

## Main definitions

* `Node`, `CIDR`, `Node.copy`, `Node.addCoveringCIDRs`, `intersectNodes`, `subtractNodes`,
  `Node.add`
* `IPTree`, `IPTree.new`, `intersect`, `subtract`, `IPTree.addCIDR`, `IPTree.coveringCIDRs`
-/

namespace Felix.Iptree

/-- A node: `nil`, the shared `all`, or a node with its two children. -/
inductive Node where
  | nil
  | all
  | node (child0 child1 : Node)
  deriving DecidableEq, Repr

/-- `ip.CIDR` of the tree's version: the address's bits, most significant first, and the prefix
length. -/
structure CIDR where
  addr : List Bool
  prefixLen : ℕ
  deriving DecidableEq, Repr

namespace Node

/-- The children of a node, `nil` for a new `&node{}`. -/
def children : Node → Node × Node
  | node child0 child1 => (child0, child1)
  | nil | all => (nil, nil)
attribute [grind] children

/-- `copy`. -/
def copy : Node → Node
  | nil => nil
  | all => all
  | node child0 child1 => node child0.copy child1.copy

/-- `addCoveringCIDRs`: the CIDRs of the `all` nodes below this one, after `cidrs`. `path` is
the bits `setNthBit` wrote above `depth`, which is its length. -/
def addCoveringCIDRs (width : ℕ) : Node → List Bool → List CIDR → List CIDR
  | nil, _, cidrs => cidrs
  | all, path, cidrs =>
    cidrs ++ [⟨path ++ List.replicate (width - path.length) false, path.length⟩]
  | node child0 child1, path, cidrs =>
    let cidrs := child0.addCoveringCIDRs width (path ++ [false]) cidrs
    child1.addCoveringCIDRs width (path ++ [true]) cidrs
attribute [grind] addCoveringCIDRs

/-- `add`, from the node at depth `d` with the CIDR's bits from `d` to its prefix length: at the
end of the prefix the node becomes `all`; otherwise a missing node is created, the walk goes on
into the child the next bit names, and a node whose children are then both `all` becomes
`all`. -/
def add : Node → List Bool → Node
  | _, [] => all
  -- the walk into the shared node's children writes where nothing reads
  | all, _ :: _ => all
  | n, bit :: bits =>
    let child0 := if bit then n.children.1 else n.children.1.add bits
    let child1 := if bit then n.children.2.add bits else n.children.2
    if child0 = all ∧ child1 = all then all else node child0 child1
attribute [grind] add

end Node

/-- `intersectNodes`. -/
def intersectNodes : Node → Node → Node
  | .nil, _ | _, .nil => .nil
  | .all, .all => .all
  | .all, b => b.copy
  | a, .all => a.copy
  | .node a0 a1, .node b0 b1 => .node (intersectNodes a0 b0) (intersectNodes a1 b1)
attribute [grind] intersectNodes

/-- The end of `subtractNodes`: a node with two `nil` children is `nil`. -/
def subtractResult (child0 child1 : Node) : Node :=
  if child0 = .nil ∧ child1 = .nil then .nil else .node child0 child1

/-- `subtractNodes`. -/
def subtractNodes : Node → Node → Node
  | .nil, _ => .nil
  | a, .nil => a.copy
  | _, .all => .nil
  | .all, .node b0 b1 => subtractResult (subtractNodes .all b0) (subtractNodes .all b1)
  | .node a0 a1, .node b0 b1 => subtractResult (subtractNodes a0 b0) (subtractNodes a1 b1)
attribute [grind] subtractNodes

/-- `IPTree`. -/
structure IPTree where
  ipVersion : ℕ
  root : Node

namespace IPTree

/-- `New`. -/
def new (ipVersion : ℕ) : IPTree := ⟨ipVersion, .nil⟩
attribute [grind] new

/-- The address width: the bytes of the buffer `CoveringCIDRs` makes, eight bits each. -/
def width (t : IPTree) : ℕ := if t.ipVersion = 4 then 4 * 8 else 16 * 8

/-- `AddCIDR`, for a CIDR of the tree's version. -/
def addCIDR (t : IPTree) (cidr : CIDR) : IPTree :=
  { t with root := t.root.add (cidr.addr.take cidr.prefixLen) }
attribute [grind] addCIDR

/-- `CoveringCIDRs`. -/
def coveringCIDRs (t : IPTree) : List CIDR := t.root.addCoveringCIDRs t.width [] []

end IPTree

/-- `Intersect`. -/
def intersect (a b : IPTree) : IPTree := ⟨a.ipVersion, intersectNodes a.root b.root⟩
attribute [grind] intersect

/-- `Subtract`. -/
def subtract (a b : IPTree) : IPTree := ⟨a.ipVersion, subtractNodes a.root b.root⟩
attribute [grind] subtract

end Felix.Iptree
