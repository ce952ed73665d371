import Felix.Ip.V4CIDR

/-!
# The IPv4 trie

`ip.V4Trie` is a binary trie of CIDRs. Each node has a CIDR, two children and possibly data;
a child's CIDR lies inside its parent's, on the side of the bit after the parent's prefix, and a
node without data is only there to join two children. `Update` walks down from the root and
either finds its CIDR, runs off the trie, or meets a node that it must go above or beside.
`Delete` removes a node's data and takes out the nodes that no longer join two children.

The source's nodes are pointers that the two functions change in place. A trie owns its nodes,
so here each function returns the node that takes the place of the one it was given: the
`parentsPtr` of `Update` becomes the return value of the recursive call.

## Main definitions

* `V4Node`, `V4Trie`, `V4TrieEntry`: the trie, with `nil` for the nil pointer
* `V4Node.update`, `V4Node.deleteInternal`, `V4Trie.update`, `V4Trie.delete`: the changes
* `V4Node.get`, `V4Node.lookupPath`, `V4Node.lpmLoop`, `V4Node.covers`, `V4Node.intersects`,
  `V4Node.appendTo`: the queries
-/

namespace Felix.Ip

universe u

/-- `ip.V4Node`, with `nil` for the nil pointer: a CIDR, the children `children[0]` and
`children[1]`, and the data, `none` for the source's nil `interface{}`. -/
inductive V4Node (α : Type u) where
  | nil
  | node (cidr : V4CIDR) (child0 child1 : V4Node α) (data : Option α)
  deriving DecidableEq

/-- `ip.V4TrieEntry`. -/
structure V4TrieEntry (α : Type u) where
  cidr : V4CIDR
  data : α
  deriving DecidableEq

/-- `ip.V4Trie`: the root pointer; the zero value is the empty trie. -/
structure V4Trie (α : Type u) where
  root : V4Node α
  deriving DecidableEq

namespace V4CIDR

/-- The child a walk for the address `a` takes below the node `n`:
`a.NthBit(uint(n.prefix + 1))`, with the `uint8` sum as Go takes it. -/
def childIdx (n : V4CIDR) (a : UInt32) : ℕ := nthBit a (n.prefixLen + 1).toNat
attribute [grind] childIdx

end V4CIDR

variable {α : Type u}

namespace V4Node

/-- Whether the pointer is nil. -/
def isNil : V4Node α → Bool
  | .nil => true
  | .node .. => false
attribute [grind] isNil

/-- `V4Node.get`: walk down to `cidr`; none if the walk runs off the trie or ends at a node
without data. -/
def get : V4Node α → V4CIDR → Option α
  | .nil, _ => none
  | .node c c0 c1 d, cidr =>
    if !c.containsV4 cidr.addr then none
    else if cidr = c then d
    else if c.childIdx cidr.addr = 0 then c0.get cidr else c1.get cidr
attribute [grind] get

/-- `V4Node.lookupPath`: the entries met on the walk down to `cidr`, after `buffer`; empty if
the walk runs off the trie or ends at a node without data. -/
def lookupPath : V4Node α → List (V4TrieEntry α) → V4CIDR → List (V4TrieEntry α)
  | .nil, _, _ => []
  | .node c c0 c1 d, buffer, cidr =>
    if !c.containsV4 cidr.addr then []
    else
      let buffer := match d with
        | some v => buffer ++ [⟨c, v⟩]
        | none => buffer
      if cidr = c then (if d.isNone then [] else buffer)
      else if c.childIdx cidr.addr = 0 then c0.lookupPath buffer cidr
      else c1.lookupPath buffer cidr
attribute [grind] lookupPath

/-- The loop of `V4Trie.LPM`: walk down towards `cidr`, keeping the last entry met. -/
def lpmLoop (cidr : V4CIDR) : V4Node α → Option (V4TrieEntry α) → Option (V4TrieEntry α)
  | .nil, m => m
  | .node c c0 c1 d, m =>
    if !c.containsV4 cidr.addr then m
    else
      let m := match d with
        | some v => some ⟨c, v⟩
        | none => m
      if cidr = c then m
      else if c.childIdx cidr.addr = 0 then lpmLoop cidr c0 m else lpmLoop cidr c1 m

/-- `V4Node.covers`: walk down while the node contains `cidr`, until a node with data. -/
def covers : V4Node α → V4CIDR → Bool
  | .nil, _ => false
  | .node c c0 c1 d, cidr =>
    if v4CommonPrefix c cidr ≠ c then false
    else if d.isSome then true
    else if c.childIdx cidr.addr = 0 then c0.covers cidr else c1.covers cidr

/-- `V4Node.intersects`: walk down while the node contains `cidr`, until a node inside it. -/
def intersects : V4Node α → V4CIDR → Bool
  | .nil, _ => false
  | .node c c0 c1 _, cidr =>
    if v4CommonPrefix c cidr = cidr then true
    else if v4CommonPrefix c cidr ≠ c then false
    else if c.childIdx cidr.addr = 0 then c0.intersects cidr else c1.intersects cidr

/-- `V4Node.appendTo`: the entries, each node before its children, `children[0]` first. -/
def appendTo : V4Node α → List (V4TrieEntry α) → List (V4TrieEntry α)
  | .nil, s => s
  | .node c c0 c1 d, s =>
    let s := match d with
      | some v => s ++ [⟨c, v⟩]
      | none => s
    c1.appendTo (c0.appendTo s)
attribute [grind] appendTo

/-- The loop of `V4Trie.Update`, from the slot holding this node: what the slot holds after. -/
def update (cidr : V4CIDR) (value : α) : V4Node α → V4Node α
  | .nil => .node cidr .nil .nil (some value)
  | .node c c0 c1 d =>
    if c = cidr then .node c c0 c1 (some value)
    else if (v4CommonPrefix cidr c).prefixLen = c.prefixLen then
      -- this node contains the new CIDR: go down
      if nthBit cidr.addr ((v4CommonPrefix cidr c).prefixLen + 1).toNat = 0 then
        .node c (c0.update cidr value) c1 d
      else .node c c0 (c1.update cidr value) d
    else if (v4CommonPrefix cidr c).prefixLen = cidr.prefixLen then
      -- the new CIDR contains this node: put it above
      if nthBit c.addr ((v4CommonPrefix cidr c).prefixLen + 1).toNat = 0 then
        .node cidr (.node c c0 c1 d) .nil (some value)
      else .node cidr .nil (.node c c0 c1 d) (some value)
    else
      -- neither contains the other: join them below a node without data
      if nthBit c.addr ((v4CommonPrefix cidr c).prefixLen + 1).toNat = 0 then
        .node (v4CommonPrefix cidr c) (.node c c0 c1 d) (.node cidr .nil .nil (some value)) none
      else .node (v4CommonPrefix cidr c) (.node cidr .nil .nil (some value)) (.node c c0 c1 d) none
attribute [grind] update

/-- `deleteInternal`: what takes the place of this node once `cidr` is deleted below it. The
source never calls it on a nil node. -/
def deleteInternal (cidr : V4CIDR) : V4Node α → V4Node α
  | .nil => .nil
  | .node c c0 c1 d =>
    if !c.containsV4 cidr.addr then .node c c0 c1 d
    else if cidr = c then
      -- the node goes, unless it still joins two children
      if c0.isNil then c1 else if c1.isNil then c0 else .node c c0 c1 none
    else if c.childIdx cidr.addr = 0 then
      if c0.isNil then .node c c0 c1 d
      else
        -- a node without data whose child went is replaced by its other child
        if (c0.deleteInternal cidr).isNil && d.isNone then c1
        else .node c (c0.deleteInternal cidr) c1 d
    else
      if c1.isNil then .node c c0 c1 d
      else
        if (c1.deleteInternal cidr).isNil && d.isNone then c0
        else .node c c0 (c1.deleteInternal cidr) d
attribute [grind] deleteInternal

end V4Node

namespace V4Trie

/-- The empty trie. -/
def empty : V4Trie α := ⟨.nil⟩

/-- `V4Trie.Update`; the source panics on a nil value, which has no counterpart here. -/
def update (t : V4Trie α) (cidr : V4CIDR) (value : α) : V4Trie α :=
  ⟨t.root.update cidr value⟩

/-- `V4Trie.Delete`. -/
def delete (t : V4Trie α) (cidr : V4CIDR) : V4Trie α :=
  match t.root with
  | .nil => t
  | .node c c0 c1 d =>
    if v4CommonPrefix c cidr ≠ c then t else ⟨(V4Node.node c c0 c1 d).deleteInternal cidr⟩
attribute [grind] delete

/-- `V4Trie.Get`. -/
def get (t : V4Trie α) (cidr : V4CIDR) : Option α := t.root.get cidr
attribute [grind] get

/-- `V4Trie.LookupPath`, with a fresh buffer. -/
def lookupPath (t : V4Trie α) (cidr : V4CIDR) : List (V4TrieEntry α) := t.root.lookupPath [] cidr

/-- `V4Trie.LPM`: the CIDR and data of the last entry met, or `V4CIDR{}` and nil. -/
def lpm (t : V4Trie α) (cidr : V4CIDR) : V4CIDR × Option α :=
  match V4Node.lpmLoop cidr t.root none with
  | some e => (e.cidr, some e.data)
  | none => (⟨0, 0⟩, none)

/-- `V4Trie.Covers`. -/
def covers (t : V4Trie α) (cidr : V4CIDR) : Bool := t.root.covers cidr

/-- `V4Trie.Intersects`. -/
def intersects (t : V4Trie α) (cidr : V4CIDR) : Bool := t.root.intersects cidr

/-- `V4Trie.ToSlice`. -/
def toSlice (t : V4Trie α) : List (V4TrieEntry α) := t.root.appendTo []

end V4Trie

end Felix.Ip
