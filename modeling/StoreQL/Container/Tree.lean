/-
# Trees of numbered nodes

A tree keeps its nodes in one array, in the order in which they were inserted, and a node is known
by its place there: the root is node zero, and a handle stays good because no node is ever removed.
Each node holds a value, the handle of its parent and those of its children, oldest first. A tree
always has its root.

`Tree.traverse` lists the nodes in pre-order with their depths. It keeps the nodes that are still to
be visited on a list of their own, so that how deep a tree is does not matter, and it stops after as
many visits as there are nodes: each is visited once.

An `Outline` is the same thing as a value: a node with the outlines of its children.
`Tree.ofOutline` inserts the nodes of one in pre-order.
-/
namespace StoreQL

namespace Tree

/-- What a tree keeps about one node. -/
structure Entry (α : Type u) where
  value : α
  parent : Option Nat
  children : Array Nat
deriving Repr

/-- A handle that a tree does not know. -/
structure UnknownNode where
  handle : Nat
deriving DecidableEq, Repr

/-- A handle as it is shown. -/
def label (handle : Nat) : String := s!"#{handle}"

/-- The error in words. -/
def UnknownNode.message (e : UnknownNode) : String := s!"unknown tree node {label e.handle}"

end Tree

/-- A tree, by its nodes in the order of their insertion. -/
structure Tree (α : Type u) where
  entries : Array (Tree.Entry α)
deriving Repr

namespace Tree

variable {α : Type u}

/-! ## 1. Growing a tree -/

/-- The tree of a root alone. -/
def singleton (value : α) : Tree α := ⟨#[⟨value, none, #[]⟩]⟩

/-- The handle of the root. -/
def root : Nat := 0

/-- The number of nodes. -/
def size (t : Tree α) : Nat := t.entries.size

/-- Whether there are no nodes. -/
def isEmpty (t : Tree α) : Bool := t.entries.isEmpty

/-- The tree with a new node, known by the old size, as the last child of a node that it has. -/
def append (t : Tree α) (parent : Nat) (value : α) : Tree α :=
  let handle := t.size
  ⟨(t.entries.modify parent (fun e => { e with children := e.children.push handle })).push
    ⟨value, some parent, #[]⟩⟩

@[simp] theorem size_singleton (value : α) : (singleton value).size = 1 := rfl

/-- A new node makes a tree larger by one. -/
@[simp] theorem size_append (t : Tree α) (parent : Nat) (value : α) :
    (t.append parent value).size = t.size + 1 := by
  simp [append, size]

/-- Insert a value as the last child of a node: the handle of the new node, and the tree. -/
def insert (t : Tree α) (parent : Nat) (value : α) : Except UnknownNode (Nat × Tree α) :=
  if parent < t.size then .ok (t.size, t.append parent value) else .error ⟨parent⟩

/-! ## 2. Looking at a tree -/

/-- The value of a node. -/
def get? (t : Tree α) (handle : Nat) : Option α := t.entries[handle]?.map Entry.value

/-- The parent of a node; the root has none. -/
def parent? (t : Tree α) (handle : Nat) : Option Nat := t.entries[handle]?.bind Entry.parent

/-- The handles of the children of a node, none for a handle that is not known. -/
def childHandles (t : Tree α) (handle : Nat) : List Nat :=
  (t.entries[handle]?.map (fun e => e.children.toList)).getD []

/-- The children of a node with their values. -/
def children (t : Tree α) (handle : Nat) : List (Nat × α) :=
  (t.childHandles handle).filterMap (fun c => (t.get? c).map (fun v => (c, v)))

/-! ## 3. Traversal -/

/-- A node that is visited. -/
structure Visit (α : Type u) where
  handle : Nat
  value : α
  depth : Nat
deriving DecidableEq, Repr

/-- Visit the nodes that are pending, with their depths, each before its children and the children
before what is pending after it; at most `fuel` visits. -/
def walk (t : Tree α) : (fuel : Nat) → (pending : List (Nat × Nat)) → List (Visit α)
  | 0, _ => []
  | _, [] => []
  | fuel + 1, (handle, depth) :: pending =>
    match t.entries[handle]? with
    | none => walk t fuel pending
    | some e =>
      ⟨handle, e.value, depth⟩ ::
        walk t fuel (e.children.toList.map (fun c => (c, depth + 1)) ++ pending)

/-- The nodes in pre-order. -/
def traverse (t : Tree α) : List (Visit α) := t.walk t.size [(root, 0)]

/-- The nodes in pre-order with their values, without their depths. -/
def nodes (t : Tree α) : List (Nat × α) := t.traverse.map (fun v => (v.handle, v.value))

/-- The greatest depth of a node. -/
def height (t : Tree α) : Nat := t.traverse.foldl (fun h v => max h v.depth) 0

end Tree
end StoreQL
