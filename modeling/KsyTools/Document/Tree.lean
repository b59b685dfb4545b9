/-
# Document trees with parent links

The nodes of a document as they are made while it is read.  Nodes with the same text are different
nodes, so every node gets a number when it is made.  Nodes do not know what is around them: as soon
as all nodes inside a node are there, it is written down as the parent of each of them, in an index
that belongs to the document.  The tree is walked with a stack, and the nodes around a node are
found by going from parent to parent.
-/
import KsyTools.Document.Basic
import KsyTools.Keyed

namespace KsyTools

open Yaml (Graph GraphNode NodeId freeCount freeCount_cons_lt)

/-- A node that was made: its number, what it is, and the nodes directly inside it. -/
inductive BuiltNode where
  | mk (number : Nat) (node : Node) (children : List BuiltNode)
  deriving Repr, Inhabited

namespace BuiltNode

/-- The number of a node, by which it is known. -/
def number : BuiltNode → Nat
  | .mk number _ _ => number

/-- What a node is. -/
def node : BuiltNode → Node
  | .mk _ node _ => node

/-- The nodes directly inside a node. -/
def children : BuiltNode → List BuiltNode
  | .mk _ _ children => children

mutual

/-- A node and all nodes inside it, each before those inside it. -/
def preorder : BuiltNode → List BuiltNode
  | .mk number node children => .mk number node children :: preorderAll children

/-- Siblings and all nodes inside them. -/
def preorderAll : List BuiltNode → List BuiltNode
  | [] => []
  | n :: rest => preorder n ++ preorderAll rest

end

theorem preorder_eq_cons (n : BuiltNode) : n.preorder = n :: preorderAll n.children := by
  cases n
  rw [preorder, children]

theorem preorderAll_eq_flatMap (ns : List BuiltNode) : preorderAll ns = ns.flatMap preorder := by
  induction ns with
  | nil => rfl
  | cons n rest ih => rw [preorderAll, ih, List.flatMap_cons]

/-- What comes off a stack of nodes, whose last node is its top: a node that is taken off leaves the
nodes inside it behind, the first one on top. -/
def walkStack (stack : List BuiltNode) : List BuiltNode :=
  if h : stack = [] then []
  else
    let n := stack.getLast h
    n :: walkStack (stack.dropLast ++ n.children.reverse)
  termination_by (preorderAll stack).length
  decreasing_by
    conv => rhs; rw [← List.dropLast_concat_getLast h]
    simp only [preorderAll_eq_flatMap, List.flatMap_append, List.flatMap_cons, List.flatMap_nil,
      List.append_nil, preorder_eq_cons (stack.getLast h), List.length_append, List.length_cons,
      List.length_flatMap, List.map_reverse, List.sum_reverse]
    omega

end BuiltNode

/-- What is written down about the nodes of a document while they are made: the number of the next
node, and the parents of nodes by their numbers. -/
structure ParentIndex where
  next : Nat
  parents : List (Nat × BuiltNode)
  deriving Repr, Inhabited

namespace ParentIndex

/-- The index when no node was made yet. -/
def empty : ParentIndex :=
  ⟨0, []⟩

/-- Writes down the parent of a node. -/
def register (i : ParentIndex) (parent child : BuiltNode) : ParentIndex :=
  { i with parents := Keyed.set i.parents child.number parent }

/-- Writes down a node as the parent of those inside it. -/
def adopt (i : ParentIndex) (parent : BuiltNode) : ParentIndex :=
  parent.children.foldl (fun i child => i.register parent child) i

end ParentIndex

/-! ## Making the nodes of a document -/

/-- The computations that make nodes. -/
abbrev Build := StateM ParentIndex

namespace Build

/-- The number of a node that is made now. -/
def newNumber : Build Nat :=
  modifyGet fun i => (i.next, { i with next := i.next + 1 })

/-- Makes a node with nothing inside. -/
def leaf (node : Node) : Build BuiltNode := do
  return .mk (← newNumber) node []

/-- Makes the key-value node for a pair, whose value was made before. -/
def pair (placeAt : Nat → Position) (key : GraphNode) (value : BuiltNode) : Build BuiltNode := do
  let built := .mk (← newNumber) (Node.ofPair placeAt key value.node) [value]
  modify (·.adopt built)
  return built

/-- Makes a node around others, which are made after it got its number. -/
def around (inside : Build (List BuiltNode)) (node : List Node → Node) : Build BuiltNode := do
  let number ← newNumber
  let children ← inside
  let built := .mk number (node (children.map BuiltNode.node)) children
  modify (·.adopt built)
  return built

/-- Makes the nodes of the tree below a node of a graph; `active` are the nodes around it. -/
def ofGraph (g : Graph) (placeAt : Nat → Position) (active : List NodeId) (id : NodeId) :
    Build BuiltNode :=
  if hid : id < g.nodes.size then
    let n := g.nodes[id]
    if h : id ∈ active then leaf (.scalar (Node.rangeOf n) (placeAt n.start) "")
    else
      have := freeCount_cons_lt hid h
      match n.content with
      | .scalar text => leaf (.scalar (Node.rangeOf n) (placeAt n.start) text)
      | .sequence items =>
        around (items.mapM fun i => ofGraph g placeAt (id :: active) i)
          (.sequence (Node.rangeOf n) (placeAt n.start))
      | .mapping pairs =>
        around
          (pairs.mapM fun (key, value) => do
            pair placeAt (g.nodes.getD key default) (← ofGraph g placeAt (id :: active) value))
          (.mapping (Node.rangeOf n) (placeAt n.start))
  else leaf (.scalar ⟨0, 0⟩ ⟨0, 0⟩ "")
  termination_by freeCount g.nodes.size active

end Build

/-- The nodes of a document: the root of each tree, and the index of parents. -/
structure DocumentTree where
  roots : List BuiltNode
  index : ParentIndex
  deriving Repr, Inhabited

namespace DocumentTree

/-- A tree without nodes. -/
def empty : DocumentTree :=
  ⟨[], .empty⟩

/-- The nodes for a graph. -/
def ofGraph (g : Graph) (placeAt : Nat → Position) : DocumentTree :=
  let (roots, index) := (g.roots.mapM (Build.ofGraph g placeAt [])).run .empty
  ⟨roots, index⟩

/-- The parent of a node. -/
def parent? (t : DocumentTree) (n : BuiltNode) : Option BuiltNode :=
  t.index.parents.lookup n.number

/-- The nodes that are met from a node on when one goes from parent to parent, up to one without a
parent. -/
inductive Climbs (t : DocumentTree) : BuiltNode → List BuiltNode → Prop
  | top {n : BuiltNode} (root : t.parent? n = none) : Climbs t n []
  | up {n p : BuiltNode} {way : List BuiltNode} (parent : t.parent? n = some p)
      (further : Climbs t p way) : Climbs t n (p :: way)

/-- All nodes, from the stack of the roots. -/
def walk (t : DocumentTree) : List BuiltNode :=
  BuiltNode.walkStack t.roots.reverse

end DocumentTree

/-- The nodes that are made for the text of a document; there are none if it could not be read. -/
def Document.tree (d : Document) : DocumentTree :=
  match d.failure?, Yaml.Graph.ofText d.chars with
  | none, .ok g => .ofGraph g (Yaml.positionAt d.chars)
  | _, _ => .empty

end KsyTools
