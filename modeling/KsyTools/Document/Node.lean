/-
# Document nodes

The tree that all tools work on.  A mapping has key-value nodes as its children, a key-value node
has its value as its only child, and a scalar has none.  Nodes know nothing of what is around them;
a located node carries the way to it from the root of its tree.
-/
import KsyTools.Document.Range
import KsyTools.Yaml.Cursor

namespace KsyTools

/-- A node of a document.  Every node has a range, and the line and column where it was written. -/
inductive Node where
  | scalar (range : TextRange) (place : Position) (text : String)
  | sequence (range : TextRange) (place : Position) (items : List Node)
  | mapping (range : TextRange) (place : Position) (pairs : List Node)
  | keyValue (range : TextRange) (place : Position) (key : String) (keyRange : TextRange)
      (value : Node)
  deriving Repr, Inhabited

/-- The kinds of nodes. -/
inductive NodeKind where
  | scalar
  | sequence
  | mapping
  | keyValue
  deriving Repr, DecidableEq

namespace Node

/-- The kind of a node. -/
def kind : Node → NodeKind
  | .scalar .. => .scalar
  | .sequence .. => .sequence
  | .mapping .. => .mapping
  | .keyValue .. => .keyValue

/-- The range of a node. -/
def range : Node → TextRange
  | .scalar range .. => range
  | .sequence range .. => range
  | .mapping range .. => range
  | .keyValue range .. => range

/-- Line and column of a node. -/
def place : Node → Position
  | .scalar _ place _ => place
  | .sequence _ place _ => place
  | .mapping _ place _ => place
  | .keyValue _ place .. => place

/-- The nodes directly inside a node. -/
def children : Node → List Node
  | .scalar .. => []
  | .sequence _ _ items => items
  | .mapping _ _ pairs => pairs
  | .keyValue _ _ _ _ value => [value]

/-- The text of a scalar, and the key of a key-value node. -/
def text? : Node → Option String
  | .scalar _ _ text => some text
  | .keyValue _ _ key _ _ => some key
  | _ => none

/-- The text of a scalar, and the key of a key-value node; empty for other nodes. -/
def text (n : Node) : String :=
  n.text?.getD ""

/-- The key of a key-value node. -/
def key? : Node → Option String
  | .keyValue _ _ key _ _ => some key
  | _ => none

/-- The range of the key of a key-value node. -/
def keyRange? : Node → Option TextRange
  | .keyValue _ _ _ keyRange _ => some keyRange
  | _ => none

/-- The value of a key-value node. -/
def value? : Node → Option Node
  | .keyValue _ _ _ _ value => some value
  | _ => none

/-- The range that a node is pointed at with: that of the key where there is one. -/
def nameRange (n : Node) : TextRange :=
  n.keyRange?.getD n.range

/-- Whether a node is of a kind. -/
def is (n : Node) (k : NodeKind) : Bool :=
  n.kind == k

/-- Whether a node is a key-value node with a given key. -/
def hasKey (n : Node) (key : String) : Bool :=
  n.key? == some key

/-- The key-value nodes of a mapping. -/
def keyValues : Node → List Node
  | .mapping _ _ pairs => pairs.filter (·.is .keyValue)
  | _ => []

/-- The value of the first key-value node with a given key in a mapping. -/
def get? (n : Node) (key : String) : Option Node :=
  (n.keyValues.find? (·.hasKey key)).bind value?

end Node

/-- A node with what is around it. -/
structure Located where
  node : Node
  /-- The nodes around it, nearest first. -/
  ancestors : List Node
  /-- Its number among its siblings, then that of its parent, and so on up to the root. -/
  path : List Nat
  deriving Repr, Inhabited

/-- The node directly around a node. -/
def Located.parent? (l : Located) : Option Node :=
  l.ancestors.head?

/-- A child of a located node. -/
def Located.child (l : Located) (index : Nat) (node : Node) : Located :=
  ⟨node, l.node :: l.ancestors, index :: l.path⟩

namespace Node

mutual

/-- A node and all nodes inside it, each before those inside it. -/
def walk (ancestors : List Node) (path : List Nat) : Node → List Located
  | n@(.scalar ..) => [⟨n, ancestors, path⟩]
  | n@(.sequence _ _ items) => ⟨n, ancestors, path⟩ :: walkAll (n :: ancestors) path 0 items
  | n@(.mapping _ _ pairs) => ⟨n, ancestors, path⟩ :: walkAll (n :: ancestors) path 0 pairs
  | n@(.keyValue _ _ _ _ value) =>
    ⟨n, ancestors, path⟩ :: walk (n :: ancestors) (0 :: path) value

/-- The nodes of siblings, numbered from `index` on, and all nodes inside them. -/
def walkAll (ancestors : List Node) (path : List Nat) (index : Nat) : List Node → List Located
  | [] => []
  | n :: rest =>
    walk ancestors (index :: path) n ++ walkAll ancestors path (index + 1) rest

end

mutual

/-- The innermost node at an offset that a node contains. -/
def deepestAt (offset : Int) (ancestors : List Node) (path : List Nat) : Node → Located
  | n@(.scalar ..) => ⟨n, ancestors, path⟩
  | n@(.sequence _ _ items) =>
    (deepestAmong offset (n :: ancestors) path 0 items).getD ⟨n, ancestors, path⟩
  | n@(.mapping _ _ pairs) =>
    (deepestAmong offset (n :: ancestors) path 0 pairs).getD ⟨n, ancestors, path⟩
  | n@(.keyValue _ _ _ _ value) =>
    if value.range.contains offset then deepestAt offset (n :: ancestors) (0 :: path) value
    else ⟨n, ancestors, path⟩

/-- The innermost node at an offset among siblings.  Of several siblings that contain the offset,
the first one counts that starts there or does not end there, else the last one. -/
def deepestAmong (offset : Int) (ancestors : List Node) (path : List Nat) (index : Nat) :
    List Node → Option Located
  | [] => none
  | n :: rest =>
    if n.range.contains offset then
      if n.range.start == offset || n.range.stop != offset then
        some (deepestAt offset ancestors (index :: path) n)
      else
        match deepestAmong offset ancestors path (index + 1) rest with
        | some later => some later
        | none => some (deepestAt offset ancestors (index :: path) n)
    else deepestAmong offset ancestors path (index + 1) rest

end

end Node

end KsyTools
