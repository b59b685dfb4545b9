/-
# From node graphs to plain data

Containers are created empty and filled later, in the order of their creation, so that a container
can hold itself.  What is created for a node is created once, however often the node is referred
to.  Merge keys are resolved when the mapping that has them is filled.

The first step, `Construction`, gives every node that is reached a cell, which refers to other
cells by the numbers of their nodes; it is here that problems are found.  The second step unfolds
the cells of a document into a value, and marks the places where a container stands inside itself.
-/
import KsyTools.Yaml.Data.Scalar
import KsyTools.Yaml.Graph

namespace KsyTools.Yaml

/-- The value of a node, in terms of the values of other nodes. -/
inductive Cell where
  /-- An atom.  The flag marks the one value that is not a number and yet the same as itself. -/
  | atom (a : Atom) (shared : Bool)
  | list (items : List NodeId)
  | map (entries : List (NodeId × NodeId))
  | set (members : List NodeId)
  | pairs (entries : List (NodeId × NodeId))
  deriving Repr, Inhabited

/-- The state of a construction: the graph, whose mappings are merged as they are filled, the cells
so far, and the containers that are still to be filled. -/
structure Construction where
  nodes : Array GraphNode
  cells : Array (Option Cell)
  pending : List NodeId

/-- The computations of a construction. -/
abbrev Construct := StateT Construction (Except Failure)

namespace Construct

/-- The node with a number. -/
def node (id : NodeId) : Construct GraphNode :=
  return (← get).nodes.getD id default

/-- Fails at a node. -/
def failAt {α : Type} (n : GraphNode) (problem : String) : Construct α :=
  throw (.marked ⟨none, none, problem, n.start⟩)

/-- Fails at a node inside another one. -/
def failIn {α : Type} (context : String) (outer : GraphNode) (problem : String)
    (n : GraphNode) : Construct α :=
  throw (.marked ⟨some context, some outer.start, problem, n.start⟩)

/-- Lifts the faults of scalars. -/
def liftScalar {α : Type} (r : Except ScalarFault α) : Construct α :=
  match r with
  | .ok a => pure a
  | .error fault => throw (.scalar fault)

/-- Sets the cell of a node. -/
def setCell (id : NodeId) (cell : Cell) : Construct Unit :=
  modify fun c => { c with cells := c.cells.set! id (some cell) }

/-! ## Scalars -/

/-- The text of a scalar.  A mapping may stand for the scalar under its `=` key; such a chain can
be no longer than there are nodes, unless it never ends. -/
def scalarText (id : NodeId) : (fuel : Nat) → Construct String
  | 0 => throw .tooDeep
  | fuel + 1 => do
    let n ← node id
    match n.content with
    | .scalar text => return text
    | .sequence _ => failAt n "expected a scalar node, but found sequence"
    | .mapping pairs =>
      let nodes := (← get).nodes
      match pairs.find? fun (key, _) => (nodes.getD key default).tag = .value with
      | some (_, value) => scalarText value fuel
      | none => failAt n "expected a scalar node, but found mapping"

/-- The atom of a node with the tag of a scalar. -/
def atomOf (id : NodeId) (n : GraphNode) : Construct (Atom × Bool) := do
  let text ← scalarText id ((← get).nodes.size + 1)
  match n.tag with
  | .null => return (.null, false)
  | .bool => return (.bool (← liftScalar (boolValue text)), false)
  | .int => return (.int (← liftScalar (intValue text)), false)
  | .float =>
    let (x, shared) ← liftScalar (floatValue text)
    return (.float x, shared)
  | .timestamp =>
    match n.content with
    | .scalar _ => return (← liftScalar (timestampValue text), false)
    | _ => throw (.scalar .notText)
  | .binary =>
    match asciiMessage text.toList with
    | some message => failAt n s!"failed to convert base64 data into ascii: {message}"
    | none =>
      match decodeBase64 text.toList with
      | .ok bytes => return (.bytes bytes, false)
      | .error fault => failAt n s!"failed to decode base64 data: {fault.message}"
  | _ => return (.str text, false)

/-- Creates the value of a node, unless it exists already. -/
def create (id : NodeId) : Construct Unit := do
  if ((← get).cells.getD id none).isSome then return
  let n ← node id
  let container (cell : Cell) : Construct Unit := do
    setCell id cell
    modify fun c => { c with pending := c.pending ++ [id] }
  match n.tag with
  | .seq => container (.list [])
  | .map => container (.map [])
  | .set => container (.set [])
  | .omap => container (.pairs [])
  | .pairs => container (.pairs [])
  | .merge | .value | .yaml | .other _ =>
    failAt n s!"could not determine a constructor for the tag {Text.quote n.tag.uri}"
  | _ =>
    let (a, shared) ← atomOf id n
    setCell id (.atom a shared)

/-! ## Merge keys -/

/-- The context of errors in mappings. -/
def mappingContext : String := "while constructing a mapping"

/-- The pairs of a mapping. -/
def pairsOf (id : NodeId) : Construct (List (NodeId × NodeId)) := do
  match (← node id).content with
  | .mapping pairs => return pairs
  | _ => return []

/-- Replaces the pairs of a mapping. -/
def setPairs (id : NodeId) (pairs : List (NodeId × NodeId)) : Construct Unit :=
  modify fun c =>
    { c with nodes := c.nodes.modify id fun n => { n with content := .mapping pairs } }

/-- The number of merge keys in all mappings. -/
def mergeKeyCount : Construct Nat := do
  let nodes := (← get).nodes
  let keys := nodes.toList.flatMap fun n =>
    match n.content with
    | .mapping pairs => pairs.map Prod.fst
    | _ => []
  return keys.countP fun key => (nodes.getD key default).tag = .merge

/-- Turns the keys `=` of a mapping into plain texts. -/
def plainValueKeys (pairs : List (NodeId × NodeId)) : Construct Unit :=
  modify fun c =>
    { c with nodes := pairs.foldl (fun nodes (key, _) =>
        nodes.modify key fun n => if n.tag = .value then { n with tag := .str } else n) c.nodes }

/-- Puts merged pairs before the pairs of a mapping. -/
def putMerged (id : NodeId) (merged pairs : List (NodeId × NodeId)) : Construct Unit :=
  if merged.isEmpty then pure () else setPairs id (merged ++ pairs)

/-- Resolves the merge keys of a mapping from the pair number `first` on.  A merge key is removed
before what it refers to is looked at, so there are at most as many steps inside each other as
there are merge keys. -/
def mergeFrom : (fuel : Nat) → (id : NodeId) → (first : Nat) →
    (merged : List (NodeId × NodeId)) → Construct Unit
  | 0, id, _, merged => do
    let pairs ← pairsOf id
    plainValueKeys pairs
    putMerged id merged pairs
  | fuel + 1, id, first, merged => do
    let pairs ← pairsOf id
    plainValueKeys pairs
    let nodes := (← get).nodes
    match (pairs.drop first).findIdx? fun p => (nodes.getD p.1 default).tag = .merge with
    | none => putMerged id merged pairs
    | some i =>
      let here := first + i
      let target := (pairs.getD here (0, 0)).2
      setPairs id (pairs.eraseIdx here)
      let outer ← node id
      let n ← node target
      let more ←
        match n.content with
        | .mapping _ =>
          mergeFrom fuel target 0 []
          pairsOf target
        | .sequence items =>
          let parts ← items.mapM fun item => do
            let n ← node item
            match n.content with
            | .mapping _ =>
              mergeFrom fuel item 0 []
              pairsOf item
            | other =>
              failIn mappingContext outer
                s!"expected a mapping for merging, but found {other.kindName}" n
          pure parts.reverse.flatten
        | .scalar _ =>
          failIn mappingContext outer
            "expected a mapping or list of mappings for merging, but found scalar" n
      mergeFrom fuel id here (merged ++ more)

/-- Resolves the merge keys of a mapping. -/
def merge (id : NodeId) : Construct Unit := do
  mergeFrom ((← mergeKeyCount) + 1) id 0 []

/-! ## Filling containers -/

/-- The items of a node that has to be a sequence. -/
def sequenceItems (n : GraphNode) : Construct (List NodeId) := do
  match n.content with
  | .sequence items => return items
  | other => failAt n s!"expected a sequence node, but found {other.kindName}"

/-- The pairs of a node that has to be a mapping, after its merge keys are resolved. -/
def mergedPairs (id : NodeId) (n : GraphNode) : Construct (List (NodeId × NodeId)) := do
  match n.content with
  | .mapping _ => merge id; pairsOf id
  | other => failAt n s!"expected a mapping node, but found {other.kindName}"

/-- The atom of a key, whether it equals itself where it is not a number, and the node it came
from. -/
def keyAtom (outer : GraphNode) (key : NodeId) : Construct (Atom × Bool) := do
  match (← get).cells.getD key none with
  | some (.atom a shared) => return (a, shared)
  | _ => failIn mappingContext outer "found unhashable key" (← node key)

/-- Whether two keys are the same: created for one node, or of the same value. -/
def sameKey (cells : Array (Option Cell)) (a b : NodeId) : Bool :=
  a == b ||
    match cells.getD a none, cells.getD b none with
    | some (.atom x s), some (.atom y t) => x.same y || (s && t)
    | _, _ => false

/-- Sets an entry: a key keeps its place and its first form, and takes the last value. -/
def putEntry (cells : Array (Option Cell)) (entries : List (NodeId × NodeId))
    (key value : NodeId) : List (NodeId × NodeId) :=
  if entries.any fun e => sameKey cells e.1 key then
    entries.map fun e => if sameKey cells e.1 key then (e.1, value) else e
  else entries ++ [(key, value)]

/-- Creates the entries of a mapping, each key before its value. -/
def createEntries (id : NodeId) (n : GraphNode) : Construct (List (NodeId × NodeId)) := do
  let pairs ← mergedPairs id n
  pairs.foldlM (fun entries (key, value) => do
    create key
    let _ ← keyAtom n key
    create value
    return putEntry (← get).cells entries key value) []

/-- Creates pairs from a sequence of mappings with one pair each. -/
def createPairs (context : String) (n : GraphNode) : Construct (List (NodeId × NodeId)) := do
  match n.content with
  | .sequence items =>
    items.mapM fun item => do
      let m ← node item
      match m.content with
      | .mapping [(key, value)] =>
        create key
        create value
        return (key, value)
      | .mapping pairs =>
        failIn context n s!"expected a single mapping item, but found {pairs.length} items" m
      | other =>
        failIn context n s!"expected a mapping of length 1, but found {other.kindName}" m
  | other => failIn context n s!"expected a sequence, but found {other.kindName}" n

/-- Fills a container. -/
def fill (id : NodeId) : Construct Unit := do
  let n ← node id
  match n.tag with
  | .seq =>
    let items ← sequenceItems n
    items.forM create
    setCell id (.list items)
  | .map => setCell id (.map (← createEntries id n))
  | .set => setCell id (.set ((← createEntries id n).map Prod.fst))
  | .omap => setCell id (.pairs (← createPairs "while constructing an ordered map" n))
  | .pairs => setCell id (.pairs (← createPairs "while constructing pairs" n))
  | _ => pure ()

/-- Fills containers in the order of their creation.  Every node is filled at most once. -/
def fillPending : (fuel : Nat) → Construct Unit
  | 0 => pure ()
  | fuel + 1 => do
    let c ← get
    match c.pending with
    | [] => pure ()
    | id :: rest =>
      set { c with pending := rest }
      fill id
      fillPending fuel

/-- Creates the values of documents, one after another. -/
def documents (roots : List NodeId) : Construct Unit :=
  roots.forM fun root => do
    create root
    fillPending ((← get).nodes.size + 1)

end Construct

/-! ## Unfolding -/

/-- The nodes that are not open on the way to the current one. -/
def freeCount (size : Nat) (active : List NodeId) : Nat :=
  ((List.range size).filter fun i => !active.contains i).length

/-- Opening a node leaves fewer nodes that are not open. -/
theorem freeCount_cons_lt {size : Nat} {active : List NodeId} {id : NodeId} (h : id < size)
    (hn : id ∉ active) : freeCount size (id :: active) < freeCount size active := by
  unfold freeCount
  have hsplit : ((List.range size).filter fun i => !(id :: active).contains i) =
      ((List.range size).filter fun i => !active.contains i).filter fun i => i != id := by
    rw [List.filter_filter]
    congr 1
    funext i
    by_cases hi : i = id <;> simp [hi]
  rw [hsplit]
  have hmem : id ∈ (List.range size).filter fun i => !active.contains i := by
    simp [h, hn]
  exact List.length_filter_lt_length_iff_exists.mpr ⟨id, hmem, by simp⟩

/-- The atom of a cell; containers, which are no keys, count as null. -/
def Cell.atom? : Option Cell → Atom
  | some (.atom a _) => a
  | _ => .null

/-- What kind of container a cell is when it stands inside itself. -/
def Cell.container : Option Cell → Container
  | some (.map _) => .map
  | _ => .list

/-- The value of a node whose cells are complete; `active` are the containers around it.  The
entries of ordered maps are values of their own, from which one gets to the containers around them
anew: in the outermost entry, which is known by the node of its map and its index, `active` are
only the containers inside it. -/
def unfoldData (cells : Array (Option Cell)) (outerTuple? : Option (NodeId × Nat))
    (active : List NodeId) (id : NodeId) : Data :=
  if h : id ∈ active then .cycle (Cell.container (cells.getD id none))
  else if hid : id < cells.size then
    have := freeCount_cons_lt hid h
    match cells[id] with
    | none => .atom .null
    | some (.atom a _) => .atom a
    | some (.list items) =>
      .list id (items.map fun i => unfoldData cells outerTuple? (id :: active) i)
    | some (.map entries) =>
      .map id (entries.map fun (key, value) =>
        (Cell.atom? (cells.getD key none), unfoldData cells outerTuple? (id :: active) value))
    | some (.set members) => .set (members.map fun key => Cell.atom? (cells.getD key none))
    | some (.pairs entries) =>
      .list id (entries.zipIdx.map fun ((key, value), i) =>
        match outerTuple? with
        | none =>
          .tuple (unfoldData cells (some (id, i)) [] key)
            (unfoldData cells (some (id, i)) [] value)
        | some entry =>
          if entry = (id, i) then .cycle .tuple
          else
            .tuple (unfoldData cells (some entry) (id :: active) key)
              (unfoldData cells (some entry) (id :: active) value))
  else .atom .null
  termination_by (if outerTuple?.isNone then 1 else 0, freeCount cells.size active)

/-- The values of the documents of a graph. -/
def Graph.data (g : Graph) : Except Failure (List Data) := do
  let start : Construction := ⟨g.nodes, Array.replicate g.nodes.size none, []⟩
  let (_, c) ← (Construct.documents g.roots).run start
  return g.roots.map (unfoldData c.cells none [])

end KsyTools.Yaml
