/-
# Document nodes from node graphs

The tree of a document unfolds the node graph along items and values: every occurrence of a shared
node gets a copy of its own.  Where a node occurs inside itself, the inner occurrence becomes an
empty scalar with the range of that node.
-/
import KsyTools.Document.Node
import KsyTools.Yaml.Data.OfGraph

namespace KsyTools

open Yaml (Graph GraphNode NodeId freeCount freeCount_cons_lt)

namespace Node

/-- The range of a node of a graph. -/
def rangeOf (n : GraphNode) : TextRange :=
  .ofOffsets n.start n.stop

/-- The key-value node for a pair: it starts with the key and ends with the key or the value,
whichever ends later.  A key that is no scalar has no name. -/
def ofPair (placeAt : Nat → Position) (key : GraphNode) (value : Node) : Node :=
  let keyRange := rangeOf key
  let name :=
    match key.content with
    | .scalar text => text
    | _ => ""
  .keyValue ⟨keyRange.start, max keyRange.stop value.range.stop⟩ (placeAt key.start) name keyRange
    value

/-- The tree below a node of a graph; `active` are the nodes around it. -/
def ofGraph (g : Graph) (placeAt : Nat → Position) (active : List NodeId) (id : NodeId) :
    Node :=
  if hid : id < g.nodes.size then
    let n := g.nodes[id]
    if h : id ∈ active then .scalar (rangeOf n) (placeAt n.start) ""
    else
      have := freeCount_cons_lt hid h
      match n.content with
      | .scalar text => .scalar (rangeOf n) (placeAt n.start) text
      | .sequence items =>
        .sequence (rangeOf n) (placeAt n.start)
          (items.map fun i => ofGraph g placeAt (id :: active) i)
      | .mapping pairs =>
        .mapping (rangeOf n) (placeAt n.start)
          (pairs.map fun (key, value) =>
            ofPair placeAt (g.nodes.getD key default) (ofGraph g placeAt (id :: active) value))
  else .scalar ⟨0, 0⟩ ⟨0, 0⟩ ""
  termination_by freeCount g.nodes.size active

end Node

end KsyTools
