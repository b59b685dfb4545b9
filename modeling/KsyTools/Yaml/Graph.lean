/-
# Node graphs

What a YAML stream describes: nodes with tags, places and contents.  An alias is the anchored node
itself, so nodes can be shared and can even contain themselves; nodes are therefore numbered, and
contents refer to nodes by number.
-/
import KsyTools.Yaml.Tag
import KsyTools.Yaml.Token

namespace KsyTools.Yaml

/-- The number of a node in its graph. -/
abbrev NodeId := Nat

/-- What a node holds. -/
inductive Content where
  | scalar (text : String)
  | sequence (items : List NodeId)
  | mapping (pairs : List (NodeId × NodeId))
  deriving Repr, DecidableEq, Inhabited

/-- A node: its tag, its content, and the offsets of its start and end. -/
structure GraphNode where
  tag : Tag
  content : Content
  start : Nat
  stop : Nat
  deriving Repr, DecidableEq, Inhabited

/-- How a kind of node is called in messages. -/
def Content.kindName : Content → String
  | .scalar _ => "scalar"
  | .sequence _ => "sequence"
  | .mapping _ => "mapping"

/-- The nodes of a stream, by number, and the top node of each document. -/
structure Graph where
  nodes : Array GraphNode
  roots : List NodeId
  deriving Repr, Inhabited

/-- The node with a number. -/
def Graph.get? (g : Graph) (id : NodeId) : Option GraphNode :=
  g.nodes[id]?

end KsyTools.Yaml
