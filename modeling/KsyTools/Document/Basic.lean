/-
# Documents

A document is a text, where it came from, and what was found in it: a tree of nodes and a value for
each YAML document of the text, or the reason why there are none.
-/
import KsyTools.Document.OfGraph
import KsyTools.Document.Position
import KsyTools.Path.Basic
import KsyTools.Yaml.Graph.OfTokens

namespace KsyTools

/-- A parsed text. -/
structure Document where
  source : String
  /-- The file that the text belongs to. -/
  file? : Option Path
  name : String
  /-- The tree of each YAML document. -/
  roots : List Node
  /-- The value of each YAML document. -/
  data : List Yaml.Data
  /-- Why the text could not be read. -/
  failure? : Option Yaml.Failure
  deriving Repr, Inhabited

namespace Document

/-- The characters of the text. -/
def chars (d : Document) : List Char :=
  d.source.toList

/-- The wording of a failure. -/
def failureMessage (source : List Char) : Yaml.Failure → String
  | .character c offset => Yaml.characterMessage c offset
  | .marked p => p.message source
  | .tooDeep => "YAML nesting is too deep"
  | .scalar fault => fault.message

/-- The wording of the failure of a document. -/
def parseError? (d : Document) : Option String :=
  d.failure?.map (failureMessage d.chars)

/-- Where a document could not be read further. -/
def errorPosition? (d : Document) : Option Position :=
  match d.failure? with
  | some (.marked p) => some (Yaml.positionAt d.chars p.problemAt)
  | _ => none

/-- A document with nothing found in it yet. -/
def empty (source : String) (file? : Option Path) (name? : Option String) : Document :=
  ⟨source, file?, name?.getD ((file?.map Path.name).getD ""), [], [], none⟩

/-- The trees and values of a text. -/
def contents (source : List Char) : Except Yaml.Failure (List Node × List Yaml.Data) := do
  let graph ← Yaml.Graph.ofText source
  let data ← graph.data
  return (graph.roots.map (Node.ofGraph graph (Yaml.positionAt source) []), data)

/-- Parses a text.  What is not well formed is recorded in the document; only a scalar that has no
value is an error. -/
def parse (source : String) (file? : Option Path) (name? : Option String) :
    Except Yaml.ScalarFault Document :=
  let d := empty source file? name?
  match contents source.toList with
  | .ok (roots, data) => .ok { d with roots, data }
  | .error (.scalar fault) => .error fault
  | .error failure => .ok { d with failure? := some failure }

/-- The tree of the only YAML document of a text. -/
def topLevel? (d : Document) : Option Node :=
  match d.roots with
  | [root] => some root
  | _ => none

/-- The directory that the text is in. -/
def directory? (d : Document) : Option Path :=
  d.file?.map Path.parent

/-- The lines of the text. -/
def lines (d : Document) : List (List Char) :=
  Text.splitLines d.chars

/-- All nodes, each before those inside it. -/
def walk (d : Document) : List Located :=
  Node.walkAll [] [] 0 d.roots

/-- The innermost node at an offset. -/
def nodeAt? (d : Document) (offset : Int) : Option Located :=
  Node.deepestAmong offset [] [] 0 d.roots

/-- The position of an offset. -/
def position (d : Document) (offset : Int) : Position :=
  offsetToPosition d.chars offset

/-- The offset of a position. -/
def offset (d : Document) (line character : Int) : Nat :=
  positionToOffset d.chars line character

end Document

/-- A step of a path into a document: a key, or an index if it is a whole number. -/
structure PathToken where
  text : String
  index? : Option Int
  deriving Repr, DecidableEq

namespace PathToken

/-- A key. -/
def ofKey (key : String) : PathToken :=
  ⟨key, none⟩

/-- An index. -/
def ofIndex (n : Int) : PathToken :=
  ⟨toString n, some n⟩

end PathToken

namespace Node

/-- The value or item that a step leads to. -/
def step? (n : Node) (token : PathToken) : Option Node :=
  match n with
  | .mapping .. => (n.keyValues.find? (·.hasKey token.text)).bind value?
  | .sequence _ _ items =>
    match token.index? with
    | some (.ofNat i) => items[i]?
    | _ => none
  | _ => none

/-- Follows a path as far as it leads. -/
def follow (n : Node) : List PathToken → Node
  | [] => n
  | token :: rest =>
    match n.step? token with
    | some next => next.follow rest
    | none => n

end Node

/-- The node that a path leads to from the top of a document, or the last one on the way that
exists. -/
def Document.nodeAtPath? (d : Document) (path : List PathToken) : Option Node :=
  d.topLevel?.map fun root => root.follow path

end KsyTools
