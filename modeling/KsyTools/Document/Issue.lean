/-
# Issues

What is wrong with a document, and where.  The path to a value is given as one text, its pointer:
every step behind a slash, with `~0` for a tilde and `~1` for a slash inside a step.
-/
import KsyTools.Document.Basic

namespace KsyTools

namespace Pointer

/-- The text of a character inside a step. -/
def escapeChar (c : Char) : List Char :=
  if c = '~' then ['~', '0'] else if c = '/' then ['~', '1'] else [c]

/-- The text of a step. -/
def escape (token : List Char) : List Char :=
  token.flatMap escapeChar

/-- The text of a path. -/
def render (tokens : List String) : String :=
  String.ofList (tokens.flatMap fun token => '/' :: escape token.toList)

end Pointer

/-- How serious an issue is. -/
inductive Severity where
  | error
  | warning
  deriving Repr, DecidableEq

/-- The name of a severity. -/
def Severity.name : Severity → String
  | .error => "error"
  | .warning => "warning"

/-- What is wrong with a document. -/
structure Issue where
  message : String
  /-- The pointer to the value that the issue is about, where it is about one. -/
  pointer? : Option String
  range? : Option TextRange
  position : Position
  severity : Severity
  deriving Repr, DecidableEq

/-- An issue about a node, which is pointed at by its key if it has one; without a node the issue is
about the start of the text. -/
def Issue.about (d : Document) (node? : Option Node) (message : String)
    (pointer? : Option String) (severity : Severity) : Issue :=
  match node? with
  | none => ⟨message, pointer?, none, ⟨0, 0⟩, severity⟩
  | some n => ⟨message, pointer?, some n.nameRange, d.position n.nameRange.start, severity⟩

end KsyTools
