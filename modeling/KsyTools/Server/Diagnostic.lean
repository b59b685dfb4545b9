/-
# Diagnostics

Issues in the form in which editors show them.
-/
import KsyTools.Ksy.Validation

namespace KsyTools

/-- A place in an editor. -/
structure Place where
  line : Int
  character : Int
  deriving Repr, DecidableEq

/-- A range in an editor. -/
structure Extent where
  start : Place
  stop : Place
  deriving Repr, DecidableEq

/-- The place of a position. -/
def Position.place (p : Position) : Place :=
  ⟨p.line, p.column⟩

/-- The range of a text in an editor. -/
def Document.extent (d : Document) (r : TextRange) : Extent :=
  ⟨(d.position r.start).place, (d.position r.stop).place⟩

/-- A whole line, or the first character of the text where there is no such line. -/
def lineExtent (lines : List (List Char)) (line : Int) : Extent :=
  match line with
  | .ofNat n =>
    match lines[n]? with
    | some cs => ⟨⟨n, 0⟩, ⟨n, max cs.length 1⟩⟩
    | none => ⟨⟨0, 0⟩, ⟨0, 1⟩⟩
  | .negSucc _ => ⟨⟨0, 0⟩, ⟨0, 1⟩⟩

/-- What an editor shows about a document. -/
structure Diagnostic where
  extent : Extent
  message : String
  severity : Severity
  deriving Repr, DecidableEq

namespace Diagnostic

/-- How diagnostics say where they come from. -/
def origin : String := "ksy"

/-- The diagnostic for an issue; a path that is not empty is added to the message. -/
def ofIssue (d : Document) (i : Issue) : Diagnostic :=
  let extent :=
    match i.range? with
    | some r => d.extent r
    | none => lineExtent d.lines i.position.line
  let message :=
    match i.pointer? with
    | some "" => i.message
    | some pointer => s!"{i.message} (at {pointer})"
    | none => i.message
  ⟨extent, message, i.severity⟩

/-- The diagnostic for a document that could not be read. -/
def ofParseError? (d : Document) : Option Diagnostic :=
  d.parseError?.map fun message =>
    let line : Int := (d.errorPosition?.map fun p => (p.line : Int)).getD 0
    ⟨lineExtent d.lines line, s!"YAML syntax error: {message}", .error⟩

/-- All diagnostics of a document.  Where there is no grammar, references are still checked. -/
def all (d : Document) : Work (List Diagnostic) := do
  if !d.isKsy then return []
  match ofParseError? d with
  | some problem => return [problem]
  | none =>
    let errors ←
      try Ksy.validateGrammar d
      catch
        | .schema fault =>
          Work.log (.error "server.validation_engine"
            s!"Schema validation unavailable: {fault.message}")
          pure []
        | other => throw other
    let warnings ← Ksy.validateReferences d
    return (errors ++ warnings).map (ofIssue d)

end Diagnostic

end KsyTools
