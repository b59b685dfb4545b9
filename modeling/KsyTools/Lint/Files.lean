/-
# Linting files

A file is read, checked for being exactly one well-formed YAML document, checked against the
grammar, and its references are followed.
-/
import KsyTools.Ksy.Validation
import KsyTools.Lint.Result

namespace KsyTools

namespace LintResult

/-- Adds what is wrong with the YAML of a document, or with the number of YAML documents. -/
def addSyntax (r : LintResult) (d : Document) : LintResult :=
  match d.parseError?, d.roots with
  | some message, _ =>
    let place := d.errorPosition?
    r.addError ⟨s!"YAML syntax error: {message}", place.map (·.line + 1), place.map (·.column + 1),
      none⟩
  | none, [] => r.addError (.ofMessage "Empty schema file")
  | none, [_] => r
  | none, roots =>
    r.addWarning (.ofMessage
      s!"File contains {roots.length} YAML documents; schema validation skipped")

end LintResult

namespace Lint

/-- Adds what is wrong with a document.  Without a grammar nothing else is checked. -/
def document (checkReferences : Bool) (d : Document) (r : LintResult) : Work LintResult := do
  let r := r.addSyntax d
  try
    let r := r.addIssues (← Ksy.validateGrammar d)
    if checkReferences then return r.addIssues (← Ksy.validateReferences d) else return r
  catch
    | .schema fault => return r.addError (.ofMessage s!"Cannot validate: {fault.message}")
    | other => throw other

/-- The document of a file, or why there is none. -/
def load (p : Path) : Work (Except DocumentFault Document) := do
  try return .ok (← Work.loadDocument p).document
  catch
    | .document fault => return .error fault
    | other => throw other

/-- Checks a file. -/
def file (checkReferences : Bool) (p : Path) : Work LintResult := do
  match ← load p with
  | .error fault => return (LintResult.empty p).addError (.ofMessage fault.message)
  | .ok d => document checkReferences d (.empty p)

/-- Checks files in order. -/
def files (checkReferences : Bool) (paths : List Path) : Work (List LintResult) :=
  paths.mapM (file checkReferences)

end Lint

end KsyTools
