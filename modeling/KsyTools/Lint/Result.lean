/-
# Lint results

What is reported about one file: errors and warnings, each with a place if it has one.
-/
import KsyTools.Document.Issue

namespace KsyTools

/-- Something to report about a file.  Lines and columns are counted from one. -/
structure LintEntry where
  message : String
  line? : Option Nat
  column? : Option Nat
  /-- The path to the value that the entry is about, where it is about one below the top. -/
  pointer? : Option String
  deriving Repr, DecidableEq

namespace LintEntry

/-- An entry about a file as a whole. -/
def ofMessage (message : String) : LintEntry :=
  ⟨message, none, none, none⟩

/-- The entry for an issue. -/
def ofIssue (i : Issue) : LintEntry :=
  ⟨i.message, some (i.position.line + 1), some (i.position.column + 1),
    i.pointer?.filter (· != "")⟩

end LintEntry

/-- What is reported about one file. -/
structure LintResult where
  file : Path
  errors : List LintEntry
  warnings : List LintEntry
  deriving Repr, DecidableEq

namespace LintResult

/-- Nothing is reported. -/
def empty (file : Path) : LintResult :=
  ⟨file, [], []⟩

/-- Adds an error. -/
def addError (r : LintResult) (e : LintEntry) : LintResult :=
  { r with errors := r.errors ++ [e] }

/-- Adds a warning. -/
def addWarning (r : LintResult) (e : LintEntry) : LintResult :=
  { r with warnings := r.warnings ++ [e] }

/-- Adds an issue as an error or a warning. -/
def addIssue (r : LintResult) (i : Issue) : LintResult :=
  match i.severity with
  | .error => r.addError (.ofIssue i)
  | .warning => r.addWarning (.ofIssue i)

/-- Adds issues in order. -/
def addIssues (r : LintResult) (issues : List Issue) : LintResult :=
  issues.foldl addIssue r

/-- Whether there are no errors. -/
def ok (r : LintResult) : Bool :=
  r.errors.isEmpty

end LintResult

end KsyTools
