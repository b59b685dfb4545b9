/-
# Writing lint results

Three formats: for people, as JSON, and as the annotations that a build service understands.
-/
import KsyTools.Json.Printer
import KsyTools.Lint.Result

namespace KsyTools

/-- The formats of lint results. -/
inductive LintFormat where
  | human
  | json
  | annotations
  deriving Repr, DecidableEq

/-- The format with a name; every unknown name stands for the one for people. -/
def LintFormat.ofName (name : String) : LintFormat :=
  match name with
  | "json" => .json
  | "github-actions" => .annotations
  | _ => .human

namespace LintEntry

/-- An entry as a JSON object; what is not known is left out. -/
def toJson (e : LintEntry) : Json :=
  .obj (("message", .str e.message) ::
    ((e.line?.map fun n => ("line", Json.int n)).toList ++
      (e.column?.map fun n => ("column", Json.int n)).toList ++
      (e.pointer?.map fun p => ("yaml_path", Json.str p)).toList))

/-- An entry as a line for people. -/
def humanLine (label : String) (e : LintEntry) : String :=
  let place := (e.line?.map fun n => s!":{n}").getD ""
  s!"  {label}{place}: {e.message}"

/-- An entry as an annotation. -/
def annotation (label : String) (file : Path) (e : LintEntry) : String :=
  s!"::{label} file={file.toString},line={e.line?.getD 1}::{e.message}"

end LintEntry

namespace LintResult

/-- The entries of a file as a JSON object. -/
def toJson (r : LintResult) : Json :=
  .obj [("file", .str r.file.toString), ("errors", .arr (r.errors.map LintEntry.toJson)),
    ("warnings", .arr (r.warnings.map LintEntry.toJson))]

/-- The lines of a file for people, under a heading; there are none where nothing is reported. -/
def humanLines (r : LintResult) : List String :=
  if r.errors.isEmpty && r.warnings.isEmpty then []
  else s!"\n{r.file.toString}:" ::
    (r.errors.map (LintEntry.humanLine "ERROR") ++ r.warnings.map (LintEntry.humanLine "WARNING"))

/-- The annotations of a file. -/
def annotationLines (r : LintResult) : List String :=
  r.errors.map (LintEntry.annotation "error" r.file) ++
    r.warnings.map (LintEntry.annotation "warning" r.file)

/-- The results of several files as a JSON object with totals. -/
def listToJson (results : List LintResult) : Json :=
  .obj [("files", .int results.length),
    ("errors", .int (results.flatMap LintResult.errors).length),
    ("warnings", .int (results.flatMap LintResult.warnings).length),
    ("results", .arr (results.map toJson))]

/-- The text of results. -/
def render (format : LintFormat) (results : List LintResult) : String :=
  match format with
  | .json => (listToJson results).pretty
  | .annotations => "\n".intercalate (results.flatMap annotationLines)
  | .human => "\n".intercalate (results.flatMap humanLines)

end LintResult

end KsyTools
