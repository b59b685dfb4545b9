/-
# Include reports

What a description imports, and the types that are visible in it.
-/
import KsyTools.Json.Printer
import KsyTools.Ksy.Types

namespace KsyTools

/-- An import in a report. -/
structure ReportedImport where
  text : String
  path : String
  /-- Whether there is a description where the import leads. -/
  found : Bool
  line : Nat
  deriving Repr, DecidableEq

/-- A type in a report, and where it is defined. -/
structure ReportedType where
  name : String
  file : String
  line : Nat
  deriving Repr, DecidableEq

/-- What a description imports, and the types that are visible in it.  Lines count from one. -/
structure IncludeReport where
  file : Path
  imports : List ReportedImport
  types : List ReportedType
  deriving Repr, DecidableEq

namespace IncludeReport

/-- The entry for an import of a document. -/
def reportImport (d : Document) (i : Ksy.Include) : Work ReportedImport := do
  let found ← Work.findFile (Path.ofString i.path) (Text.quote i.path)
  return ⟨i.text, i.path, found.isSome, (d.position i.range.start).line + 1⟩

/-- The entry for a type. -/
def reportType (t : Ksy.Definition) : ReportedType :=
  let owner := t.document
  let file := (owner.file?.map Path.toString).getD owner.name
  ⟨t.key, file, (owner.position t.located.node.range.start).line + 1⟩

/-- The report about a document. -/
def ofDocument (p : Path) (d : Document) : Work IncludeReport := do
  let imports ← (← Ksy.includes d).mapM (reportImport d)
  let types ← Ksy.collectTypes d
  return ⟨p, imports, types.map reportType⟩

/-- The report about a file. -/
def ofFile (p : Path) : Work IncludeReport := do
  ofDocument p (← Work.loadDocument p).document

/-- A report as a JSON object. -/
def toJson (r : IncludeReport) : Json :=
  .obj [("file", .str r.file.toString),
    ("includes", .arr (r.imports.map fun i =>
      .obj [("import", .str i.text), ("path", .str i.path), ("exists", .bool i.found),
        ("line", .int i.line)])),
    ("types", .arr (r.types.map fun t =>
      .obj [("name", .str t.name), ("file", .str t.file), ("line", .int t.line)]))]

/-- Lines under a heading, or a note that there are none. -/
def orNone (lines : List String) : List String :=
  if lines.isEmpty then ["    (none)"] else lines

/-- The text of a report. -/
def render (r : IncludeReport) : String :=
  let imports := r.imports.map fun i =>
    s!"    {i.text} -> {i.path}" ++ if i.found then "" else " (missing)"
  let types := r.types.map fun t => s!"    {t.name} ({t.file}:{t.line})"
  "\n".intercalate
    ([s!"{r.file.toString}:", "  includes:"] ++ orNone imports ++ ["  types:"] ++ orNone types)

end IncludeReport

end KsyTools
