/-
# Validation

A description is checked in two ways: against the grammar, which gives errors, and for references
that lead nowhere, which gives warnings.
-/
import KsyTools.Document.Issue
import KsyTools.Ksy.Reference
import KsyTools.Schema.Findings

namespace KsyTools.Ksy

/-- The issue for a finding. -/
def findingIssue (d : Document) (f : Finding) : Issue :=
  .about d (d.nodeAtPath? f.path) f.message
    (some (Pointer.render (f.path.map PathToken.text))) .error

/-- The issues of a value under a grammar; there is no answer for a value that contains itself. -/
def grammarIssues (g : Grammar) (d : Document) (v : Yaml.Data) : Except Failure (List Issue) := do
  let findings ← g.findings (← Value.ofData v)
  return findings.map (findingIssue d)

/-- Checks a document against the grammar.  Only descriptions that could be read and that have
exactly one YAML document are checked. -/
def validateGrammar (d : Document) : Work (List Issue) := do
  if !d.isKsy || d.failure?.isSome then return []
  match d.roots, d.data with
  | [_], [v] =>
    let g ← Work.grammar
    match grammarIssues g d v with
    | .ok issues => return issues
    | .error failure => throw failure
  | roots, _ =>
    Work.log (.debug "schema.ksy_schema"
      s!"Skipping schema validation of {d.name}: {roots.length} documents")
    return []

/-- The warning about a reference that leads nowhere. -/
def referenceIssue (d : Document) (r : Reference) : Work (List Issue) := do
  let warning (message : String) : List Issue :=
    [.about d (some r.element.node) message none .warning]
  match r with
  | .toDocument _ =>
    let resolved ← resolveImport r.text d
    if resolved.target?.isSome then return []
    let path ← computeImportPath r.text d
    return warning s!"Cannot resolve import '{r.text}' ({path})"
  | .toType _ types =>
    if (findDefinition? types r.text).isSome || isKnownType r.text types then return []
    return warning s!"Unknown type '{r.text}'"

/-- Finds the references of a description that lead nowhere. -/
def validateReferences (d : Document) : Work (List Issue) := do
  if !d.isKsy || d.failure?.isSome then return []
  let issues ← forReferences d (referenceIssue d) none d.walk
  Work.log (.debug "kaitai.reference_checks"
    s!"Found {issues.length} unresolved references in {d.name}")
  return issues

end KsyTools.Ksy
