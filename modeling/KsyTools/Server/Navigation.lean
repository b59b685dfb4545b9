/-
# Links and definitions

Imports that lead to a document are links; an import or the use of a type can be followed to what it
refers to.
-/
import KsyTools.Server.Basic

namespace KsyTools

/-- An import that can be followed. -/
structure DocumentLink where
  extent : Extent
  target : String
  tooltip : String
  deriving Repr, DecidableEq

/-- A place in a document. -/
structure Location where
  uri : String
  extent : Extent
  deriving Repr, DecidableEq

namespace Serve

/-- The document of a URI, from an editor or from disk. -/
def documentOf (uri : String) : Serve (Option Document) := do
  let path ← pathOf uri
  return (← work (Work.getDocument (Path.ofString path))).map StoredDocument.document

/-- The URI of the file of a document. -/
def uriOfDocument? (d : Document) : Work (Option String) :=
  match d.file? with
  | none => return none
  | some file =>
    match FileUri.ofPath file with
    | .ok uri => return some uri
    | .error fault => throw (.address fault)

/-- The link of a reference in a document, if it is an import that leads to a file. -/
def linkOf (d : Document) (r : Ksy.Reference) : Work (List DocumentLink) := do
  match r with
  | .toType .. => return []
  | .toDocument _ =>
    match (← Ksy.resolveImport r.text d).target? with
    | none => return []
    | some target =>
      match ← uriOfDocument? target.document with
      | none => return []
      | some uri => return [⟨d.extent r.range, uri, ← Ksy.computeImportPath r.text d⟩]

/-- The links of a document. -/
def links (uri : String) : Serve (List DocumentLink) := do
  match ← documentOf uri with
  | none => return []
  | some d => work (Ksy.forReferences d (linkOf d) none d.walk)

/-- The start of a text. -/
def startExtent : Extent :=
  ⟨⟨0, 0⟩, ⟨0, 0⟩⟩

/-- What a reference in a document leads to: the start of a document, or the name of a type. -/
def locationOf (d : Document) (r : Ksy.Reference) : Work (Option Location) := do
  match r with
  | .toDocument _ =>
    match (← Ksy.resolveImport r.text d).target? with
    | none => return none
    | some target => return (← uriOfDocument? target.document).map fun uri => ⟨uri, startExtent⟩
  | .toType _ types =>
    match Ksy.findDefinition? types r.text with
    | none => return none
    | some t =>
      return (← uriOfDocument? t.document).map fun uri =>
        ⟨uri, t.document.extent t.located.node.nameRange⟩

/-- What the reference at a place leads to. -/
def definition (uri : String) (place : Place) : Serve (Option Location) := do
  match ← documentOf uri with
  | none => return none
  | some d =>
    let offset := d.offset place.line place.character
    match ← work (Ksy.referenceAt? d offset) with
    | none => return none
    | some r => work (locationOf d r)

end Serve

end KsyTools
