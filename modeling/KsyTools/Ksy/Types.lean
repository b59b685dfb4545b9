/-
# Visible types

The types that a description can use are those that it defines itself and those of the descriptions
that it imports, directly or through others.  Definitions are collected on a walk through the
document that follows imports where they stand.  Every document is entered once, so imports may
form circles.
-/
import KsyTools.Ksy.Import

namespace KsyTools

namespace Ksy

/-- A type definition: a key in a block of definitions, and the document that it stands in. -/
structure Definition where
  document : Document
  located : Located
  deriving Inhabited

/-- The name of the defined type. -/
def Definition.key (d : Definition) : String :=
  d.located.node.text

/-- What a walk has found so far. -/
structure Collected where
  /-- The documents that were entered.  A text without a file is only known to itself. -/
  visited : List (Option Path)
  types : List Definition

/-- The computations of a walk. -/
abbrev Collect := StateT Collected Work

/-- What tells documents apart. -/
def documentKey (t : FileTree) (d : Document) : Option Path :=
  d.file?.map t.documentKey

/-- The definitions in a block of definitions. -/
def blockDefinitions (d : Document) (block : Located) : List Definition :=
  match block.node.value? with
  | some body =>
    let inside : Located := block.child 0 body
    (body.children.zipIdx.filter fun (n, _) => n.is .keyValue).map fun (n, i) =>
      ⟨d, inside.child i n⟩
  | none => []

mutual

/-- Visits a node and all nodes inside it; `follow` is done at every import. -/
def visitNode (d : Document) (follow : Located → Collect Unit) (ancestors : List Node)
    (path : List Nat) : Node → Collect Unit
  | n@(.scalar ..) => do
    let l : Located := ⟨n, ancestors, path⟩
    if l.isImport then follow l
  | n@(.sequence _ _ items) => visitNodes d follow (n :: ancestors) path 0 items
  | n@(.mapping _ _ pairs) => visitNodes d follow (n :: ancestors) path 0 pairs
  | n@(.keyValue _ _ _ _ value) => do
    let l : Located := ⟨n, ancestors, path⟩
    if l.isTypesBlock then
      modify fun c => { c with types := c.types ++ blockDefinitions d l }
    visitNode d follow (n :: ancestors) (0 :: path) value

/-- Visits siblings, numbered from `index` on, and all nodes inside them. -/
def visitNodes (d : Document) (follow : Located → Collect Unit) (ancestors : List Node)
    (path : List Nat) (index : Nat) : List Node → Collect Unit
  | [] => pure ()
  | n :: rest => do
    visitNode d follow ancestors (index :: path) n
    visitNodes d follow ancestors path (index + 1) rest

end

/-- The source of the log records about the walk. -/
def collectLogSource : String := "kaitai.types_collector"

/-- Follows an import of a document: `visit` enters the document that it leads to, if that was not
entered yet. -/
def followImport (visit : Document → Collect Unit) (d : Document) (l : Located) :
    Collect Unit := do
  let resolved ← resolveImport l.node.text d
  match resolved.target? with
  | none => pure ()
  | some target =>
    if (← get).visited.contains (documentKey (← read) target.document) then
      Work.log (.debug collectLogSource s!"Skipping already visited import {resolved.path}")
    else visit target.document

/-- Enters a document and, at its imports, the documents that were not entered yet.  At most
`depth` documents are entered inside each other. -/
def visitDocument : (depth : Nat) → Document → Collect Unit
  | 0, _ => pure ()
  | depth + 1, d => do
    let t ← read
    modify fun c => { c with visited := documentKey t d :: c.visited }
    visitNodes d (followImport (visitDocument depth) d) [] [] 0 d.roots

/-- A bound on the number of documents that a walk can enter: the one that it starts with, those
that the store holds, and one for the root and for every entry of the file tree. -/
def documentBound (t : FileTree) (s : DocumentStore) : Nat :=
  2 + s.overlays.length + s.cache.length + t.root.waysBelow.length

/-- What a walk from a document finds. -/
def walkImports (d : Document) : Work Collected := do
  let bound := documentBound (← read) (← get).store
  let (_, c) ← (visitDocument bound d).run ⟨[], []⟩
  return c

/-- The definitions that a walk from a document finds, in the order in which it finds them. -/
def walkTypes (d : Document) : Work (List Definition) := do
  return (← walkImports d).types

/-- The types that are visible in a document; there are none in other files. -/
def collectTypes (d : Document) : Work (List Definition) :=
  if d.isKsy then walkTypes d else return []

end Ksy

end KsyTools
