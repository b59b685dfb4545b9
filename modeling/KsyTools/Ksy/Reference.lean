/-
# References

A scalar can refer to something else: an import to another document, the value of a `type` key to a
type definition, unless it names a standard type.
-/
import KsyTools.Ksy.KnownType

namespace KsyTools.Ksy

/-- A reference and the scalar that carries it. -/
inductive Reference where
  | toDocument (element : Located)
  | toType (element : Located) (types : List Definition)

namespace Reference

/-- The scalar that carries a reference. -/
def element : Reference → Located
  | .toDocument element => element
  | .toType element _ => element

/-- The text of the scalar. -/
def text (r : Reference) : String :=
  r.element.node.text

/-- Where a reference stands. -/
def range (r : Reference) : TextRange :=
  r.element.node.range

/-- What an entry of a block sequence starts with. -/
def itemMarker : String := "- "

/-- Where a reference stands within its scalar.  Behind the marker of a list item the range is
measured from that marker and shifted by its width. -/
def rangeInElement (source : List Char) (r : Reference) : TextRange :=
  match r with
  | .toType .. => .ofLength 0 r.range.length
  | .toDocument _ =>
    let width : Int := itemMarker.length
    let start := r.range.start - width
    if 0 ≤ start ∧ Text.slice source start r.range.start = itemMarker.toList then
      (r.range.shiftLeft start).shiftLeft width
    else r.range.shiftLeft r.range.start

end Reference

/-- The first definition whose name is exactly the given one. -/
def findDefinition? (types : List Definition) (name : String) : Option Definition :=
  types.find? fun d => d.located.node.hasKey name

/-- Whether a node uses a type that has to be defined. -/
def usesCustomType (l : Located) : Bool :=
  l.isTypeUse && !isStandardType l.node.text

/-- The references of a node of a document, given how to get the visible types. -/
def referencesWith (d : Document) (l : Located) (types : Work (List Definition)) :
    Work (List Reference) := do
  if !l.node.is .scalar || !d.isKsy then return []
  let imports := if l.isImport then [Reference.toDocument l] else []
  if usesCustomType l then return imports ++ [.toType l (← types)] else return imports

/-- The references of a node of a document. -/
def nodeReferences (d : Document) (l : Located) : Work (List Reference) :=
  referencesWith d l (collectTypes d)

/-- Goes through the references of nodes in order; the visible types are collected once, when they
are needed first, and `known` are those collected so far. -/
def forReferences {β : Type} (d : Document) (each : Reference → Work (List β)) :
    (known : Option (List Definition)) → List Located → Work (List β)
  | _, [] => return []
  | known, l :: rest => do
    let known ←
      match known with
      | some types => pure (some types)
      | none => if usesCustomType l then some <$> collectTypes d else pure none
    let references ← referencesWith d l (return known.getD [])
    let here ← references.mapM each
    return here.flatten ++ (← forReferences d each known rest)

/-- All references of a document, in the order of the text. -/
def references (d : Document) : Work (List Reference) :=
  forReferences d (fun r => return [r]) none d.walk

/-- The reference at an offset. -/
def referenceAt? (d : Document) (offset : Int) : Work (Option Reference) := do
  match d.nodeAt? offset with
  | none => return none
  | some l => return (← nodeReferences d l).head?

end KsyTools.Ksy
