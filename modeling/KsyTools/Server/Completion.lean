/-
# Completion in the editor

What can follow a path that is being typed in a list of imports, as edits of the text.
-/
import KsyTools.Ksy.Completion
import KsyTools.Server.Basic

namespace KsyTools

/-- A completion that an editor can offer: the text in a range is replaced. -/
structure CompletionItem where
  label : String
  isDirectory : Bool
  detail : String
  extent : Extent
  deriving Repr, DecidableEq

/-- The completions for a place. -/
structure CompletionList where
  /-- Whether more can follow once one of them is taken. -/
  incomplete : Bool
  items : List CompletionItem
  deriving Repr, DecidableEq

namespace CompletionItem

/-- The item for a candidate. -/
def ofCandidate (extent : Extent) (c : Ksy.Candidate) : CompletionItem :=
  let detail :=
    if c.isDirectory then "Directory" else s!"Kaitai Struct schema ({c.label}{Ksy.extension})"
  ⟨c.label, c.isDirectory, detail, extent⟩

end CompletionItem

namespace Serve

/-- The text of a document: that of its buffer, or else that of its file. -/
def textOf (uri : String) : Serve String := do
  match (← get).buffer? uri with
  | some text => return text
  | none =>
    match FileUri.diskPath uri with
    | .error fault => throw (.address fault)
    | .ok path =>
      match (← read).readTextAt path with
      | .ok text => return text
      | .error e => throw (.file e)

/-- What can follow at a place. -/
def completion (uri : String) (place : Place) : Serve CompletionList := do
  let path := Path.ofString (← pathOf uri)
  if !Ksy.isFile path then return ⟨false, []⟩
  let lines := Text.splitLinesKeepingEnds (← textOf uri).toList
  match Ksy.typedPath? lines place.line place.character with
  | none => return ⟨false, []⟩
  | some typed =>
    let extent : Extent := ⟨⟨place.line, place.character - typed.length⟩, place⟩
    let found ← work (Ksy.completions (String.ofList typed) path.parent)
    return ⟨true, found.map (CompletionItem.ofCandidate extent)⟩

end Serve

end KsyTools
