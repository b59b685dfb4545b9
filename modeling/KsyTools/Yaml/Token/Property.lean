/-
# Anchors, aliases and tags

The properties that may stand in front of a node, and the aliases that may stand in its place.
-/
import KsyTools.Text.Utf8
import KsyTools.Yaml.Token
import KsyTools.Yaml.Token.Quoted

namespace KsyTools.Yaml

/-- Reads the name behind an anchor or alias indicator. -/
def anchorName (context : String) (start : Nat) : Scan String := do
  Scan.skip 1
  let name ← Scan.takeWhile isNameChar
  let ch ← Scan.peek
  let follows := isGap ch || ch ∈ ['?', ':', ',', ']', '\x7d', '%', '@', '\x60']
  if name.isEmpty || !follows then
    Scan.failFound context start "alphabetic or numeric character" ch
  return String.ofList name

/-- Reads an anchor. -/
def anchorToken : Scan Token := do
  let start ← Scan.index
  let name ← anchorName "while scanning an anchor" start
  return ⟨.anchor name, start, ← Scan.index⟩

/-- Reads an alias. -/
def aliasToken : Scan Token := do
  let start ← Scan.index
  let name ← anchorName "while scanning an alias" start
  return ⟨.alias name, start, ← Scan.index⟩

/-- Characters of a URI, the percent sign included. -/
def isUriChar (c : Char) : Bool :=
  c.isAlphanum || c ∈ ['-', ';', '/', '?', ':', '@', '&', '=', '+', '$', ',', '_', '.', '!', '~',
    '*', '\x27', '(', ')', '[', ']', '%']

/-- Reads a handle: exclamation marks around an optional name. -/
def tagHandle (part : String) (start : Nat) : Scan String := do
  let context := s!"while scanning a {part}"
  let ch ← Scan.peek
  if ch != '!' then Scan.failFound context start "'!'" ch
  Scan.skip 1
  if (← Scan.peek) = ' ' then return "!"
  let name ← Scan.takeWhile isNameChar
  let ch ← Scan.peek
  if ch != '!' then Scan.failFound context start "'!'" ch
  Scan.skip 1
  return "!" ++ String.ofList name ++ "!"

/-- Reads the bytes of consecutive percent escapes. -/
def escapedBytes (context : String) (start : Nat) : (fuel : Nat) → Scan (List UInt8)
  | 0 => return []
  | fuel + 1 => do
    if (← Scan.peek) = '%' then
      Scan.skip 1
      let n ← hexNumber 2 fun c =>
        Scan.failFound context start "URI escape sequence of 2 hexadecimal numbers" c
      return UInt8.ofNat n :: (← escapedBytes context start fuel)
    else return []

/-- Reads the pieces of a URI: runs of characters, and runs of percent escapes. -/
def uriPieces (context : String) (start : Nat) : (fuel : Nat) → Scan (List (List Char))
  | 0 => return []
  | fuel + 1 => do
    if (← Scan.peek) = '%' then
      let here ← Scan.index
      let bytes ← escapedBytes context start ((← Scan.remaining) + 1)
      match Text.decodeUtf8 bytes with
      | .ok text => return text.toList :: (← uriPieces context start fuel)
      | .error e => throw (.marked ⟨some context, some start, e.message, here⟩)
    else
      let run ← Scan.takeWhile fun c => isUriChar c && c != '%'
      if run.isEmpty then return []
      else return run :: (← uriPieces context start fuel)

/-- Reads a URI. -/
def tagUri (part : String) (start : Nat) : Scan String := do
  let pieces ← uriPieces s!"while scanning a {part}" start ((← Scan.remaining) + 1)
  if pieces.isEmpty then
    Scan.failFound s!"while parsing a {part}" start "URI" (← Scan.peek)
  return String.ofList pieces.flatten

/-- Reads a tag. -/
def tagToken : Scan Token := do
  let start ← Scan.index
  let next ← Scan.peekAt 1
  let (handle, suffix) ←
    if next = '<' then
      Scan.skip 2
      let uri ← tagUri "tag" start
      let ch ← Scan.peek
      if ch != '>' then Scan.failFound "while parsing a tag" start "'>'" ch
      Scan.skip 1
      pure (none, uri)
    else if isGap next then
      Scan.skip 1
      pure (none, "!")
    else
      let word := ((← get).rest.drop 1).takeWhile fun c => !isSpaceBreakOrEnd c
      let handle ←
        if word.contains '!' then tagHandle "tag" start
        else Scan.skip 1; pure "!"
      let uri ← tagUri "tag" start
      pure (some handle, uri)
  let ch ← Scan.peek
  if !isSpaceBreakOrEnd ch then Scan.failFound "while scanning a tag" start "' '" ch
  return ⟨.tag handle suffix, start, ← Scan.index⟩

end KsyTools.Yaml
