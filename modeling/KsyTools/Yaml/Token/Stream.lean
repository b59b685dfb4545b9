/-
# From text to tokens

Tokens are found from left to right.  A plain or quoted scalar, an alias, or a flow collection may
turn out to be a key only when a colon is met behind it, on the same line and not too far away;
until that is settled it is remembered as a possible key, and the tokens from it on are not yet
given out.

The result is a stream: the tokens that can be given out, and, if the text is not well formed, the
failure that is met behind them.
-/
import KsyTools.Yaml.Token.Block
import KsyTools.Yaml.Token.Directives
import KsyTools.Yaml.Token.Plain

namespace KsyTools.Yaml

/-- A token that is a key if a colon follows. -/
structure PossibleKey where
  /-- The number of the token. -/
  token : Nat
  /-- Whether it stands where only a key can stand. -/
  required : Bool
  index : Nat
  line : Nat
  column : Nat
  deriving Repr, Inhabited

/-- How far behind a key its colon may be. -/
def maxKeyLength : Nat := 1024

/-- The state of the search for tokens. -/
structure Scanner where
  cursor : Cursor
  /-- All tokens found so far. -/
  tokens : Array Token
  /-- The possible key of each open flow collection, innermost first, and of the block context. -/
  keys : List (Option PossibleKey)
  /-- The columns of the open block collections, innermost first. -/
  indents : List Nat
  /-- Whether a key without indicator may start here. -/
  keyAllowed : Bool
  /-- Whether the end of the text was reached. -/
  done : Bool
  deriving Inhabited

namespace Scanner

/-- The start of a text. -/
def start (source : List Char) : Scanner :=
  ⟨Cursor.start source, #[⟨.streamStart, 0, 0⟩], [none], [], true, false⟩

/-- Whether the place is inside a flow collection. -/
def inFlow (s : Scanner) : Bool :=
  1 < s.keys.length

/-- The column of the innermost block collection. -/
def indent (s : Scanner) : Int :=
  match s.indents with
  | n :: _ => n
  | [] => -1

/-- The possible key of the innermost collection. -/
def currentKey (s : Scanner) : Option PossibleKey :=
  s.keys.headD none

/-- Replaces the possible key of the innermost collection. -/
def setKey (s : Scanner) (key : Option PossibleKey) : Scanner :=
  { s with keys := key :: s.keys.drop 1 }

/-- Adds a token. -/
def push (s : Scanner) (t : Token) : Scanner :=
  { s with tokens := s.tokens.push t }

/-- A token without extent at the cursor. -/
def markToken (s : Scanner) (kind : TokenKind) : Token :=
  ⟨kind, s.cursor.index, s.cursor.index⟩

/-- Adds a token of `n` characters. -/
def pushIndicator (s : Scanner) (kind : TokenKind) (n : Nat) : Scanner :=
  let cursor := s.cursor.advance n
  { s with tokens := s.tokens.push ⟨kind, s.cursor.index, cursor.index⟩, cursor := cursor }

/-- Adds the token that a reader finds at the cursor. -/
def pushScan (s : Scanner) (scan : Scan Token) : Except Failure Scanner := do
  let (token, cursor) ← scan.run s.cursor
  return { s with tokens := s.tokens.push token, cursor := cursor }

/-- The failure for a key that is missing its colon. -/
def missingColon (s : Scanner) (key : PossibleKey) : Failure :=
  .marked ⟨some "while scanning a simple key", some key.index, "could not find expected ':'",
    s.cursor.index⟩

/-- The failure for a token at a place where it may not stand. -/
def notAllowed (s : Scanner) (what : String) : Failure :=
  .marked ⟨none, none, s!"{what} are not allowed here", s.cursor.index⟩

/-- Whether the colon of a possible key can no longer come. -/
def isStale (s : Scanner) (key : PossibleKey) : Bool :=
  key.line != s.cursor.line || s.cursor.index - key.index > maxKeyLength

/-- Forgets the possible keys whose colon can no longer come. -/
def dropStaleKeys (s : Scanner) : Except Failure Scanner := do
  let keys ← s.keys.mapM fun
    | none => pure none
    | some key =>
      if s.isStale key then
        if key.required then throw (s.missingColon key) else pure none
      else pure (some key)
  return { s with keys := keys }

/-- Forgets the possible key of the innermost collection. -/
def dropKey (s : Scanner) : Except Failure Scanner :=
  match s.currentKey with
  | some key => if key.required then throw (s.missingColon key) else pure (s.setKey none)
  | none => pure s

/-- Remembers the next token as a possible key, where keys may start. -/
def saveKey (s : Scanner) : Except Failure Scanner := do
  if !s.keyAllowed then return s
  let s ← s.dropKey
  let c := s.cursor
  let required := !s.inFlow && s.indent == c.column
  return s.setKey (some ⟨s.tokens.size, required, c.index, c.line, c.column⟩)

/-- Closes the block collections that are indented by more than a column. -/
def unwind (s : Scanner) (column : Int) : Scanner :=
  if s.inFlow then s
  else
    let closed := s.indents.takeWhile fun (n : Nat) => column < (n : Int)
    { s with
      indents := s.indents.drop closed.length
      tokens := closed.foldl (fun ts _ => ts.push (s.markToken .blockEnd)) s.tokens }

/-- Opens a block collection at a column, unless one is open there. -/
def openBlock (s : Scanner) (column : Nat) : Option Scanner :=
  if s.indent < column then some { s with indents := column :: s.indents } else none

/-- Opens a block collection at the cursor, unless one is open there. -/
def openBlockHere (s : Scanner) (kind : TokenKind) : Scanner :=
  match s.openBlock s.cursor.column with
  | some s => s.push (s.markToken kind)
  | none => s

/-- Moves over spaces, comments and line breaks. -/
def skipGapFrom (s : Scanner) : (fuel : Nat) → Scanner
  | 0 => s
  | fuel + 1 =>
    let c := s.cursor.advance (s.cursor.rest.takeWhile (· == ' ')).length
    let c :=
      if c.peek = '#' then c.advance (c.rest.takeWhile fun ch => !isBreakOrEnd ch).length else c
    if isBreak c.peek then
      let width := if c.peek = '\r' ∧ c.peekAt 1 = '\n' then 2 else 1
      skipGapFrom
        { s with cursor := c.advance width, keyAllowed := s.keyAllowed || !s.inFlow } fuel
    else { s with cursor := c }

/-- Moves to the next token; a byte order mark at the start of the text is skipped. -/
def skipGap (s : Scanner) : Scanner :=
  let c := s.cursor
  let c := if c.index = 0 ∧ c.peek = '\ufeff' then c.step else c
  { s with cursor := c }.skipGapFrom (c.rest.length + 1)

/-- Ends the block context in front of a directive, a document marker or the end of the text. -/
def closeBlocks (s : Scanner) : Except Failure Scanner := do
  let s ← (s.unwind (-1)).dropKey
  return { s with keyAllowed := false }

/-- The end of the text. -/
def fetchEnd (s : Scanner) : Except Failure Scanner := do
  let s ← s.closeBlocks
  return { s.push (s.markToken .streamEnd) with keys := [none], done := true }

/-- A directive. -/
def fetchDirective (s : Scanner) : Except Failure Scanner := do
  (← s.closeBlocks).pushScan directiveToken

/-- A document marker. -/
def fetchMarker (s : Scanner) (kind : TokenKind) : Except Failure Scanner := do
  return (← s.closeBlocks).pushIndicator kind 3

/-- The start of a flow collection. -/
def fetchFlowStart (s : Scanner) (kind : TokenKind) : Except Failure Scanner := do
  let s ← s.saveKey
  return { s.pushIndicator kind 1 with keys := none :: s.keys, keyAllowed := true }

/-- The end of a flow collection. -/
def fetchFlowEnd (s : Scanner) (kind : TokenKind) : Except Failure Scanner := do
  let s ← s.dropKey
  let keys := if s.inFlow then s.keys.drop 1 else s.keys
  return { s.pushIndicator kind 1 with keys := keys, keyAllowed := false }

/-- A comma in a flow collection. -/
def fetchFlowEntry (s : Scanner) : Except Failure Scanner := do
  return { (← s.dropKey).pushIndicator .flowEntry 1 with keyAllowed := true }

/-- The hyphen of a block sequence. -/
def fetchBlockEntry (s : Scanner) : Except Failure Scanner := do
  if !s.inFlow && !s.keyAllowed then throw (s.notAllowed "sequence entries")
  let s := if s.inFlow then s else s.openBlockHere .blockSequenceStart
  return { (← s.dropKey).pushIndicator .blockEntry 1 with keyAllowed := true }

/-- A question mark in front of a key. -/
def fetchKey (s : Scanner) : Except Failure Scanner := do
  if !s.inFlow && !s.keyAllowed then throw (s.notAllowed "mapping keys")
  let s := if s.inFlow then s else s.openBlockHere .blockMappingStart
  return { (← s.dropKey).pushIndicator .key 1 with keyAllowed := !s.inFlow }

/-- Puts the tokens for a key, and for the block mapping that it may open, in front of it. -/
def insertKey (s : Scanner) (key : PossibleKey) : Scanner :=
  let keyToken : Token := ⟨.key, key.index, key.index⟩
  let tokens := s.tokens.toList
  let before := tokens.take key.token
  let after := tokens.drop key.token
  match if s.inFlow then none else s.openBlock key.column with
  | some s =>
    let start : Token := ⟨.blockMappingStart, key.index, key.index⟩
    { s with tokens := (before ++ start :: keyToken :: after).toArray }
  | none => { s with tokens := (before ++ keyToken :: after).toArray }

/-- The colon behind a key. -/
def fetchValue (s : Scanner) : Except Failure Scanner := do
  match s.currentKey with
  | some key =>
    return { ((s.setKey none).insertKey key).pushIndicator .value 1 with keyAllowed := false }
  | none =>
    if !s.inFlow && !s.keyAllowed then throw (s.notAllowed "mapping values")
    let s := if s.inFlow then s else s.openBlockHere .blockMappingStart
    return { s.pushIndicator .value 1 with keyAllowed := !s.inFlow }

/-- A token that may be, or start, a key. -/
def fetchKeyLike (s : Scanner) (scan : Scan Token) : Except Failure Scanner := do
  let s ← s.saveKey
  { s with keyAllowed := false }.pushScan scan

/-- A plain scalar. -/
def fetchPlain (s : Scanner) : Except Failure Scanner := do
  let s ← s.saveKey
  let ((token, broken), cursor) ← (plainScalar s.inFlow (s.indent + 1)).run s.cursor
  return { s.push token with cursor := cursor, keyAllowed := broken }

/-- A block scalar. -/
def fetchBlockScalar (s : Scanner) (folded : Bool) : Except Failure Scanner := do
  let s ← s.dropKey
  { s with keyAllowed := true }.pushScan (blockScalar folded s.indent)

/-- Finds the token that starts at the cursor. -/
def fetchToken (s : Scanner) : Except Failure Scanner :=
  let c := s.cursor
  let ch := c.peek
  let gapNext := isGap (c.peekAt 1)
  if c.rest.isEmpty then s.fetchEnd
  else if ch = '%' ∧ c.column = 0 then s.fetchDirective
  else if c.column = 0 ∧ startsWithMarker '-' c.rest then s.fetchMarker .documentStart
  else if c.column = 0 ∧ startsWithMarker '.' c.rest then s.fetchMarker .documentEnd
  else if ch = '[' then s.fetchFlowStart .flowSequenceStart
  else if ch = '\x7b' then s.fetchFlowStart .flowMappingStart
  else if ch = ']' then s.fetchFlowEnd .flowSequenceEnd
  else if ch = '\x7d' then s.fetchFlowEnd .flowMappingEnd
  else if ch = ',' then s.fetchFlowEntry
  else if ch = '-' ∧ gapNext then s.fetchBlockEntry
  else if ch = '?' ∧ (s.inFlow ∨ gapNext) then s.fetchKey
  else if ch = ':' ∧ (s.inFlow ∨ gapNext) then s.fetchValue
  else if ch = '*' then s.fetchKeyLike aliasToken
  else if ch = '&' then s.fetchKeyLike anchorToken
  else if ch = '!' then s.fetchKeyLike tagToken
  else if ch = '|' ∧ !s.inFlow then s.fetchBlockScalar false
  else if ch = '>' ∧ !s.inFlow then s.fetchBlockScalar true
  else if ch = '\x27' then s.fetchKeyLike (quotedScalar false)
  else if ch = '\x22' then s.fetchKeyLike (quotedScalar true)
  else if startsPlain s.inFlow c then s.fetchPlain
  else
    throw (.marked ⟨some "while scanning for the next token", none,
      s!"found character {Text.quote (String.singleton ch)} that cannot start any token", c.index⟩)

/-- Finds the next token, and the tokens that come with it. -/
def fetch (s : Scanner) : Except Failure Scanner := do
  let s ← s.skipGap.dropStaleKeys
  let s ← (s.unwind s.cursor.column).fetchToken
  if s.done then return s else s.dropStaleKeys

/-- How many tokens can be given out: those before the first possible key. -/
def settled (s : Scanner) : Nat :=
  s.keys.foldl (fun n key => match key with
    | some key => min n key.token
    | none => n) s.tokens.size

end Scanner

/-- The tokens of a text, and the failure that ends them unless the text is well formed. -/
structure TokenStream where
  tokens : List Token
  failure : Option Failure

namespace TokenStream

/-- Takes steps of the search up to the end of the text or the first failure. -/
def collect (next : Scanner → Except Failure Scanner) (s : Scanner) : (fuel : Nat) → TokenStream
  | 0 => ⟨s.tokens.toList, none⟩
  | fuel + 1 =>
    if s.done then ⟨s.tokens.toList, none⟩
    else
      match next s with
      | .ok s => collect next s fuel
      | .error failure => ⟨s.tokens.toList.take s.settled, some failure⟩

/-- The tokens of a text.  Each step takes at least one character, so the length of the text bounds
the number of steps. -/
def ofText (source : List Char) : TokenStream :=
  collect Scanner.fetch (Scanner.start source) (source.length + 2)

end TokenStream

/-- Characters that a YAML text may have. -/
def isAcceptable (c : Char) : Bool :=
  let n := c.toNat
  n == 9 || n == 10 || n == 13 || (0x20 ≤ n && n ≤ 0x7e) || n == 0x85 ||
    (0xa0 ≤ n && n ≤ 0xd7ff) || (0xe000 ≤ n && n ≤ 0xfffd) || 0x10000 ≤ n

/-- The first character that no YAML text may have, and its offset. -/
def findUnacceptable (source : List Char) : Option (Char × Nat) :=
  match source.dropWhile isAcceptable with
  | c :: rest => some (c, source.length - rest.length - 1)
  | [] => none

end KsyTools.Yaml
