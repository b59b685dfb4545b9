/-
# Reading regular expressions

The usual notation: characters, sets in brackets, groups, choices, marks for repetition, and escape
sequences behind a backslash.  Letters at the start of an expression, or of a group, switch rules on
and off.  What is wrong with an expression is told with the place where it is wrong.
-/
import KsyTools.Number.Literal
import KsyTools.Text.Regex

namespace KsyTools.Text.Regex

/-- Why a text is no regular expression. -/
inductive Fault where
  /-- Something is wrong at a place. -/
  | at (problem : String) (pos : Nat)
  /-- Something is wrong with the expression as a whole. -/
  | whole (problem : String)
  /-- A number of repetitions is out of bounds. -/
  | repetitions
  /-- Letters of one alphabet and of all alphabets are asked for at once. -/
  | alphabets
  deriving Repr, DecidableEq

/-- The wording of a fault in an expression.  Places in an expression of several lines are also
given by line and column. -/
def Fault.message (source : String) : Fault → String
  | .at problem pos =>
    let place := s!"{problem} at position {pos}"
    if source.toList.contains '\n' then
      let before := source.toList.take pos
      let line := before.count '\n' + 1
      let column := (before.reverse.takeWhile (· != '\n')).length + 1
      s!"{place} (line {line}, column {column})"
    else place
  | .whole problem => problem
  | .repetitions => "the repetition number is too large"
  | .alphabets => "ASCII and UNICODE flags are incompatible"

/-! ## Rules -/

/-- The rules that letters switch on and off. -/
inductive Rule where
  | ignoreCase
  | multiline
  | dotAll
  | verbose
  | ascii
  | unicode
  | locale
  | template
  deriving Repr, DecidableEq

/-- The rule of a letter. -/
def Rule.ofLetter? : Char → Option Rule
  | 'i' => some .ignoreCase
  | 'm' => some .multiline
  | 's' => some .dotAll
  | 'x' => some .verbose
  | 'a' => some .ascii
  | 'u' => some .unicode
  | 'L' => some .locale
  | 't' => some .template
  | _ => none

/-- Whether a rule chooses an alphabet. -/
def Rule.isAlphabet (r : Rule) : Bool :=
  r = .ascii || r = .unicode || r = .locale

/-- The rules that hold in a part of an expression. -/
abbrev Rules := List Rule

/-- The rules of a group that switches some on and some off.  An alphabet replaces the one
before. -/
def Rules.within (rules on off : Rules) : Rules :=
  let kept := if on.any Rule.isAlphabet then rules.filter (!·.isAlphabet) else rules
  (on ++ kept).filter fun r => !off.contains r

/-- How letters are compared. -/
def Rules.letterRule (rules : Rules) : LetterRule :=
  ⟨rules.contains .ascii, rules.contains .ignoreCase⟩

/-! ## The state of reading -/

/-- A sign of an expression: a character, or a character behind a backslash. -/
inductive Sign where
  | plain (c : Char)
  | escape (c : Char)
  deriving Repr, DecidableEq

/-- The text of a sign. -/
def Sign.text : Sign → List Char
  | .plain c => [c]
  | .escape c => ['\\', c]

/-- What is still to be read, and what is known of the groups. -/
structure Reading where
  rest : List Char
  pos : Nat
  /-- The rules that hold in the whole expression. -/
  rules : Rules
  /-- The number of groups that were opened. -/
  opened : Nat
  /-- The widths of the groups that were closed. -/
  widths : List (Nat × Nat × Nat)
  names : List (String × Nat)
  /-- While looking back: the number of the first group that is inside. -/
  behindFrom? : Option Nat
  /-- Groups that conditions ask for, and where. -/
  asked : List (Nat × Nat)
  /-- A fault that counts only if the rest can be read. -/
  late? : Option Fault

/-- The computations of a reader. -/
abbrev Read := StateT Reading (Except Fault)

namespace Read

/-- Fails a number of characters before the current place. -/
def fail {α : Type} (problem : String) (back : Nat) : Read α := do
  throw (.at problem ((← get).pos - back))

/-- Fails at a place. -/
def failAt {α : Type} (problem : String) (pos : Nat) : Read α :=
  throw (.at problem pos)

/-- The next sign. -/
def peek : Read (Option Sign) := do
  match (← get).rest with
  | [] => return none
  | '\\' :: c :: _ => return some (.escape c)
  | c :: _ => return some (.plain c)

/-- Goes to what is still to be read.  A backslash cannot be the last character. -/
def goTo (rest : List Char) (pos : Nat) : Read Unit := do
  if rest = ['\\'] then failAt "bad escape (end of pattern)" pos
  modify fun s => { s with rest, pos }

/-- Takes the next sign. -/
def next : Read (Option Sign) := do
  let sign? ← peek
  match sign? with
  | none => return none
  | some sign =>
    let s ← get
    goTo (s.rest.drop sign.text.length) (s.pos + sign.text.length)
    return some sign

/-- Takes the next sign if it is a given character. -/
def accept (c : Char) : Read Bool := do
  if (← peek) = some (.plain c) then
    let _ ← next
    return true
  return false

/-- Takes at most `count` characters of some sort. -/
def takeSome (ok : Char → Bool) : (count : Nat) → Read (List Char)
  | 0 => return []
  | count + 1 => do
    match ← peek with
    | some (.plain c) =>
      if ok c then
        let _ ← next
        return c :: (← takeSome ok count)
      return []
    | _ => return []

/-- Takes the characters of some sort. -/
def takeAll (ok : Char → Bool) : Read (List Char) := do
  takeSome ok (← get).rest.length

/-- Takes what stands before a closing character, and that character.  The fuel bounds the number
of signs. -/
def takeUntil (closing : Char) (what : String) :
    (fuel : Nat) → (front : List Char) → Read (List Char)
  | 0, front => return front
  | fuel + 1, front => do
    match ← next with
    | none =>
      if front.isEmpty then fail s!"missing {what}" 0
      else fail s!"missing {closing}, unterminated name" front.length
    | some sign =>
      if sign = .plain closing then
        if front.isEmpty then fail s!"missing {what}" 1 else return front
      else takeUntil closing what fuel (front ++ sign.text)

/-- Takes a name up to a closing character. -/
def takeName (closing : Char) (what : String) : Read (List Char) := do
  takeUntil closing what ((← get).rest.length + 1) []

end Read

/-! ## Escape sequences -/

/-- Whether a character is an octal digit. -/
def isOctal (c : Char) : Bool :=
  '0' ≤ c && c ≤ '7'

/-- Whether a character is a hexadecimal digit. -/
def isHex (c : Char) : Bool :=
  (hexValue? c).isSome

/-- The number that digits stand for. -/
def numberOf (base : Nat) (digits : List Char) : Nat :=
  ofDigits base (digits.map fun c => (hexValue? c).getD 0)

/-- The set of a single code point. -/
def literal (rules : Rules) (n : Nat) : Regex :=
  .set [.range n n] false rules.letterRule

/-- The code point of a letter that stands for a control character. -/
def controlEscape? : Char → Option Nat
  | 'a' => some 7
  | 'b' => some 8
  | 'f' => some 12
  | 'n' => some 10
  | 'r' => some 13
  | 't' => some 9
  | 'v' => some 11
  | '\\' => some 92
  | _ => none

/-- The kind of characters of a letter. -/
def kindEscape? : Char → Option SetItem
  | 'd' => some (.kind .digit false)
  | 'D' => some (.kind .digit true)
  | 's' => some (.kind .blank false)
  | 'S' => some (.kind .blank true)
  | 'w' => some (.kind .word false)
  | 'W' => some (.kind .word true)
  | _ => none

namespace Read

/-- A code point in a fixed number of hexadecimal digits behind a letter. -/
def hexEscape (letter : Char) (count : Nat) : Read Nat := do
  let digits ← takeSome isHex count
  let shown := String.ofList ('\\' :: letter :: digits)
  if digits.length < count then fail s!"incomplete escape {shown}" (2 + digits.length)
  let n := numberOf 16 digits
  if 0x10ffff < n then fail s!"bad escape {shown}" (2 + digits.length)
  return n

/-- The code point of an escape sequence that stands for a character, in sets and outside of
them. -/
def charEscape (c : Char) : Read Nat := do
  match c with
  | 'x' => hexEscape c 2
  | 'u' => hexEscape c 4
  | 'U' => hexEscape c 8
  | 'N' =>
    if !(← accept '\x7b') then fail "missing \x7b" 0
    let name ← takeName '\x7d' "character name"
    fail s!"undefined character name {quote (String.ofList name)}" (name.length + 4)
  | c =>
    if c.isAlpha || c.isDigit then
      let shown := String.ofList ['\\', c]
      fail s!"bad escape {shown}" 2
    else return c.toNat

/-- The code point of an octal number. -/
def octalEscape (digits : List Char) : Read Nat := do
  let n := numberOf 8 digits
  if 0o377 < n then
    let shown := String.ofList ('\\' :: digits)
    fail s!"octal escape value {shown} outside of range 0-0o377" (digits.length + 1)
  return n

/-- What an escape sequence in a set stands for. -/
def setEscape (c : Char) : Read SetItem := do
  match controlEscape? c, kindEscape? c with
  | some n, _ => return .range n n
  | none, some item => return item
  | none, none =>
    let n ← if isOctal c then do octalEscape (c :: (← takeSome isOctal 2)) else charEscape c
    return .range n n

/-- Refuses references to a group from where it cannot be referred to. -/
def checkBehind (number : Nat) : Read Unit := do
  let s ← get
  match s.behindFrom? with
  | none => return
  | some first =>
    if (s.widths.lookup number).isNone then fail "cannot refer to an open group" 0
    if first ≤ number then fail "cannot refer to group defined in the same lookbehind subpattern" 0

/-- A reference to a group; `back` is the length of what refers to it. -/
def backref (rules : Rules) (number back : Nat) : Read Regex := do
  if ((← get).widths.lookup number).isNone then fail "cannot refer to an open group" back
  checkBehind number
  return .backref number rules.letterRule

/-- A number behind a backslash: a character in three octal digits, or a group. -/
def numberEscape (rules : Rules) (c : Char) : Read Regex := do
  let more ← takeSome Char.isDigit 1
  let third ← if (c :: more).all isOctal && more.length = 1 then takeSome isOctal 1 else pure []
  let digits := c :: more ++ third
  if digits.length = 3 then return literal rules (← octalEscape digits)
  let number := numberOf 10 digits
  if number ≤ (← get).opened then backref rules number (digits.length + 1)
  else fail s!"invalid group reference {number}" digits.length

/-- What an escape sequence outside of a set stands for. -/
def escape (rules : Rules) (c : Char) : Read Regex := do
  match c, kindEscape? c with
  | _, some item => return .set [item] false rules.letterRule
  | 'A', _ => return .anchor .textStart
  | 'Z', _ => return .anchor .textEnd
  | 'b', _ => return .anchor (.wordBoundary (rules.contains .ascii) false)
  | 'B', _ => return .anchor (.wordBoundary (rules.contains .ascii) true)
  | _, none =>
    match controlEscape? c with
    | some n => return literal rules n
    | none =>
      if c = '0' then return literal rules (numberOf 8 (← takeSome isOctal 2))
      else if c.isDigit then numberEscape rules c
      else return literal rules (← charEscape c)

/-! ## Sets -/

/-- What one sign in a set stands for. -/
def setSign : Sign → Read SetItem
  | .plain c => return .range c.toNat c.toNat
  | .escape c => setEscape c

/-- The range between two signs of a set. -/
def setRange (a b : Sign) (first last : SetItem) : Read SetItem := do
  let bad : Read SetItem :=
    let shown := String.ofList (a.text ++ '-' :: b.text)
    fail s!"bad character range {shown}" (a.text.length + 1 + b.text.length)
  match first, last with
  | .range m _, .range n _ => if n < m then bad else return .range m n
  | _, _ => bad

/-- Reads the items of a set that was opened at `start`, up to its closing bracket, which may not
come first.  The fuel bounds the number of items. -/
def setItems (start : Nat) : (fuel : Nat) → (items : List SetItem) → Read (List SetItem)
  | 0, items => return items
  | fuel + 1, items => do
    match ← next with
    | none => failAt "unterminated character set" start
    | some sign =>
      if sign = .plain ']' && !items.isEmpty then return items
      let item ← setSign sign
      if ← accept '-' then
        match ← next with
        | none => failAt "unterminated character set" start
        | some (.plain ']') => return items ++ [item, .range 45 45]
        | some other =>
          setItems start fuel (items ++ [← setRange sign other item (← setSign other)])
      else setItems start fuel (items ++ [item])

/-- Reads a set after its opening bracket. -/
def set (rules : Rules) : Read Regex := do
  let s ← get
  let negated ← accept '^'
  let items ← setItems (s.pos - 1) (s.rest.length + 1) []
  return .set items negated rules.letterRule

/-! ## Repetitions -/

/-- The least number of repetitions that is out of bounds. -/
def repetitionBound : Nat := 4294967295

/-- A number of repetitions. -/
def repetitions (digits : List Char) : Read (Option Nat) := do
  if digits.isEmpty then return none
  let n := numberOf 10 digits
  if repetitionBound ≤ n then throw .repetitions
  return some n

/-- The bounds of a repetition after its mark; there are none where a brace is just a brace. -/
def bounds (mark : Char) : Read (Option (Nat × Option Nat)) := do
  match mark with
  | '?' => return some (0, some 1)
  | '*' => return some (0, none)
  | '+' => return some (1, none)
  | _ =>
    let s ← get
    if (← peek) = some (.plain '\x7d') then return none
    let low ← takeAll Char.isDigit
    let high ← if ← accept ',' then takeAll Char.isDigit else pure low
    if !(← accept '\x7d') then
      goTo s.rest s.pos
      return none
    let least ← repetitions low
    let most? ← repetitions high
    match least, most? with
    | some m, some n => if n < m then failAt "min repeat greater than max repeat" s.pos
    | _, _ => pure ()
    return some (least.getD 0, most?)

/-- Repeats the last of the parts, given last first, after the mark at `start`. -/
def repeatLast (rules : Rules) (start least : Nat) (most? : Option Nat) (parts : List Regex) :
    Read (List Regex) := do
  match parts with
  | [] => failAt "nothing to repeat" start
  | .anchor _ :: _ => failAt "nothing to repeat" start
  | .repeated .. :: _ => failAt "multiple repeat" start
  | part :: front =>
    let greed : Greed ← do
      if ← accept '?' then pure .least
      else if ← accept '+' then pure .possessive
      else pure .most
    if rules.contains .template then
      let name :=
        match greed with
        | .most => "MAX_REPEAT"
        | .least => "MIN_REPEAT"
        | .possessive => "POSSESSIVE_REPEAT"
      let late := Fault.whole s!"internal: unsupported template operator {name}"
      modify fun s => { s with late? := some (s.late?.getD late) }
    return .repeated greed least most? part :: front

/-! ## Groups -/

/-- Whether a text can be the name of a group. -/
def isName (cs : List Char) : Bool :=
  !cs.isEmpty && cs.all isWord && !(cs.head?.any isDigit)

/-- Takes the name of a group up to a closing character. -/
def groupName (closing : Char) : Read String := do
  let name ← takeName closing "group name"
  if !isName name then
    fail s!"bad character in group name {quote (String.ofList name)}" (name.length + 1)
  return String.ofList name

/-- Opens a group. -/
def openGroup (name? : Option String) : Read Nat := do
  let s ← get
  let number := s.opened + 1
  match name? with
  | none => modify fun s => { s with opened := number }
  | some name =>
    match s.names.lookup name with
    | some known =>
      fail (s!"redefinition of group name {quote name} as group {number};" ++
        s!" was group {known}") (name.length + 1)
    | none =>
      modify fun s => { s with opened := number, names := (name, number) :: s.names }
  return number

/-- Closes a group. -/
def closeGroup (number : Nat) (body : Regex) : Read Unit :=
  modify fun s => { s with widths := (number, body.width s.widths) :: s.widths }

/-- Takes the parenthesis that closes what was opened at `start`. -/
def closing (start : Nat) : Read Unit := do
  if !(← accept ')') then failAt "missing ), unterminated subpattern" start

/-- Skips a comment that was opened at `start`.  The fuel bounds the number of signs. -/
def comment (start : Nat) : (fuel : Nat) → Read Unit
  | 0 => return
  | fuel + 1 => do
    match ← peek with
    | none => failAt "missing ), unterminated comment" start
    | some sign =>
      let _ ← next
      if sign = .plain ')' then return
      comment start fuel

/-- The group that a condition asks for. -/
def condition : Read Nat := do
  let name ← takeName ')' "group name"
  let s ← get
  let number ←
    if isName name then
      match s.names.lookup (String.ofList name) with
      | some number => pure number
      | none => fail s!"unknown group name {quote (String.ofList name)}" (name.length + 1)
    else
      match Number.readInt 10 (String.ofList name) with
      | .ok (.ofNat 0) => fail "bad group number" (name.length + 1)
      | .ok (.ofNat number) =>
        modify fun s => { s with asked := s.asked ++ [(number, s.pos - name.length - 1)] }
        pure number
      | _ => fail s!"bad character in group name {quote (String.ofList name)}" (name.length + 1)
  checkBehind number
  return number

/-- A letter for a rule, or what else may follow such letters. -/
inductive RuleSign where
  | letter (r : Rule)
  | other (c : Char)

/-- The next letter for a rule, or one of the characters that end the letters. -/
def ruleSign (ends : List Char) (missing : String) : Read RuleSign := do
  match ← next with
  | none => fail s!"missing {missing}" 0
  | some (.plain c) =>
    if ends.contains c then return .other c
    match Rule.ofLetter? c with
    | some r => return .letter r
    | none => fail (if isLetter c then "unknown flag" else s!"missing {missing}") 1
  | some sign => fail s!"missing {missing}" sign.text.length
where
  /-- Whether a character is a letter. -/
  isLetter (c : Char) : Bool := if c.toNat < 128 then c.isAlpha else isWord c && !isDigit c

/-- Reads the letters of rules that are switched on, and the character behind them.  The fuel
bounds the number of letters. -/
def rulesOn : (fuel : Nat) → (on : Rules) → Rule → Read (Rules × Char)
  | 0, on, _ => return (on, ')')
  | fuel + 1, on, r => do
    if r = .locale then fail "bad inline flags: cannot use 'L' flag with a str pattern" 0
    let on := r :: on
    if r.isAlphabet && on.any fun q => q.isAlphabet && q != r then
      fail "bad inline flags: flags 'a', 'u' and 'L' are incompatible" 0
    match ← ruleSign [')', '-', ':'] "-, : or )" with
    | .other c => return (on, c)
    | .letter r => rulesOn fuel on r

/-- Reads the letters of rules that are switched off, up to a colon.  The fuel bounds the number of
letters. -/
def rulesOff : (fuel : Nat) → (off : Rules) → Rule → Read Rules
  | 0, off, _ => return off
  | fuel + 1, off, r => do
    if r.isAlphabet then fail "bad inline flags: cannot turn off flags 'a', 'u' and 'L'" 0
    let off := r :: off
    match ← ruleSign [':'] ":" with
    | .other _ => return off
    | .letter r => rulesOff fuel off r

/-- Reads which rules a group switches on and off, from the first letter or the hyphen on.  No
answer means that the rules are for the whole expression. -/
def groupRules (first : Option Rule) : Read (Option (Rules × Rules)) := do
  let fuel := (← get).rest.length + 1
  let (on, closing) ←
    match first with
    | some r => rulesOn fuel [] r
    | none => pure ([], '-')
  if closing = ')' then
    modify fun s => { s with rules := on ++ s.rules }
    return none
  if on.contains .template then fail "bad inline flags: cannot turn on global flag" 1
  let off ←
    if closing = '-' then do
      match ← ruleSign [] "flag" with
      | .letter r => rulesOff fuel [] r
      | .other _ => pure []
    else pure []
  if off.contains .template then fail "bad inline flags: cannot turn off global flag" 1
  if on.any off.contains then fail "bad inline flags: flag turned on and off" 1
  return some (on, off)

/-- How a group starts. -/
inductive Opening where
  /-- A group with contents of its own. -/
  | group (number? : Option Nat) (rules : Rules)
  | atomic
  | ahead (negated : Bool)
  | behind (negated : Bool)
  | conditional
  /-- Something that has no contents. -/
  | done (parts : List Regex)
  /-- Rules for the whole expression. -/
  | rules

/-- Reads the start of a group behind a question mark.  The group was opened at `start`. -/
def extension (rules : Rules) (start : Nat) : Read Opening := do
  match ← next with
  | none => fail "unexpected end of pattern" 0
  | some (.escape c) =>
    let shown := String.ofList ['\\', c]
    fail s!"unknown extension ?{shown}" 3
  | some (.plain c) =>
    match c with
    | 'P' =>
      if ← accept '<' then
        let name ← groupName '>'
        return .group (some (← openGroup (some name))) rules
      if ← accept '=' then
        let name ← groupName ')'
        match (← get).names.lookup name with
        | none => fail s!"unknown group name {quote name}" (name.length + 1)
        | some number => return .done [← backref rules number (name.length + 1)]
      match ← next with
      | none => fail "unexpected end of pattern" 0
      | some sign =>
        let shown := String.ofList sign.text
        fail s!"unknown extension ?P{shown}" (sign.text.length + 2)
    | ':' => return .group none rules
    | '#' =>
      comment start ((← get).rest.length + 1)
      return .done []
    | '=' => return .ahead false
    | '!' => return .ahead true
    | '<' =>
      match ← next with
      | none => fail "unexpected end of pattern" 0
      | some (.plain '=') => return .behind false
      | some (.plain '!') => return .behind true
      | some sign =>
        let shown := String.ofList sign.text
        fail s!"unknown extension ?<{shown}" (sign.text.length + 2)
    | '(' => return .conditional
    | '>' => return .atomic
    | c =>
      let first := Rule.ofLetter? c
      if first.isNone && c != '-' then fail s!"unknown extension ?{c}" 2
      match ← groupRules first with
      | none => return .rules
      | some (on, off) => return .group none (Rules.within rules on off)

/-- A look back at an expression, which has to be of one width. -/
def lookBehind (negated : Bool) (body : Regex) : Read Regex := do
  let (least, most) := body.width (← get).widths
  let late? : Option Fault :=
    if Nat.pow 2 32 ≤ least then some (.whole "looks too much behind")
    else if least ≠ most then some (.whole "look-behind requires fixed-width pattern")
    else none
  modify fun s => { s with late? := s.late?.or late? }
  return .behind least negated body

/-! ## Expressions -/

/-- Skips a comment up to the end of its line.  The fuel bounds the number of signs. -/
def lineComment : (fuel : Nat) → Read Unit
  | 0 => return
  | fuel + 1 => do
    match ← next with
    | none => return
    | some (.plain '\n') => return
    | some _ => lineComment fuel

/-- Whether a character is skipped where expressions are laid out freely. -/
def isGap (c : Char) : Bool :=
  c == ' ' || (9 ≤ c.toNat && c.toNat ≤ 13)

/-- Several parts, given last first, one after another. -/
def joined (parts : List Regex) : Regex :=
  parts.foldl (fun rest part => .seq part rest) .empty

mutual

/-- Reads alternatives up to a closing parenthesis or the end.  The outermost alternatives take the
rules of the whole expression.  The fuel bounds the number of parts. -/
def alternatives : (fuel : Nat) → (rules : Rules) → (outermost first : Bool) → Read Regex
  | 0, _, _, _ => return .empty
  | fuel + 1, rules, outermost, first => do
    let one ← sequence fuel rules first []
    if ← accept '|' then
      let all := (← get).rules
      let rules := if outermost then all else rules
      return .alt one (← alternatives fuel rules outermost false)
    return one

/-- Reads what stands between the marks of alternatives, after the given parts, last first.  Only
at the first place of an expression there may be rules for the whole of it. -/
def sequence : (fuel : Nat) → (rules : Rules) → (first : Bool) → List Regex → Read Regex
  | 0, _, _, parts => return joined parts
  | fuel + 1, rules, first, parts => do
    let start := (← get).pos
    match ← peek with
    | none => return joined parts
    | some (.plain '|') => return joined parts
    | some (.plain ')') => return joined parts
    | some (.escape c) =>
      let _ ← next
      sequence fuel rules first ((← escape rules c) :: parts)
    | some (.plain c) =>
      let _ ← next
      if rules.contains .verbose && isGap c then sequence fuel rules first parts
      else if rules.contains .verbose && c = '#' then
        lineComment ((← get).rest.length + 1)
        sequence fuel rules first parts
      else
        match c with
        | '[' => sequence fuel rules first ((← set rules) :: parts)
        | '.' => sequence fuel rules first (.anyChar (rules.contains .dotAll) :: parts)
        | '^' =>
          let a : Anchor := if rules.contains .multiline then .lineStart else .textStart
          sequence fuel rules first (.anchor a :: parts)
        | '$' =>
          let a : Anchor := if rules.contains .multiline then .lineEnd else .lastLineEnd
          sequence fuel rules first (.anchor a :: parts)
        | '(' =>
          let opening ←
            if ← accept '?' then extension rules start
            else pure (.group (some (← openGroup none)) rules)
          match opening with
          | .rules =>
            if !first || !parts.isEmpty then
              failAt "global flags not at the start of the expression" start
            sequence fuel (← get).rules first parts
          | opening =>
            let more ← group fuel rules start opening
            sequence fuel rules first (more ++ parts)
        | c =>
          if c = '?' || c = '*' || c = '+' || c = '\x7b' then
            match ← bounds c with
            | none => sequence fuel rules first (literal rules c.toNat :: parts)
            | some (least, most?) =>
              sequence fuel rules first (← repeatLast rules start least most? parts)
          else sequence fuel rules first (literal rules c.toNat :: parts)

/-- Reads the contents of a group that was opened at `start`. -/
def group : (fuel : Nat) → (rules : Rules) → (start : Nat) → Opening → Read (List Regex)
  | 0, _, _, _ => return []
  | fuel + 1, rules, start, opening => do
    match opening with
    | .rules => return []
    | .done parts => return parts
    | .group number? inner =>
      let body ← alternatives fuel inner false false
      closing start
      match number? with
      | some number => closeGroup number body
      | none => pure ()
      return [.group number? body]
    | .atomic =>
      let body ← alternatives fuel rules false false
      closing start
      return [.atomic body]
    | .ahead negated =>
      let body ← alternatives fuel rules false false
      closing start
      return [.ahead negated body]
    | .behind negated =>
      let outer? := (← get).behindFrom?
      modify fun s => { s with behindFrom? := some (outer?.getD (s.opened + 1)) }
      let body ← alternatives fuel rules false false
      modify fun s => { s with behindFrom? := outer? }
      closing start
      return [← lookBehind negated body]
    | .conditional =>
      let number ← condition
      let yes ← sequence fuel rules false []
      let no ←
        if ← accept '|' then do
          let no ← sequence fuel rules false []
          if (← peek) = some (.plain '|') then
            fail "conditional backref with more than two branches" 0
          pure no
        else pure .empty
      closing start
      return [.conditional number yes no]

end

/-- Reads a whole expression. -/
def whole : Read Regex := do
  let s ← get
  goTo s.rest s.pos
  let r ← alternatives (4 * s.rest.length + 4) [] true true
  let s ← get
  if s.rules.contains .ascii && s.rules.contains .unicode then throw .alphabets
  if !s.rest.isEmpty then fail "unbalanced parenthesis" 0
  match s.asked.find? fun (number, _) => s.opened < number with
  | some (number, pos) => failAt s!"invalid group reference {number}" pos
  | none => pure ()
  match s.late? with
  | some fault => throw fault
  | none => return r

end Read

/-- Reads a regular expression. -/
def read (source : String) : Except Fault Regex :=
  (Read.whole.run ⟨source.toList, 0, [], 0, [], [], none, [], none⟩).map Prod.fst

end KsyTools.Text.Regex
