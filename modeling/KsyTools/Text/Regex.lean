/-
# Regular expressions

The expressions that a schema may hold.  Beyond regular patterns they know anchors, groups that can
be referred to, looks ahead and back, and repetitions that take as much or as little as they can or
never give back what they took.  `Regex.isIn` says whether an expression matches somewhere in a
text; alternatives are tried in their order.
-/
import KsyTools.Text.Casing
import KsyTools.Text.CharClass
import KsyTools.Text.Word

namespace KsyTools.Text

/-! ## Expressions -/

/-- Kinds of characters that have a letter of their own. -/
inductive CharKind where
  | digit
  | blank
  | word
  deriving Repr, DecidableEq

/-- An item of a set of characters. -/
inductive SetItem where
  /-- The characters from one code point to another. -/
  | range (first last : Nat)
  /-- The characters of a kind, or all others. -/
  | kind (k : CharKind) (negated : Bool)
  deriving Repr, DecidableEq

/-- Which alphabet the kinds of characters and the cases of letters are taken from, and whether
capital and small letters are the same. -/
structure LetterRule where
  ascii : Bool
  ignoreCase : Bool
  deriving Repr, DecidableEq

/-- Places in a text, which take no characters. -/
inductive Anchor where
  | textStart
  | lineStart
  | textEnd
  /-- The end of the text, or before a line feed at the end of the text. -/
  | lastLineEnd
  | lineEnd
  /-- Between a word character and another one, or at any other place. -/
  | wordBoundary (ascii negated : Bool)
  deriving Repr, DecidableEq

/-- How much a repetition takes. -/
inductive Greed where
  /-- As much as it can, and less if the rest does not match otherwise. -/
  | most
  /-- As little as it can, and more if the rest does not match otherwise. -/
  | least
  /-- As much as it can, and never less. -/
  | possessive
  deriving Repr, DecidableEq

/-- A regular expression. -/
inductive Regex where
  /-- Matches the empty text. -/
  | empty
  /-- Matches one character that is in a set, or not in it. -/
  | set (items : List SetItem) (negated : Bool) (rule : LetterRule)
  /-- Matches one character, and a line feed only if that is said. -/
  | anyChar (lineFeed : Bool)
  | anchor (a : Anchor)
  | seq (a b : Regex)
  | alt (a b : Regex)
  | repeated (greed : Greed) (least : Nat) (most? : Option Nat) (body : Regex)
  /-- What a numbered group matches can be referred to. -/
  | group (number? : Option Nat) (body : Regex)
  /-- Matches what a group has matched. -/
  | backref (number : Nat) (rule : LetterRule)
  /-- Matches in the first way in which the body does, and in no other way. -/
  | atomic (body : Regex)
  /-- Says what comes next, or what does not. -/
  | ahead (negated : Bool) (body : Regex)
  /-- Says what the last `width` characters are, or are not. -/
  | behind (width : Nat) (negated : Bool) (body : Regex)
  /-- Matches one thing if a group has matched, and another if not. -/
  | conditional (number : Nat) (yes no : Regex)
  deriving Repr

/-! ## Characters -/

/-- Small letters that have the same capital, in groups. -/
def sameCapital : List (List Nat) :=
  [[0x69, 0x131], [0x73, 0x17f], [0xb5, 0x3bc], [0x345, 0x3b9, 0x1fbe], [0x390, 0x1fd3],
    [0x3b0, 0x1fe3], [0x3b2, 0x3d0], [0x3b5, 0x3f5], [0x3b8, 0x3d1], [0x3ba, 0x3f0],
    [0x3c0, 0x3d6], [0x3c1, 0x3f1], [0x3c2, 0x3c3], [0x3c6, 0x3d5], [0x432, 0x1c80],
    [0x434, 0x1c81], [0x43e, 0x1c82], [0x441, 0x1c83], [0x442, 0x1c84, 0x1c85], [0x44a, 0x1c86],
    [0x463, 0x1c87], [0x1c88, 0xa64b], [0x1e61, 0x1e9b], [0xfb05, 0xfb06]]

/-- Whether a character is of a kind. -/
def CharKind.contains (k : CharKind) (ascii : Bool) (c : Char) : Bool :=
  match k with
  | .digit => if ascii then c.isDigit else isDigit c
  | .blank => if ascii then c == ' ' || (9 ≤ c.toNat && c.toNat ≤ 13) else isBlank c
  | .word => if ascii then c.isAlphanum || c == '_' else isWord c

namespace LetterRule

/-- The small letter of a character. -/
def small (rule : LetterRule) (c : Char) : Char :=
  if rule.ascii then c.toLower
  else if c.toNat == 0x130 then 'i'
  else lowerChar c

/-- The code points that count as the same as a character. -/
def variants (rule : LetterRule) (c : Char) : List Nat :=
  let small := rule.small c
  if rule.ascii then [small.toNat, small.toUpper.toNat]
  else
    let smalls := (sameCapital.find? fun g => g.contains small.toNat).getD [small.toNat]
    smalls ++ smalls.flatMap capitalsOf
where
  /-- The capitals of a small letter. -/
  capitalsOf (n : Nat) : List Nat :=
    (if n = 0x69 then [0x130] else []) ++ (if 0x61 ≤ n ∧ n ≤ 0x7a then [n - 32] else []) ++
    capitalRuns.filterMap fun (first, last, step, shift) =>
      let capital := ((n : Int) - shift).toNat
      if first ≤ capital ∧ capital ≤ last ∧ (capital - first) % step = 0 then some capital
      else none

/-- Whether a character is in a set. -/
def isIn (rule : LetterRule) (items : List SetItem) (c : Char) : Bool :=
  if rule.ignoreCase then
    let codes := rule.variants c
    items.any fun
      | .range first last => codes.any fun n => first ≤ n && n ≤ last
      | .kind k negated => k.contains rule.ascii (rule.small c) != negated
  else
    items.any fun
      | .range first last => first ≤ c.toNat && c.toNat ≤ last
      | .kind k negated => k.contains rule.ascii c != negated

/-- Whether two characters are the same. -/
def same (rule : LetterRule) (a b : Char) : Bool :=
  if rule.ignoreCase then rule.small a == rule.small b else a == b

end LetterRule

/-! ## Matching -/

/-- Whether a place is an anchor. -/
def Anchor.holds (text : Array Char) (pos : Nat) : Anchor → Bool
  | .textStart => pos == 0
  | .lineStart => pos == 0 || text[pos - 1]? == some '\n'
  | .textEnd => pos == text.size
  | .lastLineEnd => pos == text.size || (pos + 1 == text.size && text[pos]? == some '\n')
  | .lineEnd => pos == text.size || text[pos]? == some '\n'
  | .wordBoundary ascii negated =>
    let isWordAt (c? : Option Char) : Bool := c?.any (CharKind.word.contains ascii)
    let before := 0 < pos && isWordAt text[pos - 1]?
    -- there are no words, and so neither kind of place, in the empty text
    !text.isEmpty && (before != isWordAt text[pos]?) != negated

namespace Regex

/-- A place in a text and what the groups have matched on the way to it: where each begins and
ends, the last one first. -/
structure Progress where
  pos : Nat
  groups : List (Nat × Nat × Nat)
  deriving Repr, DecidableEq

/-- What a group has matched. -/
def Progress.group? (p : Progress) (number : Nat) : Option (Nat × Nat) :=
  p.groups.lookup number

/-- A way to go on from a place. -/
abbrev Continue := Progress → Option Progress

/-- A way to match from a place and to go on from there. -/
abbrev Match := Progress → Continue → Option Progress

/-- Takes one character of some sort. -/
def takeChar (text : Array Char) (ok : Char → Bool) : Match := fun p next =>
  match text[p.pos]? with
  | some c => if ok c then next { p with pos := p.pos + 1 } else none
  | none => none

/-- Takes the text between two places once more. -/
def takeAgain (text : Array Char) (rule : LetterRule) (first last : Nat) : Match := fun p next =>
  let length := last - first
  let same := (List.range length).all fun i =>
    match text[first + i]?, text[p.pos + i]? with
    | some a, some b => rule.same a b
    | _, _ => false
  if same then next { p with pos := p.pos + length } else none

/-- Matches a number of times. -/
def times (body : Match) : Nat → Match
  | 0 => fun p next => next p
  | n + 1 => fun p next => body p fun p => times body n p next

/-- Matches as often as possible, but not again once nothing was taken.  The fuel bounds the number
of times. -/
def asOften (body : Match) (next : Continue) :
    (fuel : Nat) → (left? : Option Nat) → (last? : Option Nat) → Continue
  | 0, _, _ => next
  | fuel + 1, left?, last? => fun p =>
    if left? = some 0 ∨ last? = some p.pos then next p
    else
      body p (asOften body next fuel (left?.map (· - 1)) (some p.pos)) <|> next p

/-- Matches as seldom as possible, and not again once nothing was taken.  The fuel bounds the
number of times. -/
def asSeldom (body : Match) (next : Continue) :
    (fuel : Nat) → (left? : Option Nat) → (last? : Option Nat) → Continue
  | 0, _, _ => next
  | fuel + 1, left?, last? => fun p =>
    next p <|>
      if left? = some 0 ∨ last? = some p.pos then none
      else body p (asSeldom body next fuel (left?.map (· - 1)) (some p.pos))

/-- Matches an expression and goes on.  A repetition that takes something each time comes to an end
with the text. -/
def matchWith (text : Array Char) : Regex → Match
  | .empty => fun p next => next p
  | .set items negated rule => takeChar text fun c => rule.isIn items c != negated
  | .anyChar lineFeed => takeChar text fun c => lineFeed || c != '\n'
  | .anchor a => fun p next => if a.holds text p.pos then next p else none
  | .seq a b => fun p next => matchWith text a p fun p => matchWith text b p next
  | .alt a b => fun p next => matchWith text a p next <|> matchWith text b p next
  | .repeated greed least most? body => fun p next =>
    let once := matchWith text body
    let fuel := text.size + 2
    let left? := most?.map (· - least)
    match greed with
    | .most => times once least p (asOften once next fuel left? none)
    | .least => times once least p (asSeldom once next fuel left? none)
    | .possessive => (times once least p (asOften once some fuel left? none)).bind next
  | .group none body => matchWith text body
  | .group (some n) body => fun p next =>
    matchWith text body p fun q => next { q with groups := (n, p.pos, q.pos) :: q.groups }
  | .backref n rule => fun p next =>
    match p.group? n with
    | some (first, last) => takeAgain text rule first last p next
    | none => none
  | .atomic body => fun p next => (matchWith text body p some).bind next
  | .ahead negated body => fun p next =>
    match matchWith text body p some, negated with
    | some q, false => next { q with pos := p.pos }
    | none, true => next p
    | _, _ => none
  | .behind width negated body => fun p next =>
    let found :=
      if p.pos < width then none else matchWith text body { p with pos := p.pos - width } some
    match found, negated with
    | some q, false => next { q with pos := p.pos }
    | none, true => next p
    | _, _ => none
  | .conditional n yes no => fun p next =>
    if (p.group? n).isSome then matchWith text yes p next else matchWith text no p next

/-- Whether an expression matches somewhere in a text. -/
def isIn (r : Regex) (text : String) : Bool :=
  let chars := text.toList.toArray
  (List.range (chars.size + 1)).any fun start => (matchWith chars r ⟨start, []⟩ some).isSome

/-! ## Widths -/

/-- The greatest width that is told apart. -/
def maxWidth : Nat := Nat.pow 2 64

/-- The least and the greatest number of characters that an expression takes, given the same for
the groups. -/
def width (groups : List (Nat × Nat × Nat)) : Regex → Nat × Nat
  | .set .. => (1, 1)
  | .anyChar _ => (1, 1)
  | .seq a b => capped (add (a.width groups) (b.width groups))
  | .alt a b =>
    let (i, j) := a.width groups
    let (k, l) := b.width groups
    (min i k, max j l)
  | .repeated _ least most? body =>
    let (i, j) := body.width groups
    let greatest :=
      match most? with
      | some n => j * n
      | none => if j = 0 then 0 else maxWidth
    capped (i * least, greatest)
  | .group _ body => body.width groups
  | .atomic body => body.width groups
  | .backref n _ => (groups.lookup n).getD (0, 0)
  | .conditional _ yes no =>
    let (i, j) := yes.width groups
    let (k, l) := no.width groups
    (min i k, max j l)
  | .empty => (0, 0)
  | .anchor _ => (0, 0)
  | .ahead .. => (0, 0)
  | .behind .. => (0, 0)
where
  /-- Widths one after another. -/
  add (a b : Nat × Nat) : Nat × Nat := (a.1 + b.1, a.2 + b.2)
  /-- Widths up to the greatest one. -/
  capped (a : Nat × Nat) : Nat × Nat := (min a.1 maxWidth, min a.2 maxWidth)

end Regex

end KsyTools.Text
