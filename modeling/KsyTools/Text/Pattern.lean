/-
# Patterns

Regular expressions over characters.  Whether a pattern matches a text is decided one character at
a time: the derivative of a pattern by a character matches what may follow that character.
-/

namespace KsyTools.Text

/-- A set of characters: ranges, or everything outside of them. -/
structure CharSet where
  ranges : List (Char × Char)
  negated : Bool
  deriving Repr, DecidableEq

namespace CharSet

/-- Whether a character is in the set. -/
def contains (s : CharSet) (c : Char) : Bool :=
  (s.ranges.any fun (first, last) => first ≤ c && c ≤ last) != s.negated

/-- The set of the characters of a text. -/
def ofString (s : String) : CharSet :=
  ⟨s.toList.map fun c => (c, c), false⟩

/-- A single range. -/
def range (first last : Char) : CharSet :=
  ⟨[(first, last)], false⟩

/-- The characters of two sets that are not negated. -/
def union (a b : CharSet) : CharSet :=
  ⟨a.ranges ++ b.ranges, false⟩

end CharSet

/-- A regular expression. -/
inductive Pattern where
  /-- Matches nothing. -/
  | never
  /-- Matches the empty text. -/
  | nothing
  /-- Matches one character of a set. -/
  | one (s : CharSet)
  /-- Matches one text after another. -/
  | seq (a b : Pattern)
  /-- Matches either of two. -/
  | alt (a b : Pattern)
  /-- Matches any number of times. -/
  | star (a : Pattern)
  deriving Repr, DecidableEq

namespace Pattern

/-- Whether the empty text matches. -/
def nullable : Pattern → Bool
  | .never => false
  | .nothing => true
  | .one _ => false
  | .seq a b => a.nullable && b.nullable
  | .alt a b => a.nullable || b.nullable
  | .star _ => true

/-- A sequence, simplified where one part is trivial. -/
def andThen : Pattern → Pattern → Pattern
  | .never, _ => .never
  | .nothing, b => b
  | _, .never => .never
  | a, b => .seq a b

/-- A choice, simplified where one part is trivial. -/
def orElse : Pattern → Pattern → Pattern
  | .never, b => b
  | a, .never => a
  | a, b => if a = b then a else .alt a b

/-- What may follow the character `c`. -/
def deriv (c : Char) : Pattern → Pattern
  | .never => .never
  | .nothing => .never
  | .one s => if s.contains c then .nothing else .never
  | .seq a b =>
    let first := andThen (a.deriv c) b
    if a.nullable then orElse first (b.deriv c) else first
  | .alt a b => orElse (a.deriv c) (b.deriv c)
  | .star a => andThen (a.deriv c) (.star a)

/-- Whether a whole text matches. -/
def accepts (p : Pattern) : List Char → Bool
  | [] => p.nullable
  | c :: rest => (p.deriv c).accepts rest

/-- Whether a whole text matches, a line feed at its end left aside. -/
def acceptsLine (p : Pattern) (cs : List Char) : Bool :=
  p.accepts cs || (cs.getLast? == some '\n' && p.accepts cs.dropLast)

/-! ## Building patterns -/

/-- One given character. -/
def char (c : Char) : Pattern :=
  .one (.range c c)

/-- One of the characters of a text. -/
def anyOf (s : String) : Pattern :=
  .one (.ofString s)

/-- One character between two. -/
def between (first last : Char) : Pattern :=
  .one (.range first last)

/-- A given text. -/
def word (s : String) : Pattern :=
  s.toList.foldr (fun c p => .seq (char c) p) .nothing

/-- One of several texts. -/
def oneOf (words : List String) : Pattern :=
  words.foldr (fun w p => .alt (word w) p) .never

/-- All of several patterns, one after another. -/
def all (ps : List Pattern) : Pattern :=
  ps.foldr .seq .nothing

/-- Any of several patterns. -/
def any (ps : List Pattern) : Pattern :=
  ps.foldr .alt .never

/-- At most once. -/
def opt (p : Pattern) : Pattern :=
  .alt p .nothing

/-- At least once. -/
def plus (p : Pattern) : Pattern :=
  .seq p (.star p)

end Pattern

end KsyTools.Text
