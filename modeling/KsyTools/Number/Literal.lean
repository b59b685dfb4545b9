/-
# Reading numbers

Readers for whole numbers in a given base and for numbers with a fraction or an exponent.  Both
take blanks around the number and decimal digits of any script.
-/
import KsyTools.Number.Decimal
import KsyTools.Text.CharClass
import KsyTools.Text.Quoted

namespace KsyTools

/-- Why a text is not read as a number. -/
inductive NumberFault where
  /-- The text is no whole number in this base. -/
  | notInteger (base : Nat) (text : String)
  /-- The text is no number. -/
  | notNumber (text : String)
  /-- A whole number has more digits than are converted. -/
  | tooManyDigits (count : Nat)
  /-- Nothing is left of the text where a first character is looked at. -/
  | empty
  /-- A whole number is too large to take part in a computation with fractions. -/
  | tooLarge
  /-- A whole number has more digits than are written. -/
  | tooLong
  /-- Something infinite is to be a fraction. -/
  | infinite
  /-- What is not a number is to be a whole number. -/
  | undefined
  deriving Repr, DecidableEq

/-- The most decimal digits that are converted to a number, or a number to. -/
def maxDigits : Nat := 4300

/-- The least number with too many digits to be written. -/
def tooLongBound : Nat := Nat.pow 10 maxDigits

/-- Whether a whole number has few enough digits to be written. -/
def isWritable (n : Int) : Bool :=
  n.natAbs < tooLongBound

/-- The wording of a fault. -/
def NumberFault.message : NumberFault → String
  | .notInteger base text =>
    let shown := String.ofList ((Text.quote text).toList.take 200)
    s!"invalid literal for int() with base {base}: {shown}"
  | .notNumber text => s!"could not convert string to float: {Text.quote text}"
  | .tooManyDigits count =>
    s!"Exceeds the limit ({maxDigits} digits) for integer string conversion: value has {count}" ++
      " digits; use sys.set_int_max_str_digits() to increase the limit"
  | .empty => "string index out of range"
  | .tooLarge => "int too large to convert to float"
  | .tooLong =>
    s!"Exceeds the limit ({maxDigits} digits) for integer string conversion;" ++
      " use sys.set_int_max_str_digits() to increase the limit"
  | .infinite => "cannot convert Infinity to integer ratio"
  | .undefined => "cannot convert float NaN to integer"

namespace Number

/-- The blanks that may stand around a number once those of other scripts are replaced. -/
def isGap (c : Char) : Bool :=
  c == ' ' || (9 ≤ c.toNat && c.toNat ≤ 13)

/-- Replaces blanks and digits of other scripts by their ASCII counterparts.  A text in ASCII is
left alone. -/
def toAscii (cs : List Char) : List Char :=
  if cs.all fun c => c.toNat < 128 then cs
  else cs.map fun c =>
    if c.toNat < 128 then c
    else if Text.isBlank c then ' '
    else match Text.digitValue? c with
      | some d => Nat.digitChar d
      | none => '?'

/-- The text without the gaps around it. -/
def trimGaps (cs : List Char) : List Char :=
  Text.dropEndWhile isGap (cs.dropWhile isGap)

/-- A sign at the start of a text. -/
def splitSign : List Char → Bool × List Char
  | '-' :: rest => (true, rest)
  | '+' :: rest => (false, rest)
  | cs => (false, cs)

/-- Drops the mark that numbers of a base may start with, and one underscore after it. -/
def dropBaseMark (base : Nat) (cs : List Char) : List Char :=
  let dropUnderscore : List Char → List Char
    | '_' :: rest => rest
    | rest => rest
  match cs with
  | '0' :: c :: rest =>
    if (base = 16 ∧ (c = 'x' ∨ c = 'X')) ∨ (base = 8 ∧ (c = 'o' ∨ c = 'O')) ∨
        (base = 2 ∧ (c = 'b' ∨ c = 'B')) then dropUnderscore rest
    else cs
  | _ => cs

/-- The value of a digit in a base. -/
def digitIn? (base : Nat) (c : Char) : Option Nat :=
  (Text.hexValue? c).filter (· < base)

/-- Digits with single underscores between them at the start of a text, and what follows them.
`none` when an underscore stands where none may. -/
def takeDigits (base : Nat) : List Char → Option (List Nat × List Char)
  | [] => some ([], [])
  | '_' :: c :: rest =>
    match digitIn? base c with
    | some _ => takeDigits base (c :: rest)
    | none => none
  | '_' :: [] => none
  | c :: rest =>
    match digitIn? base c with
    | some d => (takeDigits base rest).map fun (ds, tail) => (d :: ds, tail)
    | none => some ([], c :: rest)

/-- Reads a whole number. -/
def readInt (base : Nat) (text : String) : Except NumberFault Int :=
  let bad : Except NumberFault Int := .error (.notInteger base text)
  let (negative, unsigned) := splitSign ((toAscii text.toList).dropWhile isGap)
  match dropBaseMark base unsigned with
  | '_' :: _ => bad
  | body =>
    match takeDigits base body with
    | none => bad
    | some (digits, tail) =>
      if digits.isEmpty then bad
      else if base = 10 ∧ maxDigits < digits.length then .error (.tooManyDigits digits.length)
      else if !tail.all isGap then bad
      else
        let n : Int := Text.ofDigits base digits
        .ok (if negative then -n else n)

/-- The decimal digits at the start of a text and what follows them. -/
def spanDigits (cs : List Char) : List Nat × List Char :=
  ((cs.takeWhile Char.isDigit).map fun c => c.toNat - 48, cs.dropWhile Char.isDigit)

/-- An exponent at the end of a number. -/
def readExponent? : List Char → Option Int
  | [] => some 0
  | c :: rest =>
    if c = 'e' ∨ c = 'E' then
      let (negative, unsigned) := splitSign rest
      let (digits, tail) := spanDigits unsigned
      if digits.isEmpty || !tail.isEmpty then none
      else
        let n : Int := Text.ofDigits 10 digits
        some (if negative then -n else n)
    else none

/-- Reads an unsigned decimal number with an optional fraction and exponent. -/
def readDecimal? (negative : Bool) (cs : List Char) : Option Binary64 :=
  let (whole, rest) := spanDigits cs
  let (places, rest) :=
    match rest with
    | '.' :: rest => spanDigits rest
    | _ => ([], rest)
  if whole.isEmpty && places.isEmpty then none
  else
    (readExponent? rest).map fun k =>
      Decimal.toBinary64 negative (Text.ofDigits 10 (whole ++ places)) (k - places.length)

/-- Reads a number: decimal, infinite or not a number. -/
def readFloat (text : String) : Except NumberFault Binary64 :=
  let (negative, unsigned) := splitSign (trimGaps (toAscii text.toList))
  let word := String.ofList (unsigned.map Char.toLower)
  if word = "inf" ∨ word = "infinity" then .ok (.inf negative)
  else if word = "nan" then .ok .nan
  else
    match readDecimal? negative unsigned with
    | some x => .ok x
    | none => .error (.notNumber text)

end Number

end KsyTools
