/-
# Values of scalars

How the text of a scalar is turned into the value that its tag asks for.
-/
import KsyTools.Text.Casing
import KsyTools.Text.Lines
import KsyTools.Yaml.Data

namespace KsyTools.Yaml

/-- Why base64 text has no value. -/
inductive Base64Fault where
  | padding
  | length (count : Nat)
  deriving Repr, DecidableEq

/-- The wording of a fault. -/
def Base64Fault.message : Base64Fault → String
  | .padding => "Incorrect padding"
  | .length count =>
    s!"Invalid base64-encoded string: number of data characters ({count}) cannot be 1 more than "
      ++ "a multiple of 4"

/-- The value of a base64 digit. -/
def base64Value? (c : Char) : Option Nat :=
  if 'A' ≤ c ∧ c ≤ 'Z' then some (c.toNat - 65)
  else if 'a' ≤ c ∧ c ≤ 'z' then some (c.toNat - 71)
  else if '0' ≤ c ∧ c ≤ '9' then some (c.toNat + 4)
  else if c = '+' then some 62
  else if c = '/' then some 63
  else none

/-- The digits of base64 text up to the padding that ends it, and whether it was ended so.  `count`
is the number of digits before, `pads` the number of padding characters since the last digit;
other characters are skipped. -/
def base64Digits (count pads : Nat) : List Char → List Nat × Bool
  | [] => ([], false)
  | c :: rest =>
    if c = '=' then
      if 2 ≤ count % 4 then
        if 4 ≤ count % 4 + (pads + 1) then ([], true) else base64Digits count (pads + 1) rest
      else base64Digits count pads rest
    else
      match base64Value? c with
      | some d => let (ds, ended) := base64Digits (count + 1) 0 rest; (d :: ds, ended)
      | none => base64Digits count pads rest

/-- The bytes of base64 digits, six bits each. -/
def base64Bytes : List Nat → List UInt8
  | a :: b :: c :: d :: rest =>
    UInt8.ofNat (a * 4 + b / 16) :: UInt8.ofNat (b % 16 * 16 + c / 4) ::
      UInt8.ofNat (c % 4 * 64 + d) :: base64Bytes rest
  | [a, b, c] => [UInt8.ofNat (a * 4 + b / 16), UInt8.ofNat (b % 16 * 16 + c / 4)]
  | [a, b] => [UInt8.ofNat (a * 4 + b / 16)]
  | _ => []

/-- Decodes base64 text. -/
def decodeBase64 (cs : List Char) : Except Base64Fault (List UInt8) :=
  let (digits, ended) := base64Digits 0 0 cs
  let bytes := base64Bytes digits
  if ended || digits.length % 4 = 0 then .ok bytes
  else if digits.length % 4 = 1 then .error (.length (bytes.length / 3 * 4 + 1))
  else .error .padding

/-- The wording for the first characters of a text that are not ASCII. -/
def asciiMessage (cs : List Char) : Option String :=
  let isAscii (c : Char) : Bool := c.toNat < 128
  let start := (cs.takeWhile isAscii).length
  match (cs.drop start).takeWhile fun c => !isAscii c with
  | [] => none
  | [c] =>
    let shown := String.ofList (Text.escapeCode c)
    some (s!"'ascii' codec can't encode character '{shown}' in position {start}: " ++
      "ordinal not in range(128)")
  | run =>
    some (s!"'ascii' codec can't encode characters in position {start}-{start + run.length - 1}: "
      ++ "ordinal not in range(128)")

/-- The words for truth values, in lower case. -/
def boolWords : List (String × Bool) :=
  [("yes", true), ("no", false), ("true", true), ("false", false), ("on", true), ("off", false)]

/-- The truth value that a word stands for. -/
def boolValue (text : String) : Except ScalarFault Bool :=
  let word := Text.lower text
  match boolWords.lookup word with
  | some b => .ok b
  | none => .error (.notBool word)

/-- Splits the sign off a number whose underscores are dropped.  There has to be a first character
to look at. -/
def signedText (text : String) : Except ScalarFault (Bool × List Char) :=
  match text.toList.filter (· != '_') with
  | [] => .error (.number .empty)
  | '-' :: rest => .ok (true, rest)
  | '+' :: rest => .ok (false, rest)
  | cs => .ok (false, cs)

/-- The value of places in base sixty, most significant first. -/
def ofSixties (places : List Int) : Int :=
  places.foldl (fun n d => n * 60 + d) 0

/-- Lifts the faults of a reader of numbers. -/
def liftNumber {α : Type} (r : Except NumberFault α) : Except ScalarFault α :=
  r.mapError .number

/-- The whole number that a text stands for, in one of the bases 2, 8, 10, 16 and 60. -/
def intValue (text : String) : Except ScalarFault Int := do
  let (negative, body) ← signedText text
  let magnitude ←
    match body with
    | ['0'] => pure 0
    | '0' :: 'b' :: rest => liftNumber (Number.readInt 2 (String.ofList rest))
    | '0' :: 'x' :: rest => liftNumber (Number.readInt 16 (String.ofList rest))
    | '0' :: _ => liftNumber (Number.readInt 8 (String.ofList body))
    | [] => throw (.number .empty)
    | _ =>
      if body.contains ':' then
        let parts := (Text.splitOnChar ':' body).map String.ofList
        return ofSixties (← parts.mapM fun part => liftNumber (Number.readInt 10 part)) *
          (if negative then -1 else 1)
      else liftNumber (Number.readInt 10 (String.ofList body))
  return if negative then -magnitude else magnitude

/-- The sum of places in base sixty, least significant first, rounded at every step; `base` is the
weight of the first place. -/
def sumSixties (total : Binary64) (base : Nat) : List Binary64 → Except ScalarFault Binary64
  | [] => .ok total
  | digit :: rest =>
    match Binary64.ofInt base with
    | .inf _ => .error (.number .tooLarge)
    | weight => sumSixties (total.add (digit.mul weight)) (base * 60) rest

/-- The number that a text stands for.  The flag tells the one spelling of what is not a number
that stands for the same value wherever it occurs. -/
def floatValue (text : String) : Except ScalarFault (Binary64 × Bool) := do
  let (negative, body) ← signedText (Text.lower text)
  let word := String.ofList body
  if word = ".inf" then return (.inf negative, false)
  if word = ".nan" then return (.nan, true)
  let magnitude ←
    if body.contains ':' then
      let parts := (Text.splitOnChar ':' body).map String.ofList
      let digits ← parts.mapM fun part => liftNumber (Number.readFloat part)
      sumSixties (.zero false) 1 digits.reverse
    else liftNumber (Number.readFloat word)
  return (if negative then magnitude.neg else magnitude, false)

/-- The date or time that a text stands for. -/
def timestampValue (text : String) : Except ScalarFault Atom :=
  match timestampFields? text.toList with
  | none => .error .notTimestamp
  | some (date, none) => (date.check.map fun _ => Atom.date date).mapError .date
  | some (date, some clock) => ((clock.check date).map Atom.datetime).mapError .date

end KsyTools.Yaml
