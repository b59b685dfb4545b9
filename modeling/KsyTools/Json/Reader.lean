/-
# Reading JSON

The reader takes the usual grammar and also the words `NaN`, `Infinity` and `-Infinity`.  Of
members with one name the last one counts.
-/
import KsyTools.Json.Basic
import KsyTools.Number.Literal

namespace KsyTools

/-- What is wrong with a JSON text. -/
inductive JsonFault where
  | value
  | propertyName
  | colon
  | comma
  | extra
  | unterminated
  | control
  | escape
  | unicodeEscape
  | byteOrderMark
  /-- Containers are nested too deeply. -/
  | nesting
  | number (fault : NumberFault)
  deriving Repr, DecidableEq

/-- The wording of a fault. -/
def JsonFault.message : JsonFault → String
  | .value => "Expecting value"
  | .propertyName => "Expecting property name enclosed in double quotes"
  | .colon => "Expecting ':' delimiter"
  | .comma => "Expecting ',' delimiter"
  | .extra => "Extra data"
  | .unterminated => "Unterminated string starting at"
  | .control => "Invalid control character at"
  | .escape => "Invalid \\escape"
  | .unicodeEscape => "Invalid \\uXXXX escape"
  | .byteOrderMark => "Unexpected UTF-8 BOM (decode using utf-8-sig)"
  | .nesting => "maximum recursion depth exceeded"
  | .number fault => fault.message

namespace Json

/-- The most containers that may stand inside each other. -/
def maxNesting : Nat := 980

/-- The blanks between the parts of a JSON text. -/
def isGap (c : Char) : Bool :=
  c == ' ' || c == '\t' || c == '\n' || c == '\r'

/-- Drops blanks at the start. -/
def skipGaps (cs : List Char) : List Char :=
  cs.dropWhile isGap

/-- Four hexadecimal digits. -/
def fourHex? (cs : List Char) : Option (Nat × List Char) :=
  match cs with
  | a :: b :: c :: d :: rest =>
    match Text.hexValue? a, Text.hexValue? b, Text.hexValue? c, Text.hexValue? d with
    | some a, some b, some c, some d => some (Text.ofDigits 16 [a, b, c, d], rest)
    | _, _, _, _ => none
  | _ => none

/-- The character of an escape sequence of one letter. -/
def plainEscape? : Char → Option Char
  | '\x22' => some '\x22'
  | '\\' => some '\\'
  | '/' => some '/'
  | 'b' => some '\x08'
  | 'f' => some '\x0c'
  | 'n' => some '\n'
  | 'r' => some '\r'
  | 't' => some '\t'
  | _ => none

/-- Reads the rest of a string after its opening quote.  The fuel bounds the number of characters
read. -/
def readString : (fuel : Nat) → List Char → Except JsonFault (List Char × List Char)
  | 0, _ => .error .unterminated
  | _, [] => .error .unterminated
  | fuel + 1, c :: rest =>
    if c = '\x22' then .ok ([], rest)
    else if c = '\\' then
      match rest with
      | [] => .error .unterminated
      | 'u' :: rest =>
        match fourHex? rest with
        | none => .error .unicodeEscape
        | some (high, rest) =>
          -- a pair of surrogates stands for one character
          let low? :=
            match rest with
            | '\\' :: 'u' :: rest => (fourHex? rest).filter fun (n, _) => 0xdc00 ≤ n && n < 0xe000
            | _ => none
          match low? with
          | some (low, rest') =>
            if 0xd800 ≤ high ∧ high < 0xdc00 then
              let code := 0x10000 + (high - 0xd800) * 0x400 + (low - 0xdc00)
              (readString fuel rest').map fun (s, tail) => (Char.ofNat code :: s, tail)
            else (readString fuel rest).map fun (s, tail) => (Char.ofNat high :: s, tail)
          | none => (readString fuel rest).map fun (s, tail) => (Char.ofNat high :: s, tail)
      | e :: rest =>
        match plainEscape? e with
        | some c => (readString fuel rest).map fun (s, tail) => (c :: s, tail)
        | none => .error .escape
    else if c.toNat < 32 then .error .control
    else (readString fuel rest).map fun (s, tail) => (c :: s, tail)

/-- Reads an unsigned number. -/
def readNumber (negative : Bool) (cs : List Char) : Except JsonFault (Json × List Char) :=
  let whole? :=
    match cs with
    | '0' :: rest => some ([0], rest)
    | _ => let (ds, rest) := Number.spanDigits cs; if ds.isEmpty then none else some (ds, rest)
  match whole? with
  | none => .error .value
  | some (whole, rest) =>
    let (places, rest) :=
      match rest with
      | '.' :: tail =>
        let (ds, tail) := Number.spanDigits tail
        if ds.isEmpty then ([], rest) else (ds, tail)
      | _ => ([], rest)
    let exponent? : Option (Int × List Char) :=
      match rest with
      | e :: tail =>
        if e = 'e' ∨ e = 'E' then
          let (minus, unsigned) := Number.splitSign tail
          let (ds, tail) := Number.spanDigits unsigned
          if ds.isEmpty then none
          else
            let n : Int := Text.ofDigits 10 ds
            some (if minus then -n else n, tail)
        else none
      | [] => none
    if places.isEmpty && exponent?.isNone then
      if maxDigits < whole.length then .error (.number (.tooManyDigits whole.length))
      else
        let n : Int := Text.ofDigits 10 whole
        .ok (.int (if negative then -n else n), rest)
    else
      let (k, rest) := exponent?.getD (0, rest)
      let x := Decimal.toBinary64 negative (Text.ofDigits 10 (whole ++ places)) (k - places.length)
      .ok (.float x, rest)

/-- The text after a word, if it starts with the word. -/
def afterWord? (word : String) (cs : List Char) : Option (List Char) :=
  if word.toList.isPrefixOf cs then some (cs.drop word.length) else none

/-- Reads a value that is neither a string nor a container. -/
def readAtom (cs : List Char) : Except JsonFault (Json × List Char) :=
  let words : List (String × Json) :=
    [("null", .null), ("true", .bool true), ("false", .bool false), ("NaN", .float .nan),
      ("Infinity", .float (.inf false)), ("-Infinity", .float (.inf true))]
  match words.findSome? fun (word, value) => (afterWord? word cs).map fun rest => (value, rest) with
  | some found => .ok found
  | none =>
    match cs with
    | '-' :: rest => readNumber true rest
    | _ => readNumber false cs

mutual

/-- Reads a value at the start of a text, in which containers stand inside each other at most
`depth` times.  The fuel bounds the number of values and parts read. -/
def readValue : (fuel depth : Nat) → List Char → Except JsonFault (Json × List Char)
  | 0, _, _ => .error .value
  | fuel + 1, depth, cs =>
    match cs, depth with
    | '\x22' :: rest, _ => (readString (rest.length + 1) rest).map fun (s, tail) =>
        (.str (String.ofList s), tail)
    | '[' :: _, 0 => .error .nesting
    | '[' :: rest, depth + 1 =>
      match skipGaps rest with
      | ']' :: tail => .ok (.arr [], tail)
      | rest => (readItems fuel depth rest).map fun (items, tail) => (.arr items, tail)
    | '\x7b' :: _, 0 => .error .nesting
    | '\x7b' :: rest, depth + 1 =>
      match skipGaps rest with
      | '\x7d' :: tail => .ok (.obj [], tail)
      | rest => (readMembers fuel depth [] rest).map fun (members, tail) => (.obj members, tail)
    | _, _ => readAtom cs

/-- Reads the items of an array up to its closing bracket. -/
def readItems : (fuel depth : Nat) → List Char → Except JsonFault (List Json × List Char)
  | 0, _, _ => .error .value
  | fuel + 1, depth, cs => do
    let (item, rest) ← readValue fuel depth cs
    match skipGaps rest with
    | ']' :: tail => .ok ([item], tail)
    | ',' :: tail =>
      let (items, tail) ← readItems fuel depth (skipGaps tail)
      .ok (item :: items, tail)
    | _ => .error .comma

/-- Reads the members of an object up to its closing brace, after those read already. -/
def readMembers : (fuel depth : Nat) → List (String × Json) → List Char →
    Except JsonFault (List (String × Json) × List Char)
  | 0, _, _, _ => .error .value
  | fuel + 1, depth, members, cs =>
    match cs with
    | '\x22' :: rest => do
      let (key, rest) ← readString (rest.length + 1) rest
      match skipGaps rest with
      | ':' :: rest =>
        let (value, rest) ← readValue fuel depth (skipGaps rest)
        let members := setMember members (String.ofList key) value
        match skipGaps rest with
        | '\x7d' :: tail => .ok (members, tail)
        | ',' :: tail => readMembers fuel depth members (skipGaps tail)
        | _ => .error .comma
      | _ => .error .colon
    | _ => .error .propertyName

end

/-- Reads a whole JSON text. -/
def read (text : String) : Except JsonFault Json :=
  match text.toList with
  | '\ufeff' :: _ => .error .byteOrderMark
  | cs => do
    let (value, rest) ← readValue (2 * cs.length + 2) maxNesting (skipGaps cs)
    if (skipGaps rest).isEmpty then .ok value else .error .extra

end Json

end KsyTools
