/-
# Percent escapes

In a URI a byte may be written as a percent sign and two hexadecimal digits, and has to be written
so unless it is a letter, a digit or one of a few marks.
-/
import KsyTools.Text.CharClass
import KsyTools.Text.Utf8

namespace KsyTools.Text.Percent

/-- Bytes that stand for themselves in a URI. -/
def isSafe (b : UInt8) : Bool :=
  let c := Char.ofNat b.toNat
  b.toNat < 128 && (c.isAlphanum || c == '_' || c == '.' || c == '-' || c == '~' || c == '/')

/-- A byte in a URI: itself, or a percent sign and two capital hexadecimal digits. -/
def encodeByte (b : UInt8) : List Char :=
  if isSafe b then [Char.ofNat b.toNat]
  else '%' :: (hexDigits 2 b.toNat).map Char.toUpper

/-- A text in a URI, byte by byte. -/
def encode (cs : List Char) : List Char :=
  (encodeUtf8 cs).flatMap encodeByte

/-- The bytes of a text in ASCII whose percent escapes are undone; a percent sign without two
hexadecimal digits behind it stands for itself. -/
def unescape : List Char → List UInt8
  | '%' :: a :: b :: rest =>
    match hexValue? a, hexValue? b with
    | some x, some y => UInt8.ofNat (x * 16 + y) :: unescape rest
    | _, _ => UInt8.ofNat 37 :: unescape (a :: b :: rest)
  | c :: rest => UInt8.ofNat c.toNat :: unescape rest
  | [] => []

/-- Undoes the percent escapes of a text.  Every run of ASCII characters is decoded by itself, with
U+FFFD for bytes that encode nothing. -/
def decode (cs : List Char) : List Char :=
  match cs with
  | [] => []
  | c :: rest =>
    if c.toNat < 128 then
      let run := rest.takeWhile fun c => c.toNat < 128
      decodeUtf8Lossy (unescape (c :: run)) ++ decode (rest.drop run.length)
    else c :: decode rest
  termination_by cs.length
  decreasing_by
    · simp only [List.length_drop, List.length_cons]
      omega
    · simp only [List.length_cons, Nat.lt_add_one]

end KsyTools.Text.Percent
