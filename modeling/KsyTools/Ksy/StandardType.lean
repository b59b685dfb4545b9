/-
# Standard types

The types that every format description can use without defining them: numbers by sign, size and
byte order, texts, and numbers of a given count of bits.
-/
import KsyTools.Text.CharClass

namespace KsyTools.Ksy

/-- The standard types with fixed names. -/
def standardTypes : List String :=
  ["f4", "f8", "f4be", "f8be", "f4le", "f8le",
    "s1", "s2", "s4", "s8", "s1be", "s2be", "s4be", "s8be", "s1le", "s2le", "s4le", "s8le",
    "u1", "u2", "u4", "u8", "u1be", "u2be", "u4be", "u8be", "u1le", "u2le", "u4le", "u8le",
    "str", "strz"]

/-- A count of bits: the letter `b` and at least one decimal digit. -/
def isBitType (cs : List Char) : Bool :=
  match cs with
  | 'b' :: digits => !digits.isEmpty && digits.all Text.isDigit
  | _ => false

/-- Whether a name, blanks around it left aside, is that of a standard type. -/
def isStandardType (name : String) : Bool :=
  let bare := Text.strip name
  standardTypes.contains bare || isBitType bare.toList

end KsyTools.Ksy
