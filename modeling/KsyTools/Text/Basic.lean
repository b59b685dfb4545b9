/-
# Parts of texts, and the order of texts

A slice takes the part of a text between two offsets.  A negative offset counts from the end of
the text, and offsets beyond either end stand for that end.  Lists of texts are compared item by
item, each by the characters; a list comes before those that it is the start of.
-/

namespace KsyTools.Text

/-- The place in a text of the given length that an offset stands for. -/
def clampIndex (length : Nat) (i : Int) : Nat :=
  if i < 0 then (length + i).toNat else min i.toNat length

/-- The characters from offset `i` up to, and without, offset `j`. -/
def slice {α : Type} (xs : List α) (i j : Int) : List α :=
  let start := clampIndex xs.length i
  (xs.drop start).take (clampIndex xs.length j - start)

/-- Whether a text ends with another one. -/
def hasEnding (ending s : String) : Bool :=
  ending.toList.isSuffixOf s.toList

/-- The text without its last `n` characters. -/
def dropEnd (n : Nat) (s : String) : String :=
  String.ofList (s.toList.take (s.length - n))

/-- Whether a list of texts comes before another, or is the same. -/
def listAtMost : List String → List String → Bool
  | [], _ => true
  | _ :: _, [] => false
  | a :: as, b :: bs => if a = b then listAtMost as bs else decide (a < b)

end KsyTools.Text
