/-
# Plain data

The values that a YAML text stands for.  Only atoms can be keys of maps and members of sets.
-/
import KsyTools.Number.Literal
import KsyTools.Yaml.Time

namespace KsyTools.Yaml

/-- A value without parts. -/
inductive Atom where
  | null
  | bool (b : Bool)
  | int (n : Int)
  | float (x : Binary64)
  | str (s : String)
  | bytes (bytes : List UInt8)
  | date (d : Date)
  | datetime (t : DateTime)
  deriving Repr, DecidableEq, Inhabited

/-- The containers that can stand inside themselves. -/
inductive Container where
  | list
  | map
  | tuple
  deriving Repr, DecidableEq, Inhabited

/-- A value.  Lists and maps have numbers, by which one that stands at several places is known. -/
inductive Data where
  | atom (a : Atom)
  | list (number : Nat) (items : List Data)
  /-- Entries in the order in which their keys first came. -/
  | map (number : Nat) (entries : List (Atom × Data))
  | set (members : List Atom)
  /-- An entry of an ordered map, whose key may be anything. -/
  | tuple (key value : Data)
  /-- A container at a place inside itself. -/
  | cycle (container : Container)
  deriving Repr, Inhabited

namespace Atom

/-- The whole number that an atom counts as in comparisons. -/
def toInt? : Atom → Option Int
  | .bool b => some (if b then 1 else 0)
  | .int n => some n
  | .float x => x.toInt?
  | _ => none

/-- Whether two atoms are the same key: numbers and truth values are compared by value, and what is
not a number is the same as nothing. -/
def same (a b : Atom) : Bool :=
  match a, b with
  | .float x, .float y => x.same y
  | .datetime t, .datetime u => t.same u
  | .date d, .date e => d == e
  | .str s, .str t => s == t
  | .bytes s, .bytes t => s == t
  | .null, .null => true
  | a, b =>
    match a.toInt?, b.toInt? with
    | some m, some n => m == n
    | _, _ => false

/-- The atom, written as an expression. -/
def expression : Atom → String
  | .null => "None"
  | .bool b => if b then "True" else "False"
  | .int n => toString n
  | .float x => x.text
  | .str s => Text.quote s
  | .bytes bs => Text.quoteBytes bs
  | .date d => d.expression
  | .datetime t => t.expression

/-- Whether an atom can be written: whole numbers have a limit. -/
def isWritable : Atom → Bool
  | .int n => KsyTools.isWritable n
  | _ => true

/-- The atom as plain text. -/
def text : Atom → String
  | .str s => s
  | .date d => d.text
  | .datetime t => t.text " "
  | a => a.expression

end Atom

/-- A container inside itself, written as an expression. -/
def Container.ellipsis : Container → String
  | .list => "[...]"
  | .map => "\x7b...\x7d"
  | .tuple => "(...)"

namespace Data

mutual

/-- The value, written as an expression. -/
def expression : Data → String
  | .atom a => a.expression
  | .list _ items => "[" ++ ", ".intercalate (itemExpressions items) ++ "]"
  | .map _ entries => "\x7b" ++ ", ".intercalate (entryExpressions entries) ++ "\x7d"
  | .set members =>
    if members.isEmpty then "set()"
    else "\x7b" ++ ", ".intercalate (members.map Atom.expression) ++ "\x7d"
  | .tuple key value => "(" ++ key.expression ++ ", " ++ value.expression ++ ")"
  | .cycle container => container.ellipsis

/-- The items of a list, written as expressions. -/
def itemExpressions : List Data → List String
  | [] => []
  | item :: rest => item.expression :: itemExpressions rest

/-- The entries of a map, written as expressions. -/
def entryExpressions : List (Atom × Data) → List String
  | [] => []
  | (key, value) :: rest => (key.expression ++ ": " ++ value.expression) :: entryExpressions rest

end

mutual

/-- Whether all atoms of a value can be written. -/
def isWritable : Data → Bool
  | .atom a => a.isWritable
  | .list _ items => areWritable items
  | .map _ entries => areEntriesWritable entries
  | .set members => members.all Atom.isWritable
  | .tuple key value => key.isWritable && value.isWritable
  | .cycle _ => true

/-- Whether all atoms of the items of a list can be written. -/
def areWritable : List Data → Bool
  | [] => true
  | item :: rest => item.isWritable && areWritable rest

/-- Whether all atoms of the entries of a map can be written. -/
def areEntriesWritable : List (Atom × Data) → Bool
  | [] => true
  | (key, value) :: rest => key.isWritable && value.isWritable && areEntriesWritable rest

end

end Data

end KsyTools.Yaml
