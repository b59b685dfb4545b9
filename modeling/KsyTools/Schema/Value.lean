/-
# Values as schemas see them

Schemas speak of JSON: arrays, objects whose keys are texts, and values without parts.  The values
of a YAML text are seen in this way after their keys were turned into texts.  Dates, bytes, sets
and the entries of ordered maps stay what they are, and are of no type.
-/
import KsyTools.Failure
import KsyTools.Json.Basic
import KsyTools.Yaml.Data

namespace KsyTools

open Yaml (Data Atom)

/-- A value as a schema sees it. -/
inductive Value where
  | atom (a : Atom)
  | list (items : List Value)
  | object (members : List (String × Value))
  /-- A set or an entry of an ordered map. -/
  | other (d : Data)
  deriving Repr, Inhabited

/-! ## From plain data and JSON -/

/-- The text that a key of a map becomes. -/
def Yaml.Atom.keyText : Atom → Except KsyTools.Failure String
  | .bool b => .ok (if b then "true" else "false")
  | a => if a.isWritable then .ok a.text else .error (.number .tooLong)

namespace Value

/-- Sets a member: a known one keeps its place and takes the new value. -/
def putMember (members : List (String × Value)) (name : String) (value : Value) :
    List (String × Value) :=
  if members.any fun m => m.1 == name then
    members.map fun m => if m.1 == name then (name, value) else m
  else members ++ [(name, value)]

mutual

/-- Plain data as a schema sees it.  A value that contains itself has no end. -/
def ofData : Data → Except Failure Value
  | .atom a => .ok (.atom a)
  | .list _ items => do return .list (← itemsOfData items)
  | .map _ entries => do
    let members ← membersOfData entries
    return .object (members.foldl (fun ms (name, value) => putMember ms name value) [])
  | .set members => .ok (.other (.set members))
  | .tuple key value => .ok (.other (.tuple key value))
  | .cycle _ => .error .endless

/-- The items of a list. -/
def itemsOfData : List Data → Except Failure (List Value)
  | [] => .ok []
  | item :: rest => do return (← ofData item) :: (← itemsOfData rest)

/-- The entries of a map, with texts as keys. -/
def membersOfData : List (Atom × Data) → Except Failure (List (String × Value))
  | [] => .ok []
  | (key, value) :: rest => do
    let name ← key.keyText
    return (name, ← ofData value) :: (← membersOfData rest)

end

mutual

/-- A JSON value as a schema sees it. -/
def ofJson : Json → Value
  | .null => .atom .null
  | .bool b => .atom (.bool b)
  | .int n => .atom (.int n)
  | .float x => .atom (.float x)
  | .str s => .atom (.str s)
  | .arr items => .list (itemsOfJson items)
  | .obj members => .object (membersOfJson members)

/-- The items of an array. -/
def itemsOfJson : List Json → List Value
  | [] => []
  | item :: rest => ofJson item :: itemsOfJson rest

/-- The members of an object. -/
def membersOfJson : List (String × Json) → List (String × Value)
  | [] => []
  | (name, value) :: rest => (name, ofJson value) :: membersOfJson rest

end

mutual

/-- The value as plain data again. -/
def toData : Value → Data
  | .atom a => .atom a
  | .list items => .list 0 (itemsToData items)
  | .object members => .map 0 (membersToData members)
  | .other d => d

/-- The items of a list as plain data. -/
def itemsToData : List Value → List Data
  | [] => []
  | item :: rest => item.toData :: itemsToData rest

/-- The members of an object as plain data. -/
def membersToData : List (String × Value) → List (Atom × Data)
  | [] => []
  | (name, value) :: rest => (.str name, value.toData) :: membersToData rest

end

/-- The value, written as an expression. -/
def expression (v : Value) : String :=
  v.toData.expression

/-- Whether a value can be written. -/
def isWritable (v : Value) : Bool :=
  v.toData.isWritable

end Value

/-! ## Comparisons -/

/-- Whether two atoms are the same value for a schema: a truth value is not the same as a number. -/
def Yaml.Atom.equals (a b : Atom) : Bool :=
  match a, b with
  | .bool x, .bool y => x == y
  | .bool _, _ => false
  | _, .bool _ => false
  | a, b => a.same b

namespace Yaml.Data

/-- The items of a value that is a sequence of some sort: bytes are a sequence of numbers. -/
def sequence? : Data → Option (List Data)
  | .list _ items => some items
  | .tuple key value => some [key, value]
  | .atom (.bytes bs) => some (bs.map fun b => .atom (.int b.toNat))
  | _ => none

mutual

/-- Whether two values are the same for a schema. -/
def equals : Data → Data → Bool
  | .atom (.bytes bs), d =>
    match d.sequence? with
    | some items => bs.length == items.length && (bs.zip items).all fun (b, item) =>
        match item with
        | .atom a => Atom.equals (.int b.toNat) a
        | _ => false
    | none => false
  | .atom a, .atom b => a.equals b
  | .list _ xs, d =>
    match d.sequence? with
    | some ys => itemsEqual xs ys
    | none => false
  | .tuple x y, d =>
    match d.sequence? with
    | some [a, b] => equals x a && equals y b
    | _ => false
  | .map _ xs, .map _ ys => xs.length == ys.length && entriesEqual xs ys
  | .set xs, .set ys => xs.length == ys.length && xs.all fun x => ys.any x.same
  | _, _ => false

/-- Whether two lists have the same items. -/
def itemsEqual : List Data → List Data → Bool
  | [], [] => true
  | x :: xs, y :: ys => equals x y && itemsEqual xs ys
  | _, _ => false

/-- Whether every entry of one map is in another. -/
def entriesEqual : List (Atom × Data) → List (Atom × Data) → Bool
  | [], _ => true
  | (key, x) :: rest, ys =>
    (match ys.find? fun e => e.1.same key with
      | some (_, y) => equals x y
      | none => false) && entriesEqual rest ys

end

end Yaml.Data

/-- Whether two values are the same for a schema. -/
def Value.equals (a b : Value) : Bool :=
  a.toData.equals b.toData

/-- Whether a value is what stands for no number. -/
def Value.isUndefined : Value → Bool
  | .atom (.float .nan) => true
  | _ => false

/-- Whether no value of a list comes again.  What is not a number is the same as itself here. -/
def Value.areDistinct : List Value → Bool
  | [] => true
  | v :: rest =>
    !(rest.any fun w => v.equals w || (v.isUndefined && w.isUndefined)) && Value.areDistinct rest

namespace Yaml.Atom

/-- Whether an atom is a number; truth values are none. -/
def isNumber : Atom → Bool
  | .int _ => true
  | .float _ => true
  | _ => false

/-- Whether one number is less than another; other atoms are not ordered. -/
def lessThan (a b : Atom) : Bool :=
  match a, b with
  | .int m, .int n => m < n
  | .int m, .float y => y.gtInt m
  | .float x, .int n => x.ltInt n
  | .float x, .float y => x.lt y
  | _, _ => false

/-- Whether one number is at most another. -/
def atMost (a b : Atom) : Bool :=
  a.lessThan b || (a.isNumber && b.isNumber && a.same b)

/-- The number with limited precision that is nearest to a number. -/
def toBinary64 : Atom → Except NumberFault Binary64
  | .int n =>
    match Binary64.ofInt n with
    | .inf _ => .error .tooLarge
    | x => .ok x
  | .float x => .ok x
  | _ => .ok .nan

/-- Whether a number is a whole number of times another one.  If both are whole numbers, or only
the second is, this is exact.  If the second has a fraction, it is asked of the rounded quotient,
unless the quotient is too large to be rounded. -/
def isMultiple (a b : Atom) : Except NumberFault Bool := do
  match a, b with
  | .int m, .int n => return m % n == 0
  | .float x, .int _ => return x.isMultiple (← b.toBinary64)
  | _, _ =>
    let x ← a.toBinary64
    let y ← b.toBinary64
    match x.div y, x with
    | .nan, _ => throw .undefined
    | .inf _, .inf _ => throw .infinite
    | .inf _, _ =>
      match a, y with
      | .int m, .finite _ n e =>
        let (p, q) := Binary64.fraction n e
        return m.natAbs * q % p == 0
      | _, _ => return x.isMultiple y
    | quotient, _ => return quotient.toInt?.isSome

end Yaml.Atom

end KsyTools
