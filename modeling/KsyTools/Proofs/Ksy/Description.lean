/-
# Format descriptions

Which values describe a binary format, said without a schema: a description is a record of sections,
each section has its own class of values, and the section `types` holds descriptions again, to any
depth.  Every record is open for members whose names start with a hyphen.  A member that a record
names has to be in the class of that name where it is present.
-/
import KsyTools.Schema.Value
import Mathlib.Tactic.Common

namespace KsyTools.Ksy

open Yaml (Atom)

/-! ## Names -/

/-- The text is one of a set of words; a line feed may stand behind it. -/
def IsLineIn (words : Set (List Char)) (s : String) : Prop :=
  s.toList ∈ words ∨ ∃ w ∈ words, s.toList = w ++ ['\n']

def IsSmallLetter (c : Char) : Prop :=
  'a' ≤ c ∧ c ≤ 'z'

def IsDigit (c : Char) : Prop :=
  '0' ≤ c ∧ c ≤ '9'

/-- A digit in base 16. -/
def IsHexDigit (c : Char) : Prop :=
  IsDigit c ∨ ('a' ≤ c ∧ c ≤ 'f') ∨ ('A' ≤ c ∧ c ≤ 'F')

/-- A small letter, then small letters, digits and underscores. -/
inductive IdentifierWord : List Char → Prop
  | mk {first : Char} {rest : List Char} (letter : IsSmallLetter first)
      (others : ∀ c ∈ rest, IsSmallLetter c ∨ IsDigit c ∨ c = '_') : IdentifierWord (first :: rest)

/-- The name is an identifier. -/
def IsIdentifierName (s : String) : Prop :=
  IsLineIn {w | IdentifierWord w} s

/-- A number in base 10, 16 or 2, or a truth value. -/
inductive EnumWord : List Char → Prop
  | decimal {digits : List Char} (nonempty : digits ≠ []) (h : ∀ c ∈ digits, IsDigit c) :
      EnumWord digits
  | negative {digits : List Char} (nonempty : digits ≠ []) (h : ∀ c ∈ digits, IsDigit c) :
      EnumWord ('-' :: digits)
  | hexadecimal {digits : List Char} (nonempty : digits ≠ [])
      (h : ∀ c ∈ digits, IsHexDigit c ∨ c = '_') : EnumWord ('0' :: 'x' :: digits)
  | binary {digits : List Char} (nonempty : digits ≠ [])
      (h : ∀ c ∈ digits, c = '0' ∨ c = '1' ∨ c = '_') : EnumWord ('0' :: 'b' :: digits)
  | yes : EnumWord ['t', 'r', 'u', 'e']
  | no : EnumWord ['f', 'a', 'l', 's', 'e']

/-- The name can be a key of an enumeration. -/
def IsEnumName (s : String) : Prop :=
  IsLineIn {w | EnumWord w} s

/-- The name starts with a hyphen. -/
def IsExtensionName (s : String) : Prop :=
  s.toList.head? = some '-'

/-! ## Values without parts -/

def IsText (v : Value) : Prop :=
  ∃ s, v = .atom (.str s)

def IsNonemptyText (v : Value) : Prop :=
  ∃ s, v = .atom (.str s) ∧ s ≠ ""

def IsFlag (v : Value) : Prop :=
  ∃ b, v = .atom (.bool b)

/-- A number; truth values are none. -/
def IsNumber (v : Value) : Prop :=
  (∃ n, v = .atom (.int n)) ∨ ∃ x, v = .atom (.float x)

/-- The value is a whole number, however it is written. -/
def IsWhole (v : Value) (n : Int) : Prop :=
  v = .atom (.int n) ∨ ∃ x : Binary64, v = .atom (.float x) ∧ x.toInt? = some n

/-- A whole number that fits into a byte. -/
def IsByte (v : Value) : Prop :=
  ∃ n, IsWhole v n ∧ 0 ≤ n ∧ n ≤ 255

/-- One of several words. -/
def IsOneOf (words : List String) (v : Value) : Prop :=
  ∃ w ∈ words, v = .atom (.str w)

def IsIdentifier (v : Value) : Prop :=
  ∃ s, v = .atom (.str s) ∧ IsIdentifierName s

/-- Expressions are kept as they are written. -/
def IsExpression (v : Value) : Prop :=
  IsText v ∨ IsFlag v ∨ IsNumber v

/-! ## Containers -/

def IsListOf (P : Value → Prop) (v : Value) : Prop :=
  ∃ items, v = .list items ∧ ∀ x ∈ items, P x

/-- A member is in a class where it is present. -/
def MemberIn (members : List (String × Value)) (name : String) (P : Value → Prop) : Prop :=
  ∀ v, members.lookup name = some v → P v

/-- Only the given names are used, and such that start with a hyphen. -/
def OpenTo (names : List String) (members : List (String × Value)) : Prop :=
  ∀ m ∈ members, m.1 ∈ names ∨ IsExtensionName m.1

/-- There is a member of a name. -/
def HasMember (members : List (String × Value)) (name : String) : Prop :=
  ∃ m ∈ members, m.1 = name

/-- The members of a record whose names have classes. -/
def HasFields (classes : List (String × (Value → Prop))) (members : List (String × Value)) : Prop :=
  OpenTo (classes.map Prod.fst) members ∧ ∀ c ∈ classes, MemberIn members c.1 c.2

/-- A record whose names have classes, with the members that it has to have. -/
def IsRecord (classes : List (String × (Value → Prop))) (required : List String)
    (v : Value) : Prop :=
  ∃ members, v = .object members ∧ HasFields classes members ∧
    ∀ name ∈ required, HasMember members name

/-- An object with names and values of given classes. -/
def IsMap (Name : String → Prop) (P : Value → Prop) (v : Value) : Prop :=
  ∃ members, v = .object members ∧ ∀ m ∈ members, Name m.1 ∧ P m.2

/-- A choice by the value of an expression; it is not open for other members. -/
def IsSwitch (P : Value → Prop) (v : Value) : Prop :=
  ∃ members, v = .object members ∧
    (∀ m ∈ members, m.1 = "switch-on" ∨ m.1 = "cases") ∧
    (HasMember members "switch-on" ∧ MemberIn members "switch-on" IsExpression) ∧
    HasMember members "cases" ∧ MemberIn members "cases" (IsMap (fun _ => True) P)

/-! ## Sections -/

def IsTextOrTexts (v : Value) : Prop :=
  IsText v ∨ IsListOf IsText v

/-- The byte order, which may depend on an expression. -/
def IsEndian (v : Value) : Prop :=
  IsOneOf ["le", "be"] v ∨ IsSwitch (IsOneOf ["le", "be"]) v

def IsTypeRef (v : Value) : Prop :=
  IsText v ∨ IsSwitch IsText v

/-- A text, or a list of texts and whole numbers. -/
def IsContents (v : Value) : Prop :=
  IsText v ∨ IsListOf (fun x => IsText x ∨ ∃ n, IsWhole x n) v

def IsMeta : Value → Prop :=
  IsRecord
    [("id", IsIdentifier),
      ("title", IsText),
      ("application", IsTextOrTexts),
      ("file-extension", IsTextOrTexts),
      ("xref", fun v => ∃ members, v = .object members),
      ("license", IsText),
      ("tags", IsListOf IsText),
      ("ks-version", fun v => IsText v ∨ IsNumber v),
      ("ks-debug", IsFlag),
      ("ks-opaque-types", IsFlag),
      ("imports", IsListOf IsNonemptyText),
      ("encoding", IsText),
      ("endian", IsEndian),
      ("bit-endian", IsOneOf ["le", "be"])] []

def IsParams : Value → Prop :=
  IsListOf (IsRecord
    [("id", IsIdentifier),
      ("type", IsText),
      ("doc", IsText),
      ("doc-ref", IsTextOrTexts),
      ("enum", IsText)] ["id"])

/-- The classes of the members that describe how a field is read. -/
def fieldClasses : List (String × (Value → Prop)) :=
  [("doc", IsText),
    ("doc-ref", IsTextOrTexts),
    ("type", IsTypeRef),
    ("size", IsExpression),
    ("size-eos", IsFlag),
    ("if", IsExpression),
    ("repeat", IsOneOf ["expr", "eos", "until"]),
    ("repeat-expr", IsExpression),
    ("repeat-until", IsExpression),
    ("contents", IsContents),
    ("encoding", IsText),
    ("terminator", IsByte),
    ("consume", IsFlag),
    ("include", IsFlag),
    ("eos-error", IsFlag),
    ("pad-right", IsByte),
    ("enum", IsText),
    ("process", IsText),
    ("valid", fun _ => True)]

def IsSeq : Value → Prop :=
  IsListOf (IsRecord (("id", IsIdentifier) :: fieldClasses) [])

def IsInstances : Value → Prop :=
  IsMap IsIdentifierName (IsRecord (fieldClasses ++
    [("pos", IsExpression), ("io", IsText), ("value", IsExpression)]) [])

/-- The name of a value of an enumeration, alone or with documentation. -/
def IsEnumValue (v : Value) : Prop :=
  IsIdentifier v ∨
    IsRecord [("id", IsIdentifier), ("doc", IsText), ("doc-ref", IsTextOrTexts)] ["id"] v

def IsEnums : Value → Prop :=
  IsMap IsIdentifierName (IsMap IsEnumName IsEnumValue)

/-! ## Descriptions -/

/-- The names of the sections. -/
def sectionNames : List String :=
  ["meta", "doc", "doc-ref", "params", "seq", "types", "instances", "enums"]

mutual

/-- The members are sections of a description. -/
inductive HasSections : List (String × Value) → Prop
  | mk {members : List (String × Value)} (names : OpenTo sectionNames members)
      (info : MemberIn members "meta" IsMeta)
      (doc : MemberIn members "doc" IsText)
      (docRef : MemberIn members "doc-ref" IsTextOrTexts)
      (params : MemberIn members "params" IsParams)
      (seq : MemberIn members "seq" IsSeq)
      (types : MemberIn members "types" IsTypes)
      (instances : MemberIn members "instances" IsInstances)
      (enums : MemberIn members "enums" IsEnums) : HasSections members

/-- A map from identifiers to nested descriptions. -/
inductive IsTypes : Value → Prop
  | mk {members : List (String × Value)} (names : ∀ m ∈ members, IsIdentifierName m.1)
      (specs : ∀ m ∈ members, IsTypeSpec m.2) : IsTypes (.object members)

/-- A nested description, which may be left empty. -/
inductive IsTypeSpec : Value → Prop
  | empty : IsTypeSpec (.atom .null)
  | nested {members : List (String × Value)} (sections : HasSections members) :
      IsTypeSpec (.object members)

end

/-- A whole description has facts about itself. -/
def IsDescription (v : Value) : Prop :=
  ∃ members, v = .object members ∧ HasSections members ∧ HasMember members "meta"

end KsyTools.Ksy
