/-
# Schemas

A schema describes which values are allowed.  Its rules are tried in the order in which they are
written; a rule that is about some kind of value says nothing about values of other kinds.
-/
import KsyTools.Schema.Value
import KsyTools.Text.Pattern

namespace KsyTools

/-- The types that a schema can ask for. -/
inductive SimpleType where
  | array
  | boolean
  | integer
  | null
  | number
  | object
  | string
  deriving Repr, DecidableEq

/-- The name of a type. -/
def SimpleType.name : SimpleType → String
  | .array => "array"
  | .boolean => "boolean"
  | .integer => "integer"
  | .null => "null"
  | .number => "number"
  | .object => "object"
  | .string => "string"

/-- All types. -/
def SimpleType.all : List SimpleType :=
  [.array, .boolean, .integer, .null, .number, .object, .string]

/-! ## Patterns -/

/-- A pattern that has to be found in a text: at its start, at its end, or anywhere. -/
structure PlacedPattern where
  pattern : Text.Pattern
  atStart : Bool
  atEnd : Bool
  deriving Repr

namespace PlacedPattern

/-- Any text. -/
def anyText : Text.Pattern :=
  .star (.one ⟨[], true⟩)

/-- Whether the pattern is found in a text.  The end of a text is also before a final line feed. -/
def isIn (p : PlacedPattern) (text : String) : Bool :=
  let front := if p.atStart then p.pattern else .seq anyText p.pattern
  if p.atEnd then front.acceptsLine text.toList
  else (Text.Pattern.seq front anyText).accepts text.toList

end PlacedPattern

/-- A pattern as a schema writes it, and whether it is found in a text; a pattern that cannot be
read is found out when it is used. -/
structure SearchPattern where
  source : String
  search : Except Failure (String → Bool)

/-- A pattern that is known to be fine. -/
def SearchPattern.placed (source : String) (p : PlacedPattern) : SearchPattern :=
  ⟨source, .ok p.isIn⟩

/-- Whether a pattern is found in a text. -/
def SearchPattern.isIn (p : SearchPattern) (text : String) : Except Failure Bool :=
  p.search.map fun search => search text

/-- The patterns for members of an object: how each is written, and one for all of them. -/
structure MemberPatterns where
  sources : List String
  joined : SearchPattern

/-! ## Rules -/

/-- A schema, or one of its rules. -/
inductive Schema where
  /-- Allows everything. -/
  | anything
  /-- Allows nothing. -/
  | nothing
  /-- Asks for all of several rules. -/
  | rules (rules : List Schema)
  | ofType (types : List SimpleType)
  | enum (values : List Value)
  | const (value : Value)
  /-- Asks for a text that is a regular expression. -/
  | regularExpression
  | anyOf (schemas : List Schema)
  /-- Asks for exactly one of several schemas, each given with how it is written. -/
  | oneOf (schemas : List (Schema × String))
  /-- Asks for a schema not to hold, which is given with how it is written. -/
  | not (schema : Schema) (written : String)
  | ifThenElse (condition yes no : Schema)
  | required (names : List String)
  /-- Asks for members where there is a member of a name. -/
  | dependentNames (name : String) (names : List String)
  /-- Asks for a schema where there is a member of a name. -/
  | dependentSchema (name : String) (schema : Schema)
  | properties (members : List (String × Schema))
  | patternProperties (members : List (SearchPattern × Schema))
  /-- What members are to be that the given names and patterns do not cover.  `patterns?` is absent
  where no patterns are given at all. -/
  | additionalProperties (names : List String) (patterns? : Option MemberPatterns) (extra : Schema)
  | propertyNames (schema : Schema)
  | minProperties (n : Nat)
  | maxProperties (n : Nat)
  | pattern (p : SearchPattern)
  | minLength (n : Nat)
  | maxLength (n : Nat)
  | minimum (bound : Yaml.Atom)
  | maximum (bound : Yaml.Atom)
  | exclusiveMinimum (bound : Yaml.Atom)
  | exclusiveMaximum (bound : Yaml.Atom)
  | multipleOf (divisor : Yaml.Atom)
  | items (schema : Schema)
  /-- A schema for each of the first items. -/
  | firstItems (schemas : List Schema)
  /-- What items are to be behind the first ones. -/
  | additionalItems (covered : Nat) (extra : Schema)
  | contains (schema : Schema)
  | minItems (n : Nat)
  | maxItems (n : Nat)
  | uniqueItems
  /-- A schema that is defined elsewhere. -/
  | ref (name : String)
  /-- A rule that cannot be applied to arrays. -/
  | brokenForArrays (failure : Failure)
  /-- A schema that cannot be applied. -/
  | broken (failure : Failure)
  deriving Inhabited

/-- A schema for whole documents, with the definitions that it refers to. -/
structure Grammar where
  root : Schema
  definitions : List (String × Schema)
  deriving Inhabited

end KsyTools
