/-
# Reading schemas

Schemas are kept in JSON files.  A schema that is checked to be one can be read without fail: rules
that are not known, or not of the right form, are left out.  While a schema is read its references
are collected; the schemas that they lead to are read afterwards, until all are known.
-/
import KsyTools.Schema.Basic
import KsyTools.Schema.Library
import KsyTools.Text.Regex.Reader

namespace KsyTools

open Yaml (Atom)

/-! ## Parts of rules -/

/-- Reads a pattern. -/
def SearchPattern.ofSource (source : String) : SearchPattern :=
  ⟨source,
    match Text.Regex.read source with
    | .ok r => .ok r.isIn
    | .error fault => .error (.pattern source fault)⟩

/-- Reads the patterns for members of an object.  Together they are one choice; nothing is covered
by a choice that is written as the empty text. -/
def MemberPatterns.ofSources (sources : List String) : MemberPatterns :=
  let joined := "|".intercalate sources
  ⟨sources, if joined = "" then ⟨joined, .ok fun _ => false⟩ else .ofSource joined⟩

namespace Json

/-- A value, written as an expression. -/
def expression (j : Json) : String :=
  (Value.ofJson j).expression

/-- The texts of an array. -/
def texts (j : Json) : List String :=
  (j.arr?.getD []).filterMap Json.str?

/-- The names of the members of an object. -/
def names (j : Json) : List String :=
  match j with
  | .obj members => members.map Prod.fst
  | _ => []

/-- A number of things. -/
def count? : Json → Option Nat
  | .int n => some n.toNat
  | .float x => x.toInt?.map Int.toNat
  | _ => none

/-- A number. -/
def number? : Json → Option Atom
  | .int n => some (.int n)
  | .float x => some (.float x)
  | _ => none

end Json

/-- The type with a name. -/
def SimpleType.ofName? (name : String) : Option SimpleType :=
  SimpleType.all.find? fun t => t.name == name

namespace Schema

/-- One type or several. -/
def typesOf (j : Json) : List SimpleType :=
  match j with
  | .str name => (SimpleType.ofName? name).toList
  | other => other.texts.filterMap SimpleType.ofName?

/-- Reads a rule without schemas in it. -/
def simpleRule? (name : String) (j : Json) : Option Schema :=
  match name with
  | "type" => some (.ofType (typesOf j))
  | "enum" => j.arr?.map fun values => .enum (values.map Value.ofJson)
  | "const" => some (.const (.ofJson j))
  | "required" => some (.required j.texts)
  | "pattern" => j.str?.map fun s => .pattern (.ofSource s)
  | "minLength" => j.count?.map .minLength
  | "maxLength" => j.count?.map .maxLength
  | "minimum" => j.number?.map .minimum
  | "maximum" => j.number?.map .maximum
  | "exclusiveMinimum" => j.number?.map .exclusiveMinimum
  | "exclusiveMaximum" => j.number?.map .exclusiveMaximum
  | "multipleOf" => j.number?.map .multipleOf
  | "minItems" => j.count?.map .minItems
  | "maxItems" => j.count?.map .maxItems
  | "uniqueItems" =>
    match j with
    | .bool true => some .uniqueItems
    | _ => none
  | "minProperties" => j.count?.map .minProperties
  | "maxProperties" => j.count?.map .maxProperties
  | _ => none

/-- Reads the rule about items behind the first ones, which depends on how the first ones are
given. -/
def additionalItemsRule (items? : Option Json) (extra : Schema) : List Schema :=
  match items? with
  | some (.arr schemas) => [.additionalItems schemas.length extra]
  | some (.bool _) => [.brokenForArrays (.misuse .noLength)]
  | _ => []

/-- How a schema is read: whether the formats of texts count. -/
structure Options where
  formats : Bool

/-- The computations of a reader of schemas, which collects references. -/
abbrev Collect := StateM (List SchemaReference)

/-- Something that is no schema is used as one. -/
def notSchema (j : Json) : Schema :=
  match j with
  | .str _ => .broken (.misuse (.notSchema (SchemaLibrary.typeName j)))
  | .arr _ => .broken (.misuse (.notSchema (SchemaLibrary.typeName j)))
  | other => .broken (.misuse (.noMembers (SchemaLibrary.typeName other)))

/-- The rules of a schema that another rule of it depends on. -/
structure Siblings where
  /-- The schema, as it is written. -/
  whole : Json
  /-- What holds if the condition of the schema does. -/
  yes : Schema
  /-- What holds if it does not. -/
  no : Schema

/-- Reads the rule about members that are not covered. -/
def additionalPropertiesRule (whole : Json) (extra : Schema) : Schema :=
  let names := (whole.get? "properties").elim [] Json.names
  let patterns? := (whole.get? "patternProperties").map fun j => MemberPatterns.ofSources j.names
  .additionalProperties names patterns? extra

mutual

/-- Reads a schema in which a URI holds. -/
def ofJson (o : Options) (base : String) : Json → Collect Schema
  | .bool b => return if b then .anything else .nothing
  | .obj members => do
    let whole := Json.obj members
    match whole.get? "$ref" with
    | some (.str reference) =>
      let r : SchemaReference := ⟨base, reference⟩
      modify (r :: ·)
      return .ref r.key
    | _ =>
      let yes ← branchOfJson o base "then" members
      let no ← branchOfJson o base "else" members
      return .rules (← rulesOfJson o base ⟨whole, yes, no⟩ members)
  | other => return notSchema other

/-- Reads a branch of a condition, which allows everything if it is left out. -/
def branchOfJson (o : Options) (base : String) (name : String) :
    List (String × Json) → Collect Schema
  | [] => return .anything
  | (member, j) :: rest =>
    if member = name then ofJson o (SchemaLibrary.enter base j) j
    else branchOfJson o base name rest

/-- Reads the rules of a schema from its members.  A URI that a schema gives itself does not hold
where the schema is only asked whether it holds. -/
def rulesOfJson (o : Options) (base : String) (siblings : Siblings) :
    List (String × Json) → Collect (List Schema)
  | [] => return []
  | (name, value) :: rest => do
    let inner := SchemaLibrary.enter base value
    let found ←
      match name, value with
      | "allOf", .arr schemas => do pure [Schema.rules (← listOfJson o base schemas)]
      | "anyOf", .arr schemas => do pure [.anyOf (← listOfJson o base schemas)]
      | "oneOf", .arr schemas => do
        let read ← listOfJson o base schemas
        pure [.oneOf (read.zip (schemas.map Json.expression))]
      | "not", j => do pure [.not (← ofJson o base j) j.expression]
      | "if", j => do pure [.ifThenElse (← ofJson o base j) siblings.yes siblings.no]
      | "properties", .obj members => do pure [.properties (← membersOfJson o base members)]
      | "patternProperties", .obj members => do
        let read ← membersOfJson o base members
        pure [.patternProperties (read.map fun (source, schema) => (.ofSource source, schema))]
      | "additionalProperties", j => do
        pure [additionalPropertiesRule siblings.whole (← ofJson o inner j)]
      | "propertyNames", j => do pure [.propertyNames (← ofJson o inner j)]
      | "items", .arr schemas => do pure [.firstItems (← listOfJson o base schemas)]
      | "items", j => do pure [.items (← ofJson o inner j)]
      | "additionalItems", j => do
        pure (additionalItemsRule (siblings.whole.get? "items") (← ofJson o inner j))
      | "contains", j => do pure [.contains (← ofJson o base j)]
      | "dependencies", .obj members => dependenciesOfJson o base members
      | "format", .str "regex" => pure (if o.formats then [.regularExpression] else [])
      | name, j => pure (simpleRule? name j).toList
    return found ++ (← rulesOfJson o base siblings rest)

/-- Reads several schemas. -/
def listOfJson (o : Options) (base : String) : List Json → Collect (List Schema)
  | [] => return []
  | j :: rest => do
    let schema ← ofJson o (SchemaLibrary.enter base j) j
    return schema :: (← listOfJson o base rest)

/-- Reads schemas that have names. -/
def membersOfJson (o : Options) (base : String) :
    List (String × Json) → Collect (List (String × Schema))
  | [] => return []
  | (name, j) :: rest => do
    let schema ← ofJson o (SchemaLibrary.enter base j) j
    return (name, schema) :: (← membersOfJson o base rest)

/-- Reads what members of an object depend on. -/
def dependenciesOfJson (o : Options) (base : String) :
    List (String × Json) → Collect (List Schema)
  | [] => return []
  | (name, j) :: rest => do
    let rule ←
      match j with
      | .arr _ => pure (.dependentNames name j.texts)
      | schema => do
        pure (.dependentSchema name (← ofJson o (SchemaLibrary.enter base schema) schema))
    return rule :: (← dependenciesOfJson o base rest)

end

end Schema

namespace Grammar

/-- The definition that a reference leads to, and the references in it.  A reference that leads
nowhere is found out when it is used. -/
def define (o : Schema.Options) (library : SchemaLibrary) (r : SchemaReference) :
    Schema × List SchemaReference :=
  match library.resolve r with
  | .ok (base, j) => (Schema.ofJson o base j).run []
  | .error failure => (.broken failure, [])

/-- Adds the definitions for references, and for those in the definitions, at most `fuel` times. -/
def collect (o : Schema.Options) (library : SchemaLibrary) :
    (fuel : Nat) → (definitions : List (String × Schema)) → List SchemaReference →
      List (String × Schema)
  | 0, definitions, _ => definitions
  | _, definitions, [] => definitions
  | fuel + 1, definitions, r :: pending =>
    if definitions.any fun d => d.1 == r.key then collect o library fuel definitions pending
    else
      let (schema, references) := define o library r
      collect o library fuel ((r.key, schema) :: definitions) (references ++ pending)

/-- How many values a value is made of is at most this. -/
def sizeBound (j : Json) : Nat :=
  j.expression.length + 1

/-- Reads a schema for whole documents.  Others that are known can be referred to. -/
def ofJson (o : Schema.Options) (known : SchemaLibrary) (j : Json) : Grammar :=
  let library := SchemaLibrary.ofRoot known j
  let (root, references) := (Schema.ofJson o (SchemaLibrary.enter "" j) j).run []
  let size := library.schemas.foldl (fun n s => n + sizeBound s.2) 0
  ⟨root, collect o library (size * size * size) [] references⟩

end Grammar

end KsyTools
