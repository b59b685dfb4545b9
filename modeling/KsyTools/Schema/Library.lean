/-
# Where references lead

A schema can have a URI, and so can the schemas inside it; their URIs are relative to those around
them.  A reference names a schema by its URI and, behind a `#`, a part of it: by a path of names
and numbers, or by a name that the part has given itself.
-/
import KsyTools.Schema.Value
import KsyTools.Text.Percent
import KsyTools.Text.Uri

namespace KsyTools

/-- The schemas that can be referred to. -/
structure SchemaLibrary where
  /-- Schemas by their URIs. -/
  schemas : List (String × Json)
  /-- Parts of schemas, by the URI of the schema and the name of the part. -/
  parts : List ((String × String) × Json)
  deriving Repr

/-- A reference, with the URI that it is relative to. -/
structure SchemaReference where
  base : String
  text : String
  deriving Repr, DecidableEq

/-- The name under which the target of a reference is kept. -/
def SchemaReference.key (r : SchemaReference) : String :=
  s!"{r.base} {r.text}"

namespace SchemaLibrary

/-- Drops the signs for an empty fragment at the end of a URI. -/
def dropHashes (uri : String) : String :=
  String.ofList (Text.dropEndWhile (· == '#') uri.toList)

/-- The URI that a schema gives itself, which is not looked at beside a reference, and which is
none if it only names a part. -/
def ownUri? (j : Json) : Option String :=
  match j.get? "$ref", j.get? "$id" with
  | none, some (.str id) => if id.toList.head? = some '#' then none else some (dropHashes id)
  | _, _ => none

/-- The name that a schema gives itself as a part. -/
def ownName? (j : Json) : Option String :=
  match j.get? "$id" with
  | some (.str id) =>
    match id.toList with
    | '#' :: name => some (String.ofList name)
    | _ => none
  | _ => none

/-- The URI that holds inside a schema. -/
def enter (base : String) (j : Json) : String :=
  match ownUri? j with
  | some uri => Text.Uri.join base uri
  | none => base

/-- Where the schemas inside a schema are. -/
inductive Holder where
  /-- The member is a schema. -/
  | one
  /-- The member is a list of schemas. -/
  | list
  /-- The member is an object of schemas. -/
  | object
  /-- The member is a schema or a list of schemas. -/
  | oneOrList
  deriving Repr, DecidableEq

/-- How schemas are held by a member. -/
def Holder.ofMember? (name : String) : Option Holder :=
  if ["additionalItems", "additionalProperties", "contains", "else", "if", "not", "propertyNames",
      "then"].contains name then some .one
  else if ["allOf", "anyOf", "oneOf"].contains name then some .list
  else if ["definitions", "dependencies", "patternProperties", "properties"].contains name then
    some .object
  else if name = "items" then some .oneOrList
  else none

/-- Two collections together. -/
def append (a b : SchemaLibrary) : SchemaLibrary :=
  ⟨a.schemas ++ b.schemas, a.parts ++ b.parts⟩

mutual

/-- The schemas with URIs or names in a schema. -/
def inSchema (base : String) : Json → SchemaLibrary
  | .obj members =>
    let j := Json.obj members
    let inner := enter base j
    let schemas := if (ownUri? j).isSome then [(inner, j)] else []
    let parts := ((ownName? j).map fun name => ((inner, name), j)).toList
    append ⟨schemas, parts⟩ (inMembers inner members)
  | _ => ⟨[], []⟩

/-- The schemas with URIs or names in the members of a schema. -/
def inMembers (base : String) : List (String × Json) → SchemaLibrary
  | [] => ⟨[], []⟩
  | (name, value) :: rest =>
    let here :=
      match Holder.ofMember? name, value with
      | some .one, j => inSchema base j
      | some .list, .arr items => inSchemas base items
      | some .object, .obj members => inValues base members
      | some .oneOrList, .arr items => inSchemas base items
      | some .oneOrList, j => inSchema base j
      | _, _ => ⟨[], []⟩
    append here (inMembers base rest)

/-- The schemas with URIs or names in several schemas. -/
def inSchemas (base : String) : List Json → SchemaLibrary
  | [] => ⟨[], []⟩
  | j :: rest => append (inSchema base j) (inSchemas base rest)

/-- The schemas with URIs or names in the members of an object of schemas. -/
def inValues (base : String) : List (String × Json) → SchemaLibrary
  | [] => ⟨[], []⟩
  | (_, j) :: rest => append (inSchema base j) (inValues base rest)

end

/-- The schemas that can be referred to from a schema, beside others that are known.  The URI of the
schema is relative to itself for the schemas inside it. -/
def ofRoot (known : SchemaLibrary) (root : Json) : SchemaLibrary :=
  let uri := (ownUri? root).getD ""
  append ⟨[(uri, root)], []⟩ (append (inSchema uri root) known)

/-! ## Paths into schemas -/

/-- What the type of a value is called where it has no parts. -/
def typeName : Json → String
  | .null => "NoneType"
  | .bool _ => "bool"
  | .int _ => "int"
  | .float _ => "float"
  | .str _ => "str"
  | .arr _ => "list"
  | .obj _ => "dict"

/-- A step of a path as it is written in a pointer. -/
def unescapeStep (step : List Char) : List Char :=
  match step with
  | '~' :: '1' :: rest => '/' :: unescapeStep rest
  | '~' :: '0' :: rest => '~' :: unescapeStep rest
  | c :: rest => c :: unescapeStep rest
  | [] => []

/-- The item of a sequence; negative numbers count from its end. -/
def itemAt? {α : Type} (items : List α) (index : Int) : Option α :=
  let n := if index < 0 then index + items.length else index
  if n < 0 then none else items[n.toNat]?

/-- Takes a step into a value: nothing may be there, and some values cannot be stepped into. -/
def step (j : Json) (name : List Char) : Except Failure (Option Json) := do
  match j with
  | .obj members => return members.lookup (String.ofList (unescapeStep name))
  | .arr items => return itemAt? items (← number)
  | .str s => return (itemAt? s.toList (← number)).map fun c => .str (String.ofList [c])
  | other => throw (.misuse (.noParts (typeName other)))
where
  /-- The number of an item. -/
  number : Except Failure Int :=
    (Number.readInt 10 (String.ofList name)).mapError .number

/-- Whether a part that was reached by these steps from the last schema is itself a schema. -/
def isSchemaAfter (part : Json) : (steps : List String) → Bool
  | [] => true
  | name :: rest =>
    let isObject := match part with
      | .obj _ => true
      | _ => false
    if (name = "items" || name = "dependencies") && isObject then true
    else
      match Holder.ofMember? name, rest with
      | some .one, rest => isSchemaAfter part rest
      | some .list, _ :: rest => isSchemaAfter part rest
      | some .object, _ :: rest => name != "dependencies" && isSchemaAfter part rest
      | _, _ => false

/-- Follows a path from a schema.  Gives the URI that holds at the end of the path and what is
there; on the way to it, `steps` are those taken since the last change of the URI. -/
def follow (whole : Json) (pointer : String) (base : String) (steps : List String) (j : Json) :
    List (List Char) → Except Failure (String × Json)
  | [] => .ok (base, j)
  | name :: rest => do
    match ← step j name with
    | none => throw (.reference (.pointer pointer (Value.ofJson whole).expression))
    | some part =>
      let steps := steps ++ [String.ofList name]
      match isSchemaAfter part steps, ownUri? part with
      | true, some uri => follow whole pointer (Text.Uri.join base uri) [] part rest
      | _, _ => follow whole pointer base steps part rest

/-- What a reference leads to, and the URI that holds there. -/
def resolve (lib : SchemaLibrary) (r : SchemaReference) : Except Failure (String × Json) := do
  let (uri, fragment) :=
    match r.text.toList with
    | '#' :: fragment => (r.base, String.ofList fragment)
    | _ => Text.Uri.splitFragment (Text.Uri.join r.base r.text)
  match lib.schemas.lookup uri with
  | none => throw (.reference (.unknown r.text))
  | some j =>
    match fragment.toList with
    | [] => return (uri, j)
    | '/' :: path =>
      follow j fragment uri [] j (Text.splitOnChar '/' (Text.Percent.decode path))
    | name =>
      match lib.parts.lookup (uri, fragment) with
      | some part => return (uri, part)
      | none =>
        if name.contains '/' then throw (.reference (.anchorPath fragment))
        else throw (.reference (.anchor fragment (Value.ofJson j).expression))

end SchemaLibrary

end KsyTools
