/-
# The schema of schemas

Which JSON values are schemas is itself said by a schema.  A schema is checked against it before it
is used; the first thing that is found to be wrong is reported.
-/
import KsyTools.Schema.Findings
import KsyTools.Schema.OfJson

namespace KsyTools

namespace Metaschema

/-! ## Building blocks -/

/-- A value of a type. -/
def ofType (name : String) : Json :=
  .obj [("type", .str name)]

/-- A value that a definition describes. -/
def ref (name : String) : Json :=
  .obj [("$ref", .str s!"#/definitions/{name}")]

/-- A schema. -/
def self : Json :=
  .obj [("$ref", .str "#")]

/-- A text in a format. -/
def formatted (format : String) : Json :=
  .obj [("type", .str "string"), ("format", .str format)]

/-- A truth value that is false if it is left out. -/
def flag : Json :=
  .obj [("type", .str "boolean"), ("default", .bool false)]

/-- An object of schemas. -/
def schemaMap : Json :=
  .obj [("type", .str "object"), ("additionalProperties", self), ("default", .obj [])]

/-- An object of schemas whose names are patterns. -/
def patternMap : Json :=
  .obj [("type", .str "object"), ("additionalProperties", self),
    ("propertyNames", .obj [("format", .str "regex")]), ("default", .obj [])]

/-! ## The schema -/

/-- The definitions that the members of a schema refer to. -/
def definitions : Json :=
  .obj [
    ("schemaArray",
      .obj [("type", .str "array"), ("minItems", .int 1), ("items", self)]),
    ("nonNegativeInteger", .obj [("type", .str "integer"), ("minimum", .int 0)]),
    ("nonNegativeIntegerDefault0",
      .obj [("allOf", .arr [ref "nonNegativeInteger", .obj [("default", .int 0)]])]),
    ("simpleTypes", .obj [("enum", .arr (SimpleType.all.map fun t => .str t.name))]),
    ("stringArray",
      .obj [("type", .str "array"), ("items", ofType "string"), ("uniqueItems", .bool true),
        ("default", .arr [])])]

/-- What the members of a schema are. -/
def members : Json :=
  .obj [
    ("$id", formatted "uri-reference"),
    ("$schema", formatted "uri"),
    ("$ref", formatted "uri-reference"),
    ("$comment", ofType "string"),
    ("title", ofType "string"),
    ("description", ofType "string"),
    ("default", .bool true),
    ("readOnly", flag),
    ("examples", .obj [("type", .str "array"), ("items", .bool true)]),
    ("multipleOf", .obj [("type", .str "number"), ("exclusiveMinimum", .int 0)]),
    ("maximum", ofType "number"),
    ("exclusiveMaximum", ofType "number"),
    ("minimum", ofType "number"),
    ("exclusiveMinimum", ofType "number"),
    ("maxLength", ref "nonNegativeInteger"),
    ("minLength", ref "nonNegativeIntegerDefault0"),
    ("pattern", formatted "regex"),
    ("additionalItems", self),
    ("items", .obj [("anyOf", .arr [self, ref "schemaArray"]), ("default", .bool true)]),
    ("maxItems", ref "nonNegativeInteger"),
    ("minItems", ref "nonNegativeIntegerDefault0"),
    ("uniqueItems", flag),
    ("contains", self),
    ("maxProperties", ref "nonNegativeInteger"),
    ("minProperties", ref "nonNegativeIntegerDefault0"),
    ("required", ref "stringArray"),
    ("additionalProperties", self),
    ("definitions", schemaMap),
    ("properties", schemaMap),
    ("patternProperties", patternMap),
    ("dependencies",
      .obj [("type", .str "object"),
        ("additionalProperties", .obj [("anyOf", .arr [self, ref "stringArray"])])]),
    ("propertyNames", self),
    ("const", .bool true),
    ("enum", .obj [("type", .str "array"), ("items", .bool true)]),
    ("type",
      .obj [("anyOf", .arr [ref "simpleTypes",
        .obj [("type", .str "array"), ("items", ref "simpleTypes"), ("minItems", .int 1),
          ("uniqueItems", .bool true)]])]),
    ("format", ofType "string"),
    ("contentMediaType", ofType "string"),
    ("contentEncoding", ofType "string"),
    ("if", self),
    ("then", self),
    ("else", self),
    ("allOf", ref "schemaArray"),
    ("anyOf", ref "schemaArray"),
    ("oneOf", ref "schemaArray"),
    ("not", self)]

/-- The URI of the schema of schemas. -/
def uri : String := "http://json-schema.org/draft-07/schema#"

/-- The schema of schemas. -/
def value : Json :=
  .obj [
    ("$schema", .str uri),
    ("$id", .str uri),
    ("title", .str "Core schema meta-schema"),
    ("definitions", definitions),
    ("type", .arr [.str "object", .str "boolean"]),
    ("properties", members),
    ("default", .bool true)]

/-- The schemas that every schema can refer to. -/
def library : SchemaLibrary :=
  ⟨[(SchemaLibrary.dropHashes uri, value)], []⟩

/-- The grammar of schemas, for which the formats of texts count. -/
def grammar : Grammar :=
  .ofJson ⟨true⟩ ⟨[], []⟩ value

end Metaschema

/-- Reads a value that has to be a schema. -/
def Grammar.ofSchema (j : Json) : Except Failure Grammar :=
  let report := Metaschema.grammar.report (.ofJson j)
  match report.findings, report.failure? with
  | finding :: _, _ => .error (.schema (.notSchema finding.message))
  | [], some failure => .error failure
  | [], none => .ok (.ofJson ⟨false⟩ Metaschema.library j)

end KsyTools
