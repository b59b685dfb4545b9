/-
# The grammar of format descriptions

Which values describe a binary format.  A description is a record of sections; `types` holds nested
descriptions, to any depth.  Every record is open for keys that start with a hyphen.
-/
import KsyTools.Schema.Basic

namespace KsyTools.Ksy

open Text (Pattern)

/-! ## Names -/

/-- Keys that start with a hyphen, which are left to other tools. -/
def extensionKey : SearchPattern :=
  .placed "^-" ⟨.char '-', true, false⟩

/-- The patterns for the members of a record that it does not name. -/
def extensionKeys : MemberPatterns :=
  ⟨[extensionKey.source], extensionKey⟩

/-- A small letter, then small letters, digits and underscores. -/
def identifierPattern : SearchPattern :=
  .placed "^[a-z][a-z0-9_]*$"
    ⟨.seq (.between 'a' 'z')
      (.star (.one ⟨[('a', 'z'), ('0', '9'), ('_', '_')], false⟩)), true, true⟩

/-- Numbers in the bases 10, 16 and 2, and truth values. -/
def enumKeyPattern : SearchPattern :=
  .placed "^(-?[0-9]+|0x[0-9a-fA-F_]+|0b[01_]+|true|false)$"
    ⟨.any [
      .seq (.opt (.char '-')) (.plus (.between '0' '9')),
      .seq (.word "0x")
        (.plus (.one ⟨[('0', '9'), ('a', 'f'), ('A', 'F'), ('_', '_')], false⟩)),
      .seq (.word "0b") (.plus (.anyOf "01_")),
      .word "true",
      .word "false"], true, true⟩

/-! ## Building blocks -/

/-- A text. -/
def text : Schema := .ofType [.string]

/-- A truth value. -/
def flag : Schema := .ofType [.boolean]

/-- A list of values. -/
def listOf (item : Schema) : Schema := .rules [.ofType [.array], .items item]

/-- A number that fits into a byte. -/
def byte : Schema := .rules [.ofType [.integer], .minimum (.int 0), .maximum (.int 255)]

/-- One of several words. -/
def words (ws : List String) : Schema := .enum (ws.map fun w => .atom (.str w))

/-- A record with the given members, open for keys that start with a hyphen. -/
def recordRules (types : List SimpleType) (members : List (String × Schema)) : List Schema :=
  [.ofType types,
    .additionalProperties (members.map Prod.fst) (some extensionKeys) .nothing,
    .patternProperties [(extensionKey, .anything)],
    .properties members]

/-- A choice by the value of an expression. -/
def switch (case : Schema) : Schema :=
  .rules [.ofType [.object],
    .additionalProperties ["switch-on", "cases"] none .nothing,
    .properties [("switch-on", .ref "Expression"),
      ("cases", .rules [.ofType [.object], .additionalProperties [] none case])],
    .required ["switch-on", "cases"]]

/-- A map from identifiers. -/
def identifierMap (value : Schema) : Schema :=
  .rules [.ofType [.object], .propertyNames (.ref "Identifier"),
    .additionalProperties [] none value]

/-! ## Definitions -/

def identifier : Schema := .rules [text, .pattern identifierPattern]

/-- Expressions are kept as they are written. -/
def expression : Schema := .ofType [.string, .integer, .boolean, .number]

def textOrTexts : Schema := .anyOf [text, listOf text]

def endian : Schema := .anyOf [words ["le", "be"], switch (words ["le", "be"])]

/-- Facts about a description as a whole. -/
def metaSection : Schema :=
  .rules (recordRules [.object] [
    ("id", .ref "Identifier"),
    ("title", text),
    ("application", .ref "StringOrStringArray"),
    ("file-extension", .ref "StringOrStringArray"),
    ("xref", .ofType [.object]),
    ("license", text),
    ("tags", listOf text),
    ("ks-version", .ofType [.string, .number]),
    ("ks-debug", flag),
    ("ks-opaque-types", flag),
    ("imports", listOf (.rules [text, .minLength 1])),
    ("encoding", text),
    ("endian", .ref "Endian"),
    ("bit-endian", words ["le", "be"])])

def params : Schema :=
  listOf (.rules (recordRules [.object] [
    ("id", .ref "Identifier"),
    ("type", text),
    ("doc", .ref "Doc"),
    ("doc-ref", .ref "DocRef"),
    ("enum", text)] ++ [.required ["id"]]))

def typeRef : Schema := .anyOf [text, switch text]

/-- The members that describe how a field is read. -/
def fieldMembers : List (String × Schema) :=
  [("doc", .ref "Doc"),
    ("doc-ref", .ref "DocRef"),
    ("type", .ref "TypeRef"),
    ("size", .ref "Expression"),
    ("size-eos", flag),
    ("if", .ref "Expression"),
    ("repeat", words ["expr", "eos", "until"]),
    ("repeat-expr", .ref "Expression"),
    ("repeat-until", .ref "Expression"),
    ("contents", .anyOf [text, listOf (.ofType [.string, .integer])]),
    ("encoding", text),
    ("terminator", byte),
    ("consume", flag),
    ("include", flag),
    ("eos-error", flag),
    ("pad-right", byte),
    ("enum", text),
    ("process", text),
    ("valid", .anything)]

def seqAttribute : Schema :=
  .rules (recordRules [.object] (("id", .ref "Identifier") :: fieldMembers))

/-- A field that is read at a place of its own, or computed. -/
def instanceField : Schema :=
  .rules (recordRules [.object] (fieldMembers ++
    [("pos", .ref "Expression"), ("io", text), ("value", .ref "Expression")]))

def enumValue : Schema :=
  .anyOf [.ref "Identifier",
    .rules (recordRules [.object]
      [("id", .ref "Identifier"), ("doc", .ref "Doc"), ("doc-ref", .ref "DocRef")] ++
      [.required ["id"]])]

def enumTable : Schema :=
  .rules [.ofType [.object], .propertyNames (.pattern enumKeyPattern),
    .additionalProperties [] none (.ref "EnumValue")]

/-- The sections of a description, at the top and in nested types. -/
def sections : List (String × Schema) :=
  [("meta", .ref "Meta"),
    ("doc", .ref "Doc"),
    ("doc-ref", .ref "DocRef"),
    ("params", .ref "Params"),
    ("seq", .ref "Seq"),
    ("types", .ref "Types"),
    ("instances", .ref "Instances"),
    ("enums", .ref "Enums")]

/-- A nested description, which may be left empty. -/
def typeSpec : Schema := .rules (recordRules [.object, .null] sections)

/-- The definitions that the grammar refers to. -/
def definitions : List (String × Schema) :=
  [("Identifier", identifier),
    ("Expression", expression),
    ("Doc", text),
    ("DocRef", textOrTexts),
    ("StringOrStringArray", textOrTexts),
    ("Endian", endian),
    ("Meta", metaSection),
    ("Params", params),
    ("TypeRef", typeRef),
    ("SeqAttribute", seqAttribute),
    ("Seq", listOf (.ref "SeqAttribute")),
    ("Instance", instanceField),
    ("Instances", identifierMap (.ref "Instance")),
    ("EnumValue", enumValue),
    ("Enum", enumTable),
    ("Enums", identifierMap (.ref "Enum")),
    ("TypeSpec", typeSpec),
    ("Types", identifierMap (.ref "TypeSpec"))]

/-- The sections that a description has to have. -/
def requiredSections : List String := ["meta"]

/-- The grammar of format descriptions. -/
def grammar : Grammar :=
  ⟨.rules (recordRules [.object] sections ++ [.required requiredSections]), definitions⟩

/-- The name under which the grammar is published. -/
def grammarId : String := "https://kaitai.io/schema/ksy.schema.json"

end KsyTools.Ksy
