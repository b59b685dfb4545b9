/-
# Loaded schemas

Schema files are read once and kept.  A file that holds the value null counts as not read.
-/
import KsyTools.Failure
import KsyTools.Files.Tree
import KsyTools.Ksy.Grammar
import KsyTools.Schema.Metaschema

namespace KsyTools

/-- A schema file as it was read.  Files that were read apart have different numbers. -/
structure LoadedSchema where
  serial : Nat
  value : Json

/-- The schema files that were read, by name, and the grammar that was made of one of them. -/
structure SchemaCache where
  loaded : List (String × LoadedSchema)
  grammar? : Option Grammar
  nextSerial : Nat
  deriving Inhabited

namespace SchemaCache

/-- Nothing was read yet. -/
def empty : SchemaCache :=
  ⟨[], none, 0⟩

/-- Reads a schema file. -/
def readFile (t : FileTree) (p : Path) : Except Failure Json := do
  match t.exists? p with
  | .error e => throw (.file e)
  | .ok false => throw (.schema (.notFound p))
  | .ok true =>
    match t.readText p with
    | .error e => throw (.file e)
    | .ok text =>
      match Json.read text with
      | .ok j => return j
      | .error (.number fault) => throw (.number fault)
      | .error .nesting => throw .endless
      | .error fault => throw (.schema (.notJson p fault))

/-- The schema with a name, read from a file unless it was read already. -/
def load (t : FileTree) (c : SchemaCache) (name : String) (p : Path) :
    Except Failure LoadedSchema × SchemaCache :=
  match c.loaded.lookup name with
  | some schema => (.ok schema, c)
  | none =>
    match readFile t p with
    | .error failure => (.error failure, c)
    | .ok value =>
      let schema : LoadedSchema := ⟨c.nextSerial, value⟩
      let loaded :=
        match value with
        | .null => c.loaded
        | _ => c.loaded ++ [(name, schema)]
      (.ok schema, { c with loaded, nextSerial := c.nextSerial + 1 })

/-- The name of the schema for format descriptions. -/
def grammarName : String := "ksy.schema.json"

/-- The grammar that documents are checked against: the built-in one, or one from a file, which is
read and understood once. -/
def grammar (t : FileTree) (c : SchemaCache) (file? : Option Path) :
    Except Failure Grammar × SchemaCache :=
  match file?, c.grammar? with
  | none, _ => (.ok Ksy.grammar, c)
  | some _, some g => (.ok g, c)
  | some p, none =>
    match c.load t grammarName p with
    | (.error failure, c) => (.error failure, c)
    | (.ok schema, c) =>
      match Grammar.ofSchema schema.value with
      | .error failure => (.error failure, c)
      | .ok g => (.ok g, { c with grammar? := some g })

end SchemaCache

end KsyTools
