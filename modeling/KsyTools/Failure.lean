/-
# Failures

Why a request cannot be answered.
-/
import KsyTools.Files.Error
import KsyTools.Json.Reader
import KsyTools.Log.Level
import KsyTools.Path.Basic
import KsyTools.Text.Regex.Reader
import KsyTools.Yaml.Problem

namespace KsyTools

/-- Why a file gives no document. -/
inductive DocumentFault where
  | notFound (path : Path)
  | notFile (path : Path)
  | unreadable (path : Path) (e : FileError)
  deriving Repr, DecidableEq

/-- The wording of a fault. -/
def DocumentFault.message : DocumentFault → String
  | .notFound path => s!"Schema file not found: {path.toString}"
  | .notFile path => s!"Path is not a file: {path.toString}"
  | .unreadable path e => s!"Failed to read schema file {path.toString}: {e.message}"

/-- Why there is no schema to check documents against. -/
inductive SchemaFault where
  | notFound (path : Path)
  | notJson (path : Path) (fault : JsonFault)
  | notSchema (problem : String)
  deriving Repr, DecidableEq

/-- The wording of a fault. -/
def SchemaFault.message : SchemaFault → String
  | .notFound path => s!"Schema file not found: {path.toString}"
  | .notJson path fault => s!"Invalid JSON in schema file {path.toString}: {fault.message}"
  | .notSchema problem => s!"Bundled schema is not a valid JSON Schema: {problem}"

/-- Why a reference in a schema leads nowhere. -/
inductive ReferenceFault where
  /-- There is no schema under the name. -/
  | unknown (reference : String)
  /-- The schema, which is shown, has nothing at the end of the path. -/
  | pointer (path shown : String)
  /-- The schema, which is shown, has no part of that name. -/
  | anchor (name shown : String)
  /-- The name of a part looks like a path. -/
  | anchorPath (name : String)
  deriving Repr, DecidableEq

/-- The wording of a fault. -/
def ReferenceFault.message : ReferenceFault → String
  | .unknown reference => s!"Unresolvable: {reference}"
  | .pointer path shown =>
    s!"PointerToNowhere: {Text.quote path} does not exist within {shown}" ++
      if path = "/" then
        ". The pointer '/' is a valid JSON Pointer but it points to an empty string property ''." ++
          " If you intended to point to the entire resource, you should use '#'."
      else ""
  | .anchor name shown => s!"NoSuchAnchor: {Text.quote name} does not exist within {shown}"
  | .anchorPath name =>
    s!"InvalidAnchor: '#{name}' is not a valid anchor, neither as a plain name anchor nor as a" ++
      s!" JSON Pointer. You may have intended to use '#/{name}', as the slash is required" ++
      " *before each segment* of a JSON pointer."

/-- What a part of a schema is used as and is not. -/
inductive SchemaMisuse where
  /-- Something of a type is taken for a schema. -/
  | notSchema (type : String)
  /-- Something of a type without parts is taken for a schema. -/
  | noMembers (type : String)
  /-- A part is taken of something of a type without parts. -/
  | noParts (type : String)
  /-- The number of schemas for items is asked for where there is only one for all. -/
  | noLength
  deriving Repr, DecidableEq

/-- The wording of a misuse. -/
def SchemaMisuse.message : SchemaMisuse → String
  | .notSchema type => s!"'{type}' object has no attribute 'get'"
  | .noMembers type => s!"argument of type '{type}' is not iterable"
  | .noParts type => s!"'{type}' object is not subscriptable"
  | .noLength => "object of type 'bool' has no len()"

/-- Why an address and a path cannot be turned into each other. -/
inductive AddressFault where
  /-- The host has only one of two brackets, or more than a port outside of them. -/
  | misplacedBracket
  /-- The address in brackets is said to be of a version to come and is none. -/
  | futureAddress
  /-- The address in brackets is of version 4. -/
  | bracketedVersion4
  /-- The text in brackets is no address. -/
  | notAddress (text : String)
  /-- The host has a character that is a form of a delimiter. -/
  | hostCharacters (host : String)
  /-- The path depends on a current directory. -/
  | relativePath
  deriving Repr, DecidableEq

/-- The wording of a fault. -/
def AddressFault.message : AddressFault → String
  | .misplacedBracket => "Invalid IPv6 URL"
  | .futureAddress => "IPvFuture address is invalid"
  | .bracketedVersion4 => "An IPv4 address cannot be in brackets"
  | .notAddress text => s!"{Text.quote text} does not appear to be an IPv4 or IPv6 address"
  | .hostCharacters host =>
    s!"netloc '{host}' contains invalid characters under NFKC normalization"
  | .relativePath => "relative path can't be expressed as a file URI"

/-- Why a request cannot be answered. -/
inductive Failure where
  /-- A scalar of a document has no value. -/
  | scalar (fault : Yaml.ScalarFault)
  | file (e : FileError)
  | document (fault : DocumentFault)
  | schema (fault : SchemaFault)
  /-- A number cannot be read, written or computed with. -/
  | number (fault : NumberFault)
  /-- Something has no end, or is nested too deeply. -/
  | endless
  /-- A pattern in a schema cannot be read. -/
  | pattern (source : String) (fault : Text.Regex.Fault)
  | reference (fault : ReferenceFault)
  | misuse (fault : SchemaMisuse)
  /-- Documents are to be dropped from a cache that has none. -/
  | emptyCache
  /-- A buffer that is not open is to be changed. -/
  | notOpen (uri : String)
  | address (fault : AddressFault)
  /-- A setting names no log level. -/
  | logLevel (fault : LevelFault)
  /-- The client cannot be reached. -/
  | disconnected
  deriving Repr, DecidableEq

/-- The wording of a failure. -/
def Failure.message : Failure → String
  | .scalar fault => fault.message
  | .file e => e.message
  | .document fault => fault.message
  | .schema fault => fault.message
  | .number fault => fault.message
  | .endless => "maximum recursion depth exceeded"
  | .pattern source fault => fault.message source
  | .reference fault => fault.message
  | .misuse fault => fault.message
  | .emptyCache => "'dictionary is empty'"
  | .notOpen uri => Text.quote uri
  | .address fault => fault.message
  | .logLevel fault => fault.message
  | .disconnected => "connection lost"

end KsyTools
