/-
# File URIs

Editors name files by URIs.  A path is turned into a URI byte by byte, with percent escapes for all
but letters, digits and a few marks; a URI is turned into a path by cutting out the path part and
undoing the escapes.
-/
import KsyTools.Server.Host
import KsyTools.Text.Percent
import KsyTools.Text.Uri

namespace KsyTools.FileUri

/-! ## From paths to URIs -/

/-- What the URIs of files start with. -/
def scheme : String := "file://"

/-- The URI of a file.  There is none for a path that depends on a current directory. -/
def ofPath (p : Path) : Except AddressFault String :=
  if p.isAbsolute then .ok (scheme ++ String.ofList (Text.Percent.encode p.toString.toList))
  else .error .relativePath

/-! ## From URIs to paths -/

/-- Schemes whose paths can have parameters. -/
def parameterSchemes : List String :=
  ["", "ftp", "hdl", "prospero", "http", "imap", "https", "shttp", "rtsp", "rtspu", "sip", "sips",
    "mms", "sftp", "tel"]

/-- Cuts off the parameters of the last segment of a path. -/
def dropParameters (cs : List Char) : List Char :=
  let last := (cs.reverse.takeWhile (· != '/')).reverse
  cs.take (cs.length - last.length) ++ last.takeWhile (· != ';')

/-- The parts of a URI that say where a file is, percent escapes undone. -/
structure Parts where
  scheme : String
  host : List Char
  path : List Char
  deriving Repr, DecidableEq

/-- The parts of a URI that say where a file is. -/
def parts (uri : String) : Except AddressFault Parts := do
  let u := Text.Uri.parse uri
  match Host.fault? u.host with
  | some fault => throw fault
  | none =>
    let path := if parameterSchemes.contains u.scheme then dropParameters u.path else u.path
    return ⟨u.scheme, Text.Percent.decode u.host, Text.Percent.decode path⟩

/-- The path of a URI. -/
def toPath (uri : String) : Except AddressFault String := do
  return String.ofList (← parts uri).path

/-- Where the text of a URI that is not open is read from: a host is taken for the first part of a
network path, and a drive letter for the start of the path. -/
def diskPath (uri : String) : Except AddressFault String := do
  let p ← parts uri
  if p.scheme = "file" && !p.host.isEmpty && !p.path.isEmpty then
    return String.ofList ('/' :: '/' :: p.host ++ p.path)
  match p.path with
  | '/' :: letter :: ':' :: rest =>
    if letter.isAlpha then return String.ofList (letter.toLower :: ':' :: rest)
    else return String.ofList p.path
  | path => return String.ofList path

end KsyTools.FileUri
