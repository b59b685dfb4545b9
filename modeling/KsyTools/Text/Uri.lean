/-
# URIs

The parts of a URI, and what a relative one means beside another one.
-/
import KsyTools.Text.Lines

namespace KsyTools.Text

/-- The parts of a URI.  A part that is empty and one that is not there are the same. -/
structure Uri where
  /-- In small letters. -/
  scheme : String
  host : List Char
  path : List Char
  query : List Char
  fragment : List Char
  deriving Repr, DecidableEq

namespace Uri

/-- Characters of a scheme. -/
def isSchemeChar (c : Char) : Bool :=
  c.isAlphanum || c == '+' || c == '-' || c == '.'

/-- Splits off the scheme of a URI, in small letters. -/
def splitScheme (cs : List Char) : String × List Char :=
  match cs with
  | c :: _ =>
    let front := cs.takeWhile (· != ':')
    if c.isAlpha && front.length < cs.length && front.all isSchemeChar then
      (String.ofList (front.map Char.toLower), cs.drop (front.length + 1))
    else ("", cs)
  | [] => ("", cs)

/-- Splits off the host of a URI, if it has one. -/
def splitHost (cs : List Char) : List Char × List Char :=
  match cs with
  | '/' :: '/' :: rest =>
    let host := rest.takeWhile fun c => c != '/' && c != '?' && c != '#'
    (host, rest.drop host.length)
  | _ => ([], cs)

/-- Splits a text at the first character of a sort, which is left out. -/
def splitAtChar (c : Char) (cs : List Char) : List Char × List Char :=
  let front := cs.takeWhile (· != c)
  (front, cs.drop (front.length + 1))

/-- The parts of a URI.  Control characters and blanks in front, and tabs and line breaks anywhere,
are left out. -/
def parse (text : String) : Uri :=
  let cs := (text.toList.dropWhile fun c => c.toNat ≤ 32).filter fun c =>
    c != '\t' && c != '\r' && c != '\n'
  let (scheme, rest) := splitScheme cs
  let (host, rest) := splitHost rest
  let (rest, fragment) := splitAtChar '#' rest
  let (path, query) := splitAtChar '?' rest
  ⟨scheme, host, path, query, fragment⟩

/-- Schemes with hosts. -/
def hostSchemes : List String :=
  ["", "ftp", "http", "gopher", "nntp", "telnet", "imap", "wais", "file", "mms", "https", "shttp",
    "snews", "prospero", "rtsp", "rtspu", "rsync", "svn", "svn+ssh", "sftp", "nfs", "git",
    "git+ssh", "ws", "wss"]

/-- Schemes whose URIs can be relative to another one. -/
def relativeSchemes : List String :=
  ["", "ftp", "http", "gopher", "nntp", "imap", "wais", "file", "https", "shttp", "mms",
    "prospero", "rtsp", "rtspu", "sftp", "svn", "svn+ssh", "ws", "wss"]

/-- The text of a URI. -/
def toString (u : Uri) : String :=
  let withHost :=
    if !u.host.isEmpty ||
        (u.scheme != "" && hostSchemes.contains u.scheme && u.path.take 2 != ['/', '/']) then
      let slash := if u.path.isEmpty || u.path.head? = some '/' then [] else ['/']
      ['/', '/'] ++ u.host ++ slash ++ u.path
    else u.path
  let scheme := if u.scheme = "" then [] else u.scheme.toList ++ [':']
  let query := if u.query.isEmpty then [] else '?' :: u.query
  let fragment := if u.fragment.isEmpty then [] else '#' :: u.fragment
  String.ofList (scheme ++ withHost ++ query ++ fragment)

/-- Follows `.` and `..` on a path, given as its segments. -/
def dropDots (segments : List (List Char)) : List (List Char) :=
  let kept := segments.foldl (fun kept s =>
    if s = ['.', '.'] then kept.dropLast else if s = ['.'] then kept else kept ++ [s]) []
  let last := segments.getLastD []
  if last = ['.'] || last = ['.', '.'] then kept ++ [[]] else kept

/-- The path that a path means beside another one. -/
def joinPaths (base path : List Char) : List Char :=
  let parts := splitOnChar '/' path
  let segments :=
    if path.head? = some '/' then parts
    else
      let baseParts := splitOnChar '/' base
      let front := if baseParts.getLastD [] = [] then baseParts else baseParts.dropLast
      let all := front ++ parts
      -- empty segments only stay at the ends
      all.take 1 ++ ((all.drop 1).dropLast.filter fun s => !s.isEmpty) ++
        (if 1 < all.length then [all.getLastD []] else [])
  let joined := ['/'].intercalate (dropDots segments)
  if joined.isEmpty then ['/'] else joined

/-- What a URI means beside another one. -/
def join (base text : String) : String :=
  if base = "" then text
  else if text = "" then base
  else
    let b := parse base
    let parsed := parse text
    let u := if parsed.scheme = "" then { parsed with scheme := b.scheme } else parsed
    if u.scheme ≠ b.scheme || !relativeSchemes.contains u.scheme then text
    else if hostSchemes.contains u.scheme && !u.host.isEmpty then u.toString
    else
      let u := if hostSchemes.contains u.scheme then { u with host := b.host } else u
      if u.path.isEmpty then
        { u with path := b.path, query := if u.query.isEmpty then b.query else u.query }.toString
      else { u with path := joinPaths b.path u.path }.toString

/-- A URI without its fragment, and the fragment. -/
def splitFragment (text : String) : String × String :=
  if text.toList.contains '#' then
    let u := parse text
    ({ u with fragment := [] }.toString, String.ofList u.fragment)
  else (text, "")

end Uri

end KsyTools.Text
