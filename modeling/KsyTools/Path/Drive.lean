/-
# Paths with drives

Paths that start with a drive letter or with the name of a shared directory.  Both kinds of slash
divide components.
-/
import KsyTools.Text.Basic
import KsyTools.Text.Lines

namespace KsyTools

/-- A path with a drive: the drive or the share, the backslash behind it, and the components. -/
structure DrivePath where
  drive : String
  root : String
  parts : List String
  deriving Repr, DecidableEq

namespace DrivePath

/-- What divides components. -/
def separator : Char := '\\'

/-- What paths start with that are not to be interpreted. -/
def verbatimMark : List Char := ['\\', '\\', '?', '\\']

/-- Splits off the mark of a path that is not to be interpreted; a share behind it keeps its two
separators. -/
def splitVerbatim (cs : List Char) : List Char × List Char :=
  if verbatimMark.isPrefixOf cs then
    let rest := cs.drop 4
    if ['U', 'N', 'C', '\\'].isPrefixOf rest then
      (cs.take 7, '\\' :: rest.drop 3)
    else (cs.take 4, rest)
  else ([], cs)

/-- The names of a server and of its share, and what is behind the separator that follows. -/
def splitShare? (cs : List Char) : Option (List Char × List Char) :=
  match cs with
  | '\\' :: '\\' :: rest =>
    if rest.head? = some '\\' then none
    else
      let server := rest.takeWhile (· != separator)
      match rest.dropWhile (· != separator) with
      | [] => none
      | _ :: behind =>
        if behind.head? = some '\\' then none
        else
          let share := behind.takeWhile (· != separator)
          some ('\\' :: '\\' :: server ++ '\\' :: share, behind.drop (share.length + 1))
  | _ => none

/-- Splits off the letter of a drive and its colon. -/
def splitDrive (cs : List Char) : List Char × List Char :=
  match cs with
  | letter :: ':' :: rest => if letter.isAlpha then ([letter, ':'], rest) else ([], cs)
  | _ => ([], cs)

/-- Splits a path into drive, root and the rest. -/
def splitRoot (cs : List Char) : List Char × List Char × List Char :=
  let (mark, body) := splitVerbatim cs
  match splitShare? body with
  | some (share, rest) =>
    -- behind a mark the share gives up one of its separators
    (if mark.isEmpty then share else mark ++ share.drop 1, ['\\'], rest)
  | none =>
    let (drive, rest) := splitDrive body
    if rest.head? = some '\\' then
      (mark ++ drive, ['\\'], rest.dropWhile (· == separator))
    else (mark ++ drive, [], rest)

/-- Reads a path. -/
def ofString (s : String) : DrivePath :=
  let cs := s.toList.map fun c => if c = '/' then separator else c
  let (drive, root, rest) := splitRoot cs
  let parts := ((Text.splitOnChar separator rest).map String.ofList).filter
    fun part => part != "" && part != "."
  ⟨String.ofList drive, String.ofList root, parts⟩

/-- Whether a path depends on nothing else: it has a drive and a root. -/
def isAbsolute (p : DrivePath) : Bool :=
  p.root != "" && p.drive != ""

/-- The text of a path. -/
def toString (p : DrivePath) : String :=
  p.drive ++ p.root ++ "\\".intercalate p.parts

end DrivePath

end KsyTools
