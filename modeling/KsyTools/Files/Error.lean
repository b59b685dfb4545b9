/-
# File errors

What a file system answers when it cannot do what it is asked.
-/
import KsyTools.Text.Quoted
import KsyTools.Text.Utf8

namespace KsyTools

/-- The causes of failed file operations. -/
inductive FileFault where
  | notFound
  | notDirectory
  | isDirectory
  | nameTooLong
  | tooManyLinks
  deriving Repr, DecidableEq

/-- The number of a cause. -/
def FileFault.number : FileFault → Nat
  | .notFound => 2
  | .notDirectory => 20
  | .isDirectory => 21
  | .nameTooLong => 36
  | .tooManyLinks => 40

/-- The wording of a cause. -/
def FileFault.text : FileFault → String
  | .notFound => "No such file or directory"
  | .notDirectory => "Not a directory"
  | .isDirectory => "Is a directory"
  | .nameTooLong => "File name too long"
  | .tooManyLinks => "Too many levels of symbolic links"

/-- Whether a cause only says that there is nothing at a path. -/
def FileFault.meansAbsent : FileFault → Bool
  | .notFound => true
  | .notDirectory => true
  | .tooManyLinks => true
  | _ => false

/-- Why a path or the content behind it cannot be used. -/
inductive FileError where
  | failed (fault : FileFault) (path : String)
  /-- The path has a NUL character, which no path can have. -/
  | nullCharacter
  /-- The content is no text. -/
  | encoding (e : Text.Utf8Error)
  deriving Repr, DecidableEq

/-- The wording of an error. -/
def FileError.message : FileError → String
  | .failed fault path => s!"[Errno {fault.number}] {fault.text}: {Text.quote path}"
  | .nullCharacter => "embedded null byte"
  | .encoding e => e.message

end KsyTools
