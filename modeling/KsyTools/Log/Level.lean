/-
# Log levels by name

In the settings, levels are given by name.  A name that is not known stands for a level chosen by
the one who asks; two names stand for things that are no levels at all, a line format and a table
of line formats.
-/
import KsyTools.Text.Casing
import KsyTools.Text.Quoted

namespace KsyTools

/-- Why a name gives no level. -/
inductive LevelFault where
  /-- The name stands for a text that is not the name of a level. -/
  | unknown (text : String)
  /-- The name stands for something that cannot be the name of a level. -/
  | notLevel (shown : String)
  /-- Something of a kind with this name is to be compared with a level. -/
  | notComparable (kind : String)
  deriving Repr, DecidableEq

/-- The wording of a fault. -/
def LevelFault.message : LevelFault → String
  | .unknown text => s!"Unknown level: {Text.quote text}"
  | .notLevel shown => s!"Level not an integer or a valid string: {shown}"
  | .notComparable kind => s!"'>' not supported between instances of 'int' and '{kind}'"

/-- What a name stands for. -/
inductive NamedLevel where
  | level (value : Int)
  /-- The format of a line. -/
  | format
  /-- The formats of a line, by the sign that marks their fields. -/
  | formatTable
  deriving Repr, DecidableEq

namespace NamedLevel

/-- The usual format of a line, with fields marked by a percent sign. -/
def lineFormat : String := "%(levelname)s:%(name)s:%(message)s"

/-- The table of line formats, as it is shown. -/
def shownFormatTable : String :=
  "\x7b'%': (<class 'logging.PercentStyle'>, '%(levelname)s:%(name)s:%(message)s'), " ++
  "'\x7b': (<class 'logging.StrFormatStyle'>, " ++
  "'\x7blevelname\x7d:\x7bname\x7d:\x7bmessage\x7d'), " ++
  "'$': (<class 'logging.StringTemplateStyle'>, " ++
  "'$\x7blevelname\x7d:$\x7bname\x7d:$\x7bmessage\x7d')\x7d"

/-- What a name in capitals stands for. -/
def ofName? (name : String) : Option NamedLevel :=
  match name with
  | "NOTSET" => some (.level 0)
  | "DEBUG" => some (.level 10)
  | "INFO" => some (.level 20)
  | "WARN" => some (.level 30)
  | "WARNING" => some (.level 30)
  | "ERROR" => some (.level 40)
  | "CRITICAL" => some (.level 50)
  | "FATAL" => some (.level 50)
  | "BASIC_FORMAT" => some .format
  | "_STYLES" => some .formatTable
  | _ => none

/-- What a name stands for, whatever the case of its letters. -/
def ofText (text : String) (default : Int) : NamedLevel :=
  (ofName? (Text.upperName text)).getD (.level default)

/-- The level itself, where one is to be set. -/
def value : NamedLevel → Except LevelFault Int
  | .level n => .ok n
  | .format => .error (.unknown lineFormat)
  | .formatTable => .error (.notLevel shownFormatTable)

/-- The level itself, where it is to be compared with another one. -/
def comparable : NamedLevel → Except LevelFault Int
  | .level n => .ok n
  | .format => .error (.notComparable "str")
  | .formatTable => .error (.notComparable "dict")

end NamedLevel

end KsyTools
