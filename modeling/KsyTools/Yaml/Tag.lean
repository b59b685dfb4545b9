/-
# Tags

A tag says what kind of value a node stands for.  Scalars without a tag and without quotes are
given one by the form of their text.
-/
import KsyTools.Text.Pattern

namespace KsyTools.Yaml

open Text (Pattern)

/-- The tags of the format, and all others. -/
inductive Tag where
  | null
  | bool
  | int
  | float
  | binary
  | timestamp
  | omap
  | pairs
  | set
  | str
  | seq
  | map
  | merge
  | value
  | yaml
  | other (uri : String)
  deriving Repr, DecidableEq, Inhabited

namespace Tag

/-- What the tags of the format start with. -/
def standardRoot : String := "tag:yaml.org,2002:"

/-- The tags of the format by their names. -/
def standard : List (String × Tag) :=
  [("null", .null), ("bool", .bool), ("int", .int), ("float", .float), ("binary", .binary),
    ("timestamp", .timestamp), ("omap", .omap), ("pairs", .pairs), ("set", .set), ("str", .str),
    ("seq", .seq), ("map", .map), ("merge", .merge), ("value", .value), ("yaml", .yaml)]

/-- The tag that a URI stands for. -/
def ofUri (uri : String) : Tag :=
  match standard.find? fun (name, _) => standardRoot ++ name == uri with
  | some (_, tag) => tag
  | none => .other uri

/-- The URI of a tag. -/
def uri (tag : Tag) : String :=
  match tag with
  | .other uri => uri
  | _ =>
    match standard.find? fun (_, t) => t == tag with
    | some (name, _) => standardRoot ++ name
    | none => ""

/-! ## The forms of scalars -/

private def digit : Pattern := .between '0' '9'

private def digitsOrUnderscores : Pattern := .star (.one ((Text.CharSet.range '0' '9').union
  (.ofString "_")))

private def sign : Pattern := .opt (.anyOf "-+")

/-- Sixty-based places: a colon and a number below sixty. -/
private def sixties : Pattern :=
  .plus (.all [.char ':', .opt (.between '0' '5'), digit])

private def exponent : Pattern :=
  .opt (.all [.anyOf "eE", .anyOf "-+", .plus digit])

/-- The words for truth values. -/
def boolForm : Pattern :=
  .oneOf ["yes", "Yes", "YES", "no", "No", "NO", "true", "True", "TRUE", "false", "False", "FALSE",
    "on", "On", "ON", "off", "Off", "OFF"]

/-- Numbers with a point. -/
def floatForm : Pattern :=
  .any [
    .all [sign, digit, digitsOrUnderscores, .char '.', digitsOrUnderscores, exponent],
    .all [.char '.', digit, digitsOrUnderscores, exponent],
    .all [sign, digit, digitsOrUnderscores, sixties, .char '.', digitsOrUnderscores],
    .all [sign, .char '.', .oneOf ["inf", "Inf", "INF"]],
    .all [.char '.', .oneOf ["nan", "NaN", "NAN"]]]

/-- Whole numbers in the bases 2, 8, 10, 16 and 60. -/
def intForm : Pattern :=
  .any [
    .all [sign, .word "0b", .plus (.anyOf "01_")],
    .all [sign, .char '0', .plus (.anyOf "01234567_")],
    .all [sign, .alt (.char '0') (.seq (.between '1' '9') digitsOrUnderscores)],
    .all [sign, .word "0x", .plus (.anyOf "0123456789abcdefABCDEF_")],
    .all [sign, .between '1' '9', digitsOrUnderscores, sixties]]

/-- Dates, and times with a date. -/
def timestampForm : Pattern :=
  let two := Pattern.seq digit digit
  let oneOrTwo := Pattern.seq digit (.opt digit)
  let year := Pattern.seq two two
  let space := Pattern.star (.anyOf " \t")
  .alt (.all [year, .char '-', two, .char '-', two])
    (.all [year, .char '-', oneOrTwo, .char '-', oneOrTwo,
      .alt (.anyOf "Tt") (.plus (.anyOf " \t")), oneOrTwo, .char ':', two, .char ':', two,
      .opt (.seq (.char '.') (.star digit)),
      .opt (.seq space
        (.alt (.char 'Z') (.all [.anyOf "-+", oneOrTwo, .opt (.seq (.char ':') two)])))])

/-- The forms of scalars, in the order in which they are tried, each with the characters that such
a scalar can start with. -/
def forms : List (Tag × String × Pattern) :=
  [(.bool, "yYnNtTfFoO", boolForm),
    (.float, "-+0123456789.", floatForm),
    (.int, "-+0123456789", intForm),
    (.merge, "<", .word "<<"),
    (.null, "~nN", .oneOf ["~", "null", "Null", "NULL"]),
    (.timestamp, "0123456789", timestampForm),
    (.value, "=", .word "="),
    (.yaml, "!&*", .anyOf "!&*")]

/-- The tag of a scalar by its form. -/
def ofForm (text : String) : Tag :=
  match text.toList with
  | [] => .null
  | c :: rest =>
    match forms.find? fun (_, first, form) =>
        first.toList.contains c && form.acceptsLine (c :: rest) with
    | some (tag, _, _) => tag
    | none => .str

end Tag

end KsyTools.Yaml
