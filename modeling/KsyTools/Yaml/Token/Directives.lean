/-
# Directives

Lines that start with a percent sign: the version of the format, and the handles of tags.  Unknown
directives are skipped.
-/
import KsyTools.Yaml.Token.Property

namespace KsyTools.Yaml

/-- The context of errors in directives. -/
def directiveContext : String := "while scanning a directive"

/-- Reads one number of a version. -/
def versionNumber (start : Nat) : Scan Nat := do
  let ch ← Scan.peek
  if !ch.isDigit then Scan.failFound directiveContext start "a digit" ch
  let digits ← Scan.takeWhile Char.isDigit
  if maxDigits < digits.length then
    throw (.scalar (.number (.tooManyDigits digits.length)))
  return Text.ofDigits 10 (digits.map fun c => c.toNat - 48)

/-- Reads the two numbers of a version. -/
def versionDirective (start : Nat) : Scan Directive := do
  Scan.skipWhile (· == ' ')
  let major ← versionNumber start
  let ch ← Scan.peek
  if ch != '.' then Scan.failFound directiveContext start "a digit or '.'" ch
  Scan.skip 1
  let minor ← versionNumber start
  let ch ← Scan.peek
  if !isSpaceBreakOrEnd ch then Scan.failFound directiveContext start "a digit or ' '" ch
  return .version major minor

/-- Reads a handle and what it stands for. -/
def tagDirective (start : Nat) : Scan Directive := do
  Scan.skipWhile (· == ' ')
  let handle ← tagHandle "directive" start
  let ch ← Scan.peek
  if ch != ' ' then Scan.failFound directiveContext start "' '" ch
  Scan.skipWhile (· == ' ')
  let expansion ← tagUri "directive" start
  let ch ← Scan.peek
  if !isSpaceBreakOrEnd ch then Scan.failFound directiveContext start "' '" ch
  return .tag handle expansion

/-- Reads a directive and the rest of its line. -/
def directiveToken : Scan Token := do
  let start ← Scan.index
  Scan.skip 1
  let name ← Scan.takeWhile isNameChar
  let ch ← Scan.peek
  if name.isEmpty || !isSpaceBreakOrEnd ch then
    Scan.failFound directiveContext start "alphabetic or numeric character" ch
  let directive ←
    match String.ofList name with
    | "YAML" => versionDirective start
    | "TAG" => tagDirective start
    | other => pure (.other other)
  let stop ← Scan.index
  match directive with
  | .other _ => Scan.skipWhile fun c => !isBreakOrEnd c
  | _ => pure ()
  Scan.skipComment
  let ch ← Scan.peek
  if !isBreakOrEnd ch then
    Scan.failFound directiveContext start "a comment or a line break" ch
  let _ ← Scan.lineBreak
  return ⟨.directive directive, start, stop⟩

end KsyTools.Yaml
