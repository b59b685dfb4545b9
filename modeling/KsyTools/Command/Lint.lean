/-
# The lint command

Checks files and the descriptions in directories, and writes what is wrong with them.
-/
import KsyTools.Command.Console
import KsyTools.Lint.Files
import KsyTools.Lint.Format
import KsyTools.Lint.Search
import KsyTools.Settings

namespace KsyTools

namespace LintCommand

/-- The option that chooses the format. -/
def formatOption : CommandOption :=
  ⟨["--format"], .choice ["human", "json", "github-actions"]⟩

/-- The option that leaves references unchecked. -/
def noReferencesOption : CommandOption :=
  ⟨["--no-references"], .flag⟩

/-- How the command is called. -/
def spec : CommandSpec where
  name := "ksy-lint"
  usage :=
    "usage: ksy-lint [-h] [--format \x7bhuman,json,github-actions\x7d] [--no-references]\n" ++
    "                [paths ...]\n"
  details :=
    "\nLint Kaitai Struct (.ksy) schema files\n\n" ++
    "positional arguments:\n" ++
    "  paths                 File paths or directories to lint (default: current\n" ++
    "                        directory)\n\n" ++
    "options:\n" ++
    "  -h, --help            show this help message and exit\n" ++
    "  --format \x7bhuman,json,github-actions\x7d\n" ++
    "                        Output format (default: human)\n" ++
    "  --no-references       Do not report unresolved imports and types\n"
  operandName := "paths"
  operandRequired := false
  options := [⟨["-h", "--help"], .help⟩, formatOption, noReferencesOption]

/-- Writes results and ends the command: with code 1 if there are errors. -/
def finish (format? : Option String) (results : List LintResult) (c : Console) : Outcome :=
  let text := LintResult.render (.ofName (format?.getD "")) results
  let c := if text = "" then c else c.line .out text
  if results.any fun r => !r.ok then .exit 1 c
  else if format? = some "human" then .exit 0 (c.line .out "Lint succeeded with no errors.")
  else .exit 0 c

/-- Checks files and writes what is wrong with them. -/
def lintFiles (routing : LogRouting) (t : FileTree) (session : Session) (a : Arguments)
    (files : List Path) (c : Console) : Outcome :=
  let checkReferences := !a.flags.contains noReferencesOption.name
  let (result, after) := session.run t (Lint.files checkReferences files)
  let c := Console.records routing c after.log
  match result with
  | .error failure => .brokenOff failure c
  | .ok results => finish (a.value? formatOption.name "human") results c

/-- Does what a command line asks for. -/
def work (settings : Settings) (grammarFile? : Option Path) (t : FileTree) (a : Arguments) :
    Outcome :=
  match settings.commandRouting with
  | .error failure => .brokenOff failure .empty
  | .ok routing =>
    let operands := if a.operands.isEmpty then ["."] else a.operands
    let search := Lint.search t (operands.map Path.ofString)
    let c := Console.empty.lines .err search.warnings
    match search.result with
    | .error e => .brokenOff (.file e) c
    | .ok [] => .exit 1 (c.line .err "No Kaitai Struct files found.")
    | .ok files =>
      let session := Session.start settings.cacheEnabled settings.maxCacheSize grammarFile?
      lintFiles routing t session a files c

/-- Runs the command. -/
def run (settings : Settings) (grammarFile? : Option Path) (t : FileTree)
    (texts : List String) : Outcome :=
  spec.run texts (work settings grammarFile? t)

end LintCommand

end KsyTools
