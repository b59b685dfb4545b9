/-
# The includes command

Writes the imports and the visible types of files.
-/
import KsyTools.Command.Console
import KsyTools.Ksy.IncludeReport
import KsyTools.Settings

namespace KsyTools

namespace IncludesCommand

/-- The option that chooses the format. -/
def formatOption : CommandOption :=
  ⟨["--format"], .choice ["human", "json"]⟩

/-- How the command is called. -/
def spec : CommandSpec where
  name := "ksy-includes"
  usage := "usage: ksy-includes [-h] [--format \x7bhuman,json\x7d] files [files ...]\n"
  details :=
    "\nShow the imports and visible custom types of Kaitai Struct files\n\n" ++
    "positional arguments:\n" ++
    "  files                 Kaitai Struct files to inspect\n\n" ++
    "options:\n" ++
    "  -h, --help            show this help message and exit\n" ++
    "  --format \x7bhuman,json\x7d\n" ++
    "                        Output format (default: human)\n"
  operandName := "files"
  operandRequired := true
  options := [⟨["-h", "--help"], .help⟩, formatOption]

/-- What was done so far. -/
structure Progress where
  session : Session
  console : Console
  reports : List IncludeReport
  /-- Whether a file could not be read. -/
  failed : Bool

/-- Goes on with the next file. -/
def step (routing : LogRouting) (t : FileTree) (s : Progress) (p : Path) :
    Except Outcome Progress :=
  if !Ksy.isFile p then
    .ok { s with
      console := s.console.line .err s!"Warning: Not a Kaitai Struct file: {p.toString}" }
  else
    let (result, after) := { s.session with log := [] }.run t (IncludeReport.ofFile p)
    let console := Console.records routing s.console after.log
    match result with
    | .ok report => .ok ⟨after, console, s.reports ++ [report], s.failed⟩
    | .error (.document fault) =>
      .ok ⟨after, console.line .err s!"Error: {fault.message}", s.reports, true⟩
    | .error failure => .error (.brokenOff failure console)

/-- Writes the reports and ends the command: with code 1 if a file could not be read. -/
def finish (format : String) (s : Progress) : Outcome :=
  let text :=
    if format = "json" then (Json.arr (s.reports.map IncludeReport.toJson)).pretty
    else "\n".intercalate (s.reports.map IncludeReport.render)
  .exit (if s.failed then 1 else 0) (s.console.line .out text)

/-- Does what a command line asks for. -/
def work (settings : Settings) (grammarFile? : Option Path) (t : FileTree) (a : Arguments) :
    Outcome :=
  match settings.commandRouting with
  | .error failure => .brokenOff failure .empty
  | .ok routing =>
    let session := Session.start settings.cacheEnabled settings.maxCacheSize grammarFile?
    match (a.operands.map Path.ofString).foldlM (step routing t) ⟨session, .empty, [], false⟩ with
    | .error outcome => outcome
    | .ok s => finish ((a.value? formatOption.name "human").getD "") s

/-- Runs the command. -/
def run (settings : Settings) (grammarFile? : Option Path) (t : FileTree)
    (texts : List String) : Outcome :=
  spec.run texts (work settings grammarFile? t)

end IncludesCommand

end KsyTools
