/-
# What a command leaves behind

The texts that a command writes to its two output streams, and how it ends.
-/
import KsyTools.Command.Arguments
import KsyTools.Failure
import KsyTools.Log.Routing

namespace KsyTools

/-- What was written so far. -/
structure Console where
  out : String
  err : String
  deriving Repr, DecidableEq

namespace Console

/-- Nothing was written. -/
def empty : Console :=
  ⟨"", ""⟩

/-- Writes a text. -/
def write (c : Console) (stream : OutputStream) (text : String) : Console :=
  match stream with
  | .out => { c with out := c.out ++ text }
  | .err => { c with err := c.err ++ text }

/-- Writes a text and ends the line. -/
def line (c : Console) (stream : OutputStream) (text : String) : Console :=
  c.write stream (text ++ "\n")

/-- Writes lines. -/
def lines (c : Console) (stream : OutputStream) (texts : List String) : Console :=
  texts.foldl (fun c text => c.line stream text) c

/-- Writes a log record where it belongs. -/
def record (routing : LogRouting) (c : Console) (r : LogRecord) : Console :=
  (routing.streams r).foldl (fun c stream => c.line stream r.line) c

/-- Writes log records where they belong. -/
def records (routing : LogRouting) (c : Console) (log : List LogRecord) : Console :=
  log.foldl (record routing) c

end Console

/-- How a command ended: with an exit code, or broken off by a failure. -/
structure Outcome where
  result : Except Failure Nat
  console : Console

/-- A command that ends with an exit code. -/
def Outcome.exit (code : Nat) (c : Console) : Outcome :=
  ⟨.ok code, c⟩

/-- A command that is broken off. -/
def Outcome.brokenOff (failure : Failure) (c : Console) : Outcome :=
  ⟨.error failure, c⟩

/-- Reads a command line and does what it asks for: help is written to the standard output; a fault
is written to the error output, behind the usage, and ends the command with code 2. -/
def CommandSpec.run (spec : CommandSpec) (texts : List String)
    (work : Arguments → Outcome) : Outcome :=
  match spec.parse texts with
  | .error fault =>
    let message := s!"{spec.name}: error: {fault.message}"
    .exit 2 ((Console.empty.write .err spec.usage).line .err message)
  | .ok .help => .exit 0 (Console.empty.write .out (spec.usage ++ spec.details))
  | .ok (.work arguments) => work arguments

end KsyTools
