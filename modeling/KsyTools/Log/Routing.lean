/-
# Where log records go

A routing says which records are written and to which of the two output streams.  The command line
tools write records below some level to the standard output and all others to the error output; the
language server, which talks to its client over the standard output, writes all to the error output.
-/
import KsyTools.Log
import KsyTools.Log.Level

namespace KsyTools

/-- The output streams. -/
inductive OutputStream where
  | out
  | err
  deriving Repr, DecidableEq

/-- A destination of records: those of at least one level and, if there is one, below another. -/
structure LogSink where
  stream : OutputStream
  least : Int
  below? : Option Int
  deriving Repr, DecidableEq

/-- Whether a destination takes a record. -/
def LogSink.accepts (s : LogSink) (r : LogRecord) : Bool :=
  s.least ≤ r.level && s.below?.all fun bound => r.level < bound

/-- The least level that is written at all, and the destinations. -/
structure LogRouting where
  level : Int
  sinks : List LogSink
  deriving Repr, DecidableEq

namespace LogRouting

/-- The level of records about details, below which nothing is written. -/
def finest : Int := 10

/-- The streams that a record is written to.  Records need a level above zero. -/
def streams (routing : LogRouting) (r : LogRecord) : List OutputStream :=
  if 0 < r.level ∧ routing.level ≤ r.level then
    (routing.sinks.filter fun s => s.accepts r).map LogSink.stream
  else []

/-- Records below `errorLevel` go to the standard output, the rest to the error output. -/
def split (level errorLevel : Int) : LogRouting :=
  let bound := max errorLevel finest
  ⟨level, [⟨.out, finest, some bound⟩, ⟨.err, bound, none⟩]⟩

/-- All records go to the error output. -/
def errorOnly (level : Int) : LogRouting :=
  ⟨level, [⟨.err, finest, none⟩]⟩

end LogRouting

/-- The line for a record. -/
def LogRecord.line (r : LogRecord) : String :=
  s!"{r.source} - {LogRecord.levelName r.level} - {r.message}"

end KsyTools
