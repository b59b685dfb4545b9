/-
# Log records

What the tools have to say about their work: a record has a level, the part of the program that it
comes from, and a message.
-/

namespace KsyTools

/-- A log record. -/
structure LogRecord where
  level : Int
  source : String
  message : String
  deriving Repr, DecidableEq

namespace LogRecord

/-- What the names of all sources start with. -/
def rootSource : String := "kaitai_struct_designer"

/-- A record about details. -/
def debug (source message : String) : LogRecord :=
  ⟨10, rootSource ++ "." ++ source, message⟩

/-- A record about the course of things. -/
def info (source message : String) : LogRecord :=
  ⟨20, rootSource ++ "." ++ source, message⟩

/-- A record about something unexpected. -/
def warning (source message : String) : LogRecord :=
  ⟨30, rootSource ++ "." ++ source, message⟩

/-- A record about something that failed. -/
def error (source message : String) : LogRecord :=
  ⟨40, rootSource ++ "." ++ source, message⟩

/-- The name of a level. -/
def levelName (level : Int) : String :=
  match level with
  | 0 => "NOTSET"
  | 10 => "DEBUG"
  | 20 => "INFO"
  | 30 => "WARNING"
  | 40 => "ERROR"
  | 50 => "CRITICAL"
  | n => s!"Level {n}"

end LogRecord

end KsyTools
