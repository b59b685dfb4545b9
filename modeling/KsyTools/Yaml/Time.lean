/-
# Dates and times

Time stamps of the proleptic Gregorian calendar, with an optional distance from UTC.
-/
import KsyTools.Yaml.Problem

namespace KsyTools.Yaml

/-- A day. -/
structure Date where
  year : Nat
  month : Nat
  day : Nat
  deriving Repr, DecidableEq

/-- A time on a day; `offset` is the distance from UTC in seconds, if it is known. -/
structure DateTime where
  date : Date
  hour : Nat
  minute : Nat
  second : Nat
  microsecond : Nat
  offset : Option Int
  deriving Repr, DecidableEq

/-- Leap years of the Gregorian calendar. -/
def isLeapYear (year : Nat) : Bool :=
  year % 4 == 0 && (year % 100 != 0 || year % 400 == 0)

/-- The number of days of a month. -/
def daysInMonth (year month : Nat) : Nat :=
  match month with
  | 2 => if isLeapYear year then 29 else 28
  | 4 => 30
  | 6 => 30
  | 9 => 30
  | 11 => 30
  | _ => 31

/-- The number of days before a day, counted from the first day of year one. -/
def Date.dayNumber (d : Date) : Nat :=
  let y := d.year - 1
  let inMonths := (List.range (d.month - 1)).foldl (fun n m => n + daysInMonth d.year (m + 1)) 0
  y * 365 + y / 4 - y / 100 + y / 400 + inMonths + (d.day - 1)

/-- Microseconds since the first day of year one, by the clock that the time was written for. -/
def DateTime.clock (t : DateTime) : Nat :=
  (((t.date.dayNumber * 24 + t.hour) * 60 + t.minute) * 60 + t.second) * 1000000 + t.microsecond

/-- Whether two times are the same: the same instant if both know their distance from UTC, the same
clock time if neither does. -/
def DateTime.same (t u : DateTime) : Bool :=
  match t.offset, u.offset with
  | none, none => t.clock == u.clock
  | some a, some b => (t.clock : Int) - a * 1000000 == (u.clock : Int) - b * 1000000
  | _, _ => false

/-- A number with at least `width` digits. -/
def padded (width n : Nat) : String :=
  let digits := toString n
  String.ofList (List.replicate (width - digits.length) '0') ++ digits

/-- Year, month and day, with hyphens between them. -/
def Date.text (d : Date) : String :=
  s!"{padded 4 d.year}-{padded 2 d.month}-{padded 2 d.day}"

/-- Date, time of day and distance from UTC; microseconds only if there are any. -/
def DateTime.text (t : DateTime) (separator : String) : String :=
  let fraction := if t.microsecond = 0 then "" else "." ++ padded 6 t.microsecond
  let zone :=
    match t.offset with
    | none => ""
    | some seconds =>
      let minutes := seconds.natAbs / 60
      (if seconds < 0 then "-" else "+") ++ padded 2 (minutes / 60) ++ ":" ++
        padded 2 (minutes % 60)
  s!"{t.date.text}{separator}{padded 2 t.hour}:{padded 2 t.minute}:{padded 2 t.second}"
    ++ fraction ++ zone

/-- A day, written as an expression. -/
def Date.expression (d : Date) : String :=
  s!"datetime.date({d.year}, {d.month}, {d.day})"

/-- A time, written as an expression: seconds and microseconds are left out where they and all that
follows are zero. -/
def DateTime.expression (t : DateTime) : String :=
  let fields := [t.date.year, t.date.month, t.date.day, t.hour, t.minute] ++
    (if t.microsecond ≠ 0 then [t.second, t.microsecond]
     else if t.second ≠ 0 then [t.second] else [])
  let zone :=
    match t.offset with
    | none => []
    | some seconds =>
      if seconds = 0 then ["tzinfo=datetime.timezone.utc"]
      else [s!"tzinfo=datetime.timezone({durationText seconds})"]
  let parts := ", ".intercalate (fields.map toString ++ zone)
  s!"datetime.datetime({parts})"

/-! ## Reading -/

/-- The number that some decimal digits stand for. -/
def digitsValue (cs : List Char) : Nat :=
  Text.ofDigits 10 (cs.map fun c => c.toNat - 48)

/-- Between `least` and `most` digits at the start of a text, as many as there are. -/
def takeField? (least most : Nat) (cs : List Char) : Option (List Char × List Char) :=
  let digits := (cs.take most).takeWhile Char.isDigit
  if digits.length < least then none else some (digits, cs.drop digits.length)

/-- The text behind a given character. -/
def after? (c : Char) : List Char → Option (List Char)
  | d :: rest => if d = c then some rest else none
  | [] => none

/-- The parts of a time of day. -/
structure ClockFields where
  hour : Nat
  minute : Nat
  second : Nat
  microsecond : Nat
  offset : Option Int

/-- Whether nothing but a final line feed is left. -/
def atEnd (cs : List Char) : Bool :=
  cs == [] || cs == ['\n']

/-- The distance from UTC at the end of a time stamp, in seconds. -/
def zoneField? (cs : List Char) : Option (Option Int) :=
  if atEnd cs then some none
  else
    match cs.dropWhile fun c => c == ' ' || c == '\t' with
    | 'Z' :: rest => if atEnd rest then some (some 0) else none
    | c :: rest =>
      if c = '+' ∨ c = '-' then do
        let (hours, rest) ← takeField? 1 2 rest
        let (minutes, rest) ←
          match after? ':' rest with
          | some rest => takeField? 2 2 rest
          | none => some ([], rest)
        if atEnd rest then
          let seconds : Int := (digitsValue hours * 60 + digitsValue minutes) * 60
          some (some (if c = '-' then -seconds else seconds))
        else none
      else none
    | [] => none

/-- The time of day behind a date. -/
def clockFields? (cs : List Char) : Option ClockFields := do
  let rest ←
    match cs with
    | c :: rest =>
      if c = 'T' ∨ c = 't' then some rest
      else if c = ' ' ∨ c = '\t' then some (rest.dropWhile fun c => c == ' ' || c == '\t')
      else none
    | [] => none
  let (hour, rest) ← takeField? 1 2 rest
  let (minute, rest) ← takeField? 2 2 (← after? ':' rest)
  let (second, rest) ← takeField? 2 2 (← after? ':' rest)
  let (fraction, rest) :=
    match after? '.' rest with
    | some rest => (rest.takeWhile Char.isDigit, rest.dropWhile Char.isDigit)
    | none => ([], rest)
  let micro := fraction.take 6
  let offset ← zoneField? rest
  return ⟨digitsValue hour, digitsValue minute, digitsValue second,
    digitsValue (micro ++ List.replicate (6 - micro.length) '0'), offset⟩

/-- A date, and the time of day behind it. -/
def timestampFields? (cs : List Char) : Option (Date × Option ClockFields) := do
  let (year, rest) ← takeField? 4 4 cs
  let (month, rest) ← takeField? 1 2 (← after? '-' rest)
  let (day, rest) ← takeField? 1 2 (← after? '-' rest)
  let date : Date := ⟨digitsValue year, digitsValue month, digitsValue day⟩
  if atEnd rest then return (date, none)
  else return (date, some (← clockFields? rest))

/-- Checks that a date is in the calendar. -/
def Date.check (d : Date) : Except DateFault Unit :=
  if d.year = 0 ∨ 9999 < d.year then .error (.year d.year)
  else if d.month = 0 ∨ 12 < d.month then .error .month
  else if d.day = 0 ∨ daysInMonth d.year d.month < d.day then .error .day
  else .ok ()

/-- Checks the distance from UTC, then the date, then the time of day. -/
def ClockFields.check (date : Date) (c : ClockFields) : Except DateFault DateTime := do
  match c.offset with
  | some seconds => if 86400 ≤ seconds.natAbs then throw (.offset seconds)
  | none => pure ()
  date.check
  if 23 < c.hour then throw .hour
  if 59 < c.minute then throw .minute
  if 59 < c.second then throw .second
  return ⟨date, c.hour, c.minute, c.second, c.microsecond, c.offset⟩

end KsyTools.Yaml
