import DesignTokens.Text.Range

/-! # Dates and times of day -/

namespace DesignTokens

/-- The text of `n` with at least `width` digits. -/
def padded (width n : Nat) : String :=
  let ds := Nat.toDigits 10 n
  String.ofList (List.replicate (width - ds.length) '0' ++ ds)

structure Date where
  year : Nat
  month : Nat
  day : Nat
  deriving DecidableEq, Repr

structure TimeOfDay where
  hour : Nat
  minute : Nat
  second : Nat
  microsecond : Nat
  deriving DecidableEq, Repr

/-- A date, a time of day, or both, then perhaps with an offset from universal time in seconds. -/
inductive Moment
  | date (d : Date)
  | time (t : TimeOfDay)
  | dateTime (d : Date) (t : TimeOfDay) (offset : Option Int)
  deriving DecidableEq, Repr

namespace Date

def isLeap (year : Nat) : Bool := year % 4 == 0 && (year % 100 != 0 || year % 400 == 0)

def daysInMonth (year month : Nat) : Nat :=
  if month = 2 then (if isLeap year then 29 else 28)
  else if month = 4 ∨ month = 6 ∨ month = 9 ∨ month = 11 then 30 else 31

/-- A day of the calendar, in the years with at most four digits. -/
def isValid (d : Date) : Bool :=
  1 ≤ d.year && d.year ≤ 9999 && 1 ≤ d.month && d.month ≤ 12 && 1 ≤ d.day &&
    d.day ≤ daysInMonth d.year d.month

/-- The days since the year 1 began, with this one. -/
def ordinal (d : Date) : Nat :=
  let y := d.year - 1
  let months := (List.range (d.month - 1)).map (· + 1)
  y * 365 + y / 4 - y / 100 + y / 400 + d.day +
    months.foldl (fun days m => days + daysInMonth d.year m) 0

def text (d : Date) : String := s!"{padded 4 d.year}-{padded 2 d.month}-{padded 2 d.day}"

end Date

namespace TimeOfDay

def isValid (t : TimeOfDay) : Bool :=
  t.hour < 24 && t.minute < 60 && t.second < 60 && t.microsecond < 1000000

/-- The whole seconds since midnight. -/
def seconds (t : TimeOfDay) : Nat := t.hour * 3600 + t.minute * 60 + t.second

/-- Microseconds are written with six digits, unless there are none. -/
def text (t : TimeOfDay) : String :=
  let fraction := if t.microsecond = 0 then "" else "." ++ padded 6 t.microsecond
  s!"{padded 2 t.hour}:{padded 2 t.minute}:{padded 2 t.second}{fraction}"

end TimeOfDay

namespace Moment

/-- The text of an offset: a sign, hours and minutes, and seconds if there are any. -/
def offsetText (offset : Int) : String :=
  let n := offset.natAbs
  let sign := if offset < 0 then "-" else "+"
  let seconds := if n % 60 = 0 then "" else ":" ++ padded 2 (n % 60)
  s!"{sign}{padded 2 (n / 3600)}:{padded 2 (n / 60 % 60)}{seconds}"

def text : Moment → String
  | date d => d.text
  | time t => t.text
  | dateTime d t offset => d.text ++ " " ++ t.text ++ (offset.map offsetText).getD ""

/-- The fields of a time as arguments; microseconds, and then also seconds, are left out if they
are zero. -/
def timeArguments (t : TimeOfDay) : List Nat :=
  if t.microsecond ≠ 0 then [t.hour, t.minute, t.second, t.microsecond]
  else if t.second ≠ 0 then [t.hour, t.minute, t.second]
  else [t.hour, t.minute]

def argumentText (args : List Nat) : String := ", ".intercalate (args.map toString)

/-- The constructor call that makes a span of time; a negative one is counted from a day before. -/
def spanConstructor (span : Int) : String :=
  let days := span.fdiv 86400
  let seconds := span.fmod 86400
  let parts := (if days = 0 then [] else [s!"days={days}"]) ++
    (if seconds = 0 then [] else [s!"seconds={seconds}"])
  "datetime.timedelta(" ++ ", ".intercalate parts ++ ")"

def offsetConstructor (offset : Int) : String :=
  if offset = 0 then "datetime.timezone.utc"
  else "datetime.timezone(" ++ spanConstructor offset ++ ")"

/-- The constructor call that makes the moment. -/
def constructorText : Moment → String
  | date d => s!"datetime.date({argumentText [d.year, d.month, d.day]})"
  | time t => s!"datetime.time({argumentText (timeArguments t)})"
  | dateTime d t offset =>
    let zone := (offset.map fun o => ", tzinfo=" ++ offsetConstructor o).getD ""
    s!"datetime.datetime({argumentText ([d.year, d.month, d.day] ++ timeArguments t)}{zone})"

def typeName : Moment → String
  | date _ => "date"
  | time _ => "time"
  | dateTime .. => "datetime"

/-- Two moments are the same; with offsets they are compared as instants. -/
def same : Moment → Moment → Bool
  | dateTime d t (some o), dateTime d' t' (some o') =>
    d.ordinal * 86400 + t.seconds - o == d'.ordinal * 86400 + t'.seconds - o' &&
      t.microsecond == t'.microsecond
  | m, n => m == n

end Moment

/-! ### Moments that there are not -/

inductive MomentFault
  | year (n : Nat)
  | month
  | day
  | hour
  | minute
  | second
  | offset (n : Int)
  deriving DecidableEq, Repr

def MomentFault.message : MomentFault → String
  | year n => s!"year {n} is out of range"
  | month => "month must be in 1..12"
  | day => "day is out of range for month"
  | hour => "hour must be in 0..23"
  | minute => "minute must be in 0..59"
  | second => "second must be in 0..59"
  | offset n =>
    "offset must be a timedelta strictly between -timedelta(hours=24) and timedelta(hours=24), not "
      ++ Moment.spanConstructor n ++ "."

/-- Refuses a day that the calendar does not have. -/
def Date.check (d : Date) : Except MomentFault Unit := do
  unless 1 ≤ d.year && d.year ≤ 9999 do throw (.year d.year)
  unless 1 ≤ d.month && d.month ≤ 12 do throw .month
  unless 1 ≤ d.day && d.day ≤ Date.daysInMonth d.year d.month do throw .day

def TimeOfDay.check (t : TimeOfDay) : Except MomentFault Unit := do
  unless t.hour < 24 do throw .hour
  unless t.minute < 60 do throw .minute
  unless t.second < 60 do throw .second

/-- An offset must be less than a day. -/
def checkOffset (offset : Int) : Except MomentFault Unit := do
  unless offset.natAbs < 86400 do throw (.offset offset)

end DesignTokens
