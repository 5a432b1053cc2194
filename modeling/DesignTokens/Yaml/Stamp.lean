import DesignTokens.Decimal.Read
import DesignTokens.Value.Moment

/-! # Dates and times as they are written

A date, perhaps with a time and an offset from universal time. What has the form of one need not be
a day of the calendar. -/

namespace DesignTokens.Yaml

/-- The fields of a date, perhaps with a time and an offset, as they are written. -/
structure Stamp where
  year : List Char
  month : List Char
  day : List Char
  time : Option (List Char × List Char × List Char)
  /-- The digits after the point of the seconds. -/
  fraction : List Char
  /-- The offset: none, universal time, or a sign with hours and minutes. -/
  offset : Option (Option (Char × List Char × List Char))

/-- From `low` to `high` digits at the front, as many as there are, and what follows. -/
def takeDigits? (low high : Nat) (s : List Char) : Option (List Char × List Char) :=
  let ds := (s.take high).takeWhile Text.isAsciiDigit
  if low ≤ ds.length then some (ds, s.drop ds.length) else none

def takeChar? (c : Char) (s : List Char) : Option (List Char) :=
  if s.head? = some c then some (s.drop 1) else none

def skipGaps (s : List Char) : List Char := s.dropWhile fun c => c == ' ' || c == '\t'

/-- Reads an offset, which must end the text. -/
def readOffset? (s : List Char) : Option (Option (Option (Char × List Char × List Char))) :=
  match s with
  | [] => some none
  | s =>
    match skipGaps s with
    | ['Z'] => some (some none)
    | c :: r => do
      if c ≠ '+' ∧ c ≠ '-' then none
      let (hour, r) ← takeDigits? 1 2 r
      match r with
      | [] => return some (some (c, hour, []))
      | r =>
        let (minute, r) ← takeDigits? 2 2 (← takeChar? ':' r)
        if r = [] then return some (some (c, hour, minute)) else none
    | [] => none

def readTime? (date : Stamp) (s : List Char) : Option Stamp :=
  match s with
  | [] => some date
  | c :: r => do
    let r ← if c = 'T' ∨ c = 't' then some r
      else if c = ' ' ∨ c = '\t' then some (skipGaps r) else none
    let (hour, r) ← takeDigits? 1 2 r
    let (minute, r) ← takeDigits? 2 2 (← takeChar? ':' r)
    let (second, r) ← takeDigits? 2 2 (← takeChar? ':' r)
    let (fraction, r) := match r with
      | '.' :: r => (r.takeWhile Text.isAsciiDigit, r.dropWhile Text.isAsciiDigit)
      | r => ([], r)
    let offset ← readOffset? r
    return { date with time := some (hour, minute, second), fraction := fraction, offset := offset }

/-- The fields of the date and time that a text is. -/
def readStamp? (s : List Char) : Option Stamp := do
  let (year, r) ← takeDigits? 4 4 s
  let (month, r) ← takeDigits? 1 2 (← takeChar? '-' r)
  let (day, r) ← takeDigits? 1 2 (← takeChar? '-' r)
  readTime? ⟨year, month, day, none, [], none⟩ r

/-! ### Moments -/

/-- The first six digits of a fraction, filled up with zeros. -/
def microseconds (fraction : List Char) : Nat :=
  Decimal.ofDigits 10 ((fraction ++ List.replicate 6 '0').take 6)

def offsetSeconds (sign : Char) (hour minute : List Char) : Int :=
  let n : Int := Decimal.ofDigits 10 hour * 3600 + Decimal.ofDigits 10 minute * 60
  if sign = '-' then -n else n

/-- The moment with the fields. The offset is checked first. -/
def Stamp.toMoment (s : Stamp) : Except MomentFault Moment := do
  let number (ds : List Char) : Nat := Decimal.ofDigits 10 ds
  let date : Date := ⟨number s.year, number s.month, number s.day⟩
  match s.time with
  | none =>
    date.check
    return .date date
  | some (hour, minute, second) =>
    let offset : Option Int := s.offset.map fun o =>
      (o.map fun (sign, hour, minute) => offsetSeconds sign hour minute).getD 0
    offset.forM checkOffset
    date.check
    let time : TimeOfDay := ⟨number hour, number minute, number second, microseconds s.fraction⟩
    time.check
    return .dateTime date time offset

end DesignTokens.Yaml
