import DesignTokens.Toml.String
import DesignTokens.Value.Basic

/-! # Numbers, dates and times of a TOML document

A reader takes the longest text that fits its form and gives what follows; none if nothing fits. -/

namespace DesignTokens.Toml

/-! ### Numbers -/

/-- The digits at the front, between which single underscores may stand, and what follows. -/
def digitRun (isDigit : Char → Bool) : List Char → List Char × List Char
  | [] => ([], [])
  | c :: s =>
    if isDigit c then
      let (ds, r) := digitRun isDigit s
      (c :: ds, r)
    else if c = '_' && s.head?.any isDigit then digitRun isDigit s
    else ([], c :: s)

/-- A run of digits that begins with one. -/
def digits? (isDigit : Char → Bool) (s : List Char) : Option (List Char × List Char) :=
  if s.head?.any isDigit then some (digitRun isDigit s) else none

/-- The base that a letter after a zero gives, and the digits of that base. -/
def base? : Char → Option (Nat × (Char → Bool))
  | 'x' => some (16, Text.isHexDigit)
  | 'o' => some (8, fun c => '0' ≤ c && c ≤ '7')
  | 'b' => some (2, fun c => c == '0' || c == '1')
  | _ => none

def readBased? (s : List Char) : Option (Value × List Char) :=
  match s with
  | '0' :: c :: r => do
    let (base, isDigit) ← base? c
    let (ds, r) ← digits? isDigit r
    return (.int (Decimal.ofDigits base ds), r)
  | _ => none

/-- The digits before a point: a lone zero, or digits of which the first is not zero. -/
def readWhole? (s : List Char) : Option (List Char × List Char) :=
  match s with
  | '0' :: r => some (['0'], r)
  | s => digits? Text.isAsciiDigit s

def readFraction? (s : List Char) : Option (List Char × List Char) :=
  match s with
  | '.' :: r => digits? Text.isAsciiDigit r
  | _ => none

def readExponent? (s : List Char) : Option (Int × List Char) :=
  match s with
  | c :: r => do
    if c ≠ 'e' ∧ c ≠ 'E' then none
    let (negative, r) := Decimal.readSign r
    let (ds, r) ← digits? Text.isAsciiDigit r
    let n : Int := Decimal.ofDigits 10 ds
    return (if negative then -n else n, r)
  | [] => none

/-- Reads a decimal number; one with a fraction or an exponent is a floating-point number. -/
def readDecimal? (s : List Char) : Option (Except Cause Value × List Char) := do
  let (negative, r) := Decimal.readSign s
  let (whole, r) ← readWhole? r
  let fraction := readFraction? r
  let r := (fraction.map (·.2)).getD r
  let exponent := readExponent? r
  let r := (exponent.map (·.2)).getD r
  if fraction.isNone && exponent.isNone then
    let n : Int := Decimal.ofDigits 10 whole
    if Decimal.digitLimit < whole.length then
      return (.error (.number (.tooManyDigits whole.length)), r)
    else return (.ok (.int (if negative then -n else n)), r)
  else
    let parts : Decimal.Parts :=
      ⟨negative, whole, (fraction.map (·.1)).getD [], (exponent.map (·.1)).getD 0⟩
    return (.ok (.float parts.toFloat), r)

/-- Reads the name of a number that is not finite. -/
def readNonFinite? (s : List Char) : Option (Value × List Char) :=
  let (negative, r) := Decimal.readSign s
  match r with
  | 'i' :: 'n' :: 'f' :: r => some (.float (if negative then -1.0 / 0.0 else 1.0 / 0.0), r)
  | 'n' :: 'a' :: 'n' :: r => some (.float (0.0 / 0.0), r)
  | _ => none

/-! ### Dates and times -/

/-- The number that `width` digits at the front give, if it lies between the bounds. -/
def fixedDigits? (width low high : Nat) (s : List Char) : Option (Nat × List Char) :=
  let ds := s.take width
  let n := Decimal.ofDigits 10 ds
  if ds.length = width ∧ ds.all Text.isAsciiDigit ∧ low ≤ n ∧ n ≤ high then some (n, s.drop width)
  else none

def expect? (c : Char) (s : List Char) : Option (List Char) :=
  match s with
  | d :: r => if d = c then some r else none
  | [] => none

/-- The microseconds that decimal places give; beyond the sixth they do not count. -/
def readMicroseconds (s : List Char) : Nat × List Char :=
  match s with
  | '.' :: r =>
    let ds := r.takeWhile Text.isAsciiDigit
    if ds.isEmpty then (0, s)
    else (Decimal.ofDigits 10 ((ds ++ List.replicate 6 '0').take 6), r.drop ds.length)
  | s => (0, s)

def readTime? (s : List Char) : Option (TimeOfDay × List Char) := do
  let (hour, s) ← fixedDigits? 2 0 23 s
  let (minute, s) ← fixedDigits? 2 0 59 (← expect? ':' s)
  let (second, s) ← fixedDigits? 2 0 59 (← expect? ':' s)
  let (microsecond, s) := readMicroseconds s
  return (⟨hour, minute, second, microsecond⟩, s)

def readDate? (s : List Char) : Option (Date × List Char) := do
  let (year, s) ← fixedDigits? 4 0 9999 s
  let (month, s) ← fixedDigits? 2 1 12 (← expect? '-' s)
  let (day, s) ← fixedDigits? 2 1 31 (← expect? '-' s)
  return (⟨year, month, day⟩, s)

/-- An offset from universal time in hours and minutes, or the letter that stands for none. -/
def readOffset? (s : List Char) : Option (Int × List Char) :=
  match s with
  | [] => none
  | c :: r =>
    if c = 'Z' ∨ c = 'z' then some (0, r)
    else if c = '+' ∨ c = '-' then do
      let (hour, r) ← fixedDigits? 2 0 23 r
      let (minute, r) ← fixedDigits? 2 0 59 (← expect? ':' r)
      let n : Int := (hour * 60 + minute) * 60
      return (if c = '-' then -n else n, r)
    else none

/-- Reads a time after a date, or leaves the date alone. -/
def readDateTime (d : Date) (s : List Char) : Moment × List Char :=
  match s with
  | c :: r =>
    if c = 'T' ∨ c = 't' ∨ c = ' ' then
      match readTime? r with
      | some (t, r) =>
        match readOffset? r with
        | some (o, r) => (.dateTime d t (some o), r)
        | none => (.dateTime d t none, r)
      | none => (.date d, s)
    else (.date d, s)
  | [] => (.date d, s)

/-- Reads a date or a time; the day of a date must exist. -/
def readMoment? (s : List Char) : Option (Except Cause Value × List Char) :=
  match readDate? s with
  | some (d, r) =>
    let (m, r) := readDateTime d r
    some (if d.isValid then .ok (.moment m) else .error .noSuchDate, r)
  | none => (readTime? s).map fun (t, r) => (.ok (.moment (.time t)), r)

/-! ### All scalars -/

def readTruth? (s : List Char) : Option (Value × List Char) :=
  match s with
  | 't' :: 'r' :: 'u' :: 'e' :: r => some (.bool true, r)
  | 'f' :: 'a' :: 'l' :: 's' :: 'e' :: r => some (.bool false, r)
  | _ => none

/-- Reads a value that holds no others. -/
def readScalar (s : List Char) : Except Fault (Value × List Char) :=
  let at_ (p : Except Cause Value × List Char) : Except Fault (Value × List Char) :=
    match p.1 with
    | .ok v => .ok (v, p.2)
    | .error c => .error ⟨c, s.length⟩
  match readString? s with
  | some v => do
    let (v, r) ← v
    return (.text (String.ofList v), r)
  | none =>
    let found := ((readTruth? s).map fun p => (.ok p.1, p.2))
      <|> readMoment? s
      <|> ((readBased? s).map fun p => (.ok p.1, p.2))
      <|> readDecimal? s
      <|> ((readNonFinite? s).map fun p => (.ok p.1, p.2))
    match found with
    | some p => at_ p
    | none => .error ⟨.valueExpected, s.length⟩

end DesignTokens.Toml
