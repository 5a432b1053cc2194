import DesignTokens.Text.Range

/-! # Reading numbers -/

namespace DesignTokens.Decimal

/-- The value of digits in the given base. -/
def ofDigits (base : Nat) (ds : List Char) : Nat :=
  ds.foldl (fun n c => n * base + Text.hexValue c) 0

/-- Beyond this decimal exponent every number is infinite, and below its negative zero. -/
def exponentLimit : Int := 400

/-- The floating-point number nearest to `digits * 10 ^ exponent`. -/
def toFloat (digits : Nat) (exponent : Int) : Float :=
  let lead := exponent + (Nat.toDigits 10 digits).length
  if digits = 0 ∨ lead < -exponentLimit then 0.0
  else if exponentLimit < lead then 1.0 / 0.0
  else if exponent < 0 then Float.ofScientific digits true exponent.natAbs
  else Float.ofScientific digits false exponent.natAbs

/-- A decimal number in parts: its sign, the digits on both sides of the point, its exponent. -/
structure Parts where
  negative : Bool
  whole : List Char
  fraction : List Char
  exponent : Int

def Parts.toFloat (p : Parts) : Float :=
  let x := Decimal.toFloat (ofDigits 10 (p.whole ++ p.fraction)) (p.exponent - p.fraction.length)
  if p.negative then -x else x

/-- Whether a minus sign was read, and what follows the sign. -/
def readSign : List Char → Bool × List Char
  | '-' :: r => (true, r)
  | '+' :: r => (false, r)
  | r => (false, r)

/-- The exponent that the whole text is; an empty text is the exponent zero. -/
def readExponent? : List Char → Option Int
  | [] => some 0
  | e :: r =>
    let (negative, ds) := readSign r
    if (e = 'e' ∨ e = 'E') ∧ ds ≠ [] ∧ ds.all Text.isAsciiDigit then
      let n : Int := ofDigits 10 ds
      some (if negative then -n else n)
    else none

/-- The parts of the decimal number that the whole text is; one side of the point may be empty. -/
def parts? (s : List Char) : Option Parts := do
  let (negative, s) := readSign s
  let whole := s.takeWhile Text.isAsciiDigit
  let (fraction, s) := match s.dropWhile Text.isAsciiDigit with
    | '.' :: r => (r.takeWhile Text.isAsciiDigit, r.dropWhile Text.isAsciiDigit)
    | r => ([], r)
  if whole = [] ∧ fraction = [] then none
  else some ⟨negative, whole, fraction, ← readExponent? s⟩

/-- The floating-point number that the text is, with names for those that are not finite. -/
def floatOfText? (s : String) : Option Float :=
  match s with
  | "nan" => some (0.0 / 0.0)
  | "inf" | "+inf" => some (1.0 / 0.0)
  | "-inf" => some (-1.0 / 0.0)
  | s => (parts? s.toList).map Parts.toFloat

end DesignTokens.Decimal
