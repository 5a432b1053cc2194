import DesignTokens.Decimal.Read
import DesignTokens.Text.Blank
import DesignTokens.Text.Digit
import DesignTokens.Text.Quoted

/-! # Whole texts as numbers

Blanks may stand around a number, and its digits may be those of any decimal script. -/

namespace DesignTokens.Decimal

inductive NumberFault
  | notAnInteger (base : Nat) (text : String)
  | notANumber (text : String)
  | tooManyDigits (digits : Nat)
  | tooLong
  deriving DecidableEq, Repr

/-- A text that is no integer is shown by at most 200 characters. -/
def NumberFault.message : NumberFault → String
  | notAnInteger base text =>
    "invalid literal for int() with base " ++ toString base ++ ": " ++
      String.ofList ((Text.quoted text).toList.take 200)
  | notANumber text => "could not convert string to float: " ++ Text.quoted text
  | tooManyDigits n =>
    "Exceeds the limit (4300 digits) for integer string conversion: value has " ++ toString n ++
      " digits; use sys.set_int_max_str_digits() to increase the limit"
  | tooLong =>
    "Exceeds the limit (4300 digits) for integer string conversion; " ++
      "use sys.set_int_max_str_digits() to increase the limit"

/-- The most decimal digits that an integer is read from or written with. -/
def digitLimit : Nat := 4300

/-- The least number with more digits. -/
def digitBound : Nat := Nat.pow 10 digitLimit

/-- The ASCII digit of the same value, for a digit of another script. -/
def asciiDigit (c : Char) : Char :=
  match Text.decimalZeros.find? fun z => z ≤ c.toNat && c.toNat ≤ z + 9 with
  | some z => Char.ofNat ('0'.toNat + (c.toNat - z))
  | none => c

def plain (s : String) : List Char := (Text.trim s.toList).map asciiDigit

/-- The letter after a zero that announces the base. -/
def baseLetter? (base : Nat) : Option Char :=
  if base = 2 then some 'b' else if base = 8 then some 'o' else if base = 16 then some 'x'
  else none

/-- The digits after a zero and the letter of the base, if they stand there. -/
def withoutPrefix (base : Nat) (s : List Char) : List Char :=
  match s with
  | '0' :: c :: r => if baseLetter? base = some c.toLower then r else s
  | s => s

/-- The integer that a text is in the given base. -/
def readInteger (base : Nat) (s : String) : Except NumberFault Int :=
  let (negative, ds) := readSign (plain s)
  let ds := withoutPrefix base ds
  if ds ≠ [] ∧ ds.all fun c => Text.isHexDigit c && Text.hexValue c < base then
    if base = 10 ∧ digitLimit < ds.length then .error (.tooManyDigits ds.length)
    else
      let n : Int := ofDigits base ds
      .ok (if negative then -n else n)
  else .error (.notAnInteger base s)

/-- The floating-point number that a text is. -/
def readFloat (s : String) : Except NumberFault Float :=
  let t := (plain s).map Char.toLower
  let (negative, r) := readSign t
  let signed (x : Float) : Float := if negative then -x else x
  if r = ['i', 'n', 'f'] ∨ r = ['i', 'n', 'f', 'i', 'n', 'i', 't', 'y'] then .ok (signed (1.0 / 0.0))
  else if r = ['n', 'a', 'n'] then .ok (0.0 / 0.0)
  else match parts? t with
    | some p => .ok p.toFloat
    | none => .error (.notANumber s)

end DesignTokens.Decimal
