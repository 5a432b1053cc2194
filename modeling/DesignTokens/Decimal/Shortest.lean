/-! # The shortest decimal of a binary number

A finite number `m * 2 ^ q` is written with the fewest digits that read back: of the decimal grids
`10 ^ k` from coarse to fine, the first that has a point among the reals that round to the number
wins, and of two points on it the nearer one. All arithmetic is on natural numbers. -/

namespace DesignTokens.Decimal

/-- The positive number `digits * 10 ^ exponent`. -/
structure Scientific where
  digits : Nat
  exponent : Int
  deriving DecidableEq, Repr

/-- A positive number `mantissa * 2 ^ exponent`; `narrow` says that the next number below is half
as far as the next one above. -/
structure Binary where
  mantissa : Nat
  exponent : Int
  narrow : Bool
  deriving DecidableEq, Repr

/-- The decimal exponent of the leading digit of `num / den`. -/
def leadingExponent (num den : Nat) : Int :=
  if den ≤ num then (Nat.toDigits 10 (num / den)).length - 1
  else -((Nat.toDigits 10 ((num + den - 1) / num - 1)).length : Int)

namespace Binary

/-- Four times the number, its lower and its upper bound of rounding, over one denominator. -/
def bounds (b : Binary) : Nat × Nat × Nat × Nat :=
  let up := Nat.pow 2 b.exponent.toNat
  let den := 4 * Nat.pow 2 (-b.exponent).toNat
  let below := if b.narrow then 1 else 2
  (4 * b.mantissa * up, (4 * b.mantissa - below) * up, (4 * b.mantissa + 2) * up, den)

/-- The nearest point of the grid `10 ^ k` that rounds to the number; a tie goes to the even one. -/
def onGrid? (b : Binary) (k : Int) : Option Nat :=
  let (num, low, high, den) := b.bounds
  let num := num * Nat.pow 10 (-k).toNat
  let low := low * Nat.pow 10 (-k).toNat
  let high := high * Nat.pow 10 (-k).toNat
  let unit := den * Nat.pow 10 k.toNat
  let closed := b.mantissa % 2 = 0
  let rounds (c : Nat) : Bool :=
    if closed then low ≤ c * unit && c * unit ≤ high else low < c * unit && c * unit < high
  let c := num / unit
  let below := num - c * unit
  let above := (c + 1) * unit - num
  match rounds c, rounds (c + 1) with
  | false, false => none
  | true, false => some c
  | false, true => some (c + 1)
  | true, true =>
    if below < above then some c
    else if above < below then some (c + 1)
    else if c % 2 = 0 then some c else some (c + 1)

/-- The shortest decimal that reads back as the number. Seventeen digits always suffice. -/
def shortest (b : Binary) : Scientific :=
  let (num, _, _, den) := b.bounds
  let lead := leadingExponent num den
  let found := (List.range 17).findSome? fun n =>
    let k := lead - (n : Nat)
    (b.onGrid? k).map fun c => (⟨c, k⟩ : Scientific)
  found.getD ⟨num / den, 0⟩

end Binary

/-! ### Text -/

/-- The digits of `n` without zeros at the end, and how many there were. -/
def stripZeros (ds : List Char) : List Char × Nat :=
  let kept := (ds.reverse.dropWhile (· == '0')).reverse
  (kept, ds.length - kept.length)

/-- Exponents of the leading digit from `-4` up to `15` are written positionally. -/
def isPositional (lead : Int) : Bool := -4 ≤ lead && lead < 16

/-- The text of a positive number: positional with at least one decimal place, or with a signed
exponent of at least two digits. -/
def Scientific.text (x : Scientific) : String :=
  let (ds, zeros) := stripZeros (Nat.toDigits 10 x.digits)
  let exponent : Int := x.exponent + zeros
  let lead : Int := exponent + ds.length - 1
  String.ofList <|
    if isPositional lead then
      if 0 ≤ exponent then ds ++ List.replicate exponent.toNat '0' ++ ['.', '0']
      else if 0 ≤ lead then ds.take (lead.toNat + 1) ++ '.' :: ds.drop (lead.toNat + 1)
      else ['0', '.'] ++ List.replicate (-lead - 1).toNat '0' ++ ds
    else
      let size := (Nat.toDigits 10 lead.natAbs)
      let size := if size.length < 2 then '0' :: size else size
      let fraction := if ds.length ≤ 1 then [] else '.' :: ds.drop 1
      ds.take 1 ++ fraction ++ 'e' :: (if lead < 0 then '-' else '+') :: size

/-! ### Floating-point numbers -/

def significandBits : Nat := 52

/-- A floating-point number by its kind. -/
inductive Class
  | nan
  | infinite
  | zero
  | finite (b : Binary)

/-- Whether the sign is set, and what the rest of the number is. -/
def classify (x : Float) : Bool × Class :=
  let bits := x.toBits.toNat
  let negative := bits / Nat.pow 2 63 = 1
  let e : Nat := bits / Nat.pow 2 significandBits % Nat.pow 2 11
  let f : Nat := bits % Nat.pow 2 significandBits
  (negative,
    if e = 2047 then (if f = 0 then .infinite else .nan)
    else if e = 0 then (if f = 0 then .zero else .finite ⟨f, -1074, false⟩)
    else .finite ⟨f + Nat.pow 2 significandBits, (e : Int) - 1075, f = 0 && 1 < e⟩)

/-- The shortest text that reads back as the number. -/
def floatText (x : Float) : String :=
  let (negative, c) := classify x
  let signed (s : String) : String := if negative then "-" ++ s else s
  match c with
  | .nan => "nan"
  | .infinite => signed "inf"
  | .zero => signed "0.0"
  | .finite b => signed b.shortest.text

/-- The integer that a floating-point number is, if it is one. -/
def floatInt? (x : Float) : Option Int :=
  let (negative, c) := classify x
  let signed (n : Nat) : Int := if negative then -n else n
  match c with
  | .nan | .infinite => none
  | .zero => some 0
  | .finite b =>
    let den := Nat.pow 2 (-b.exponent).toNat
    let num := b.mantissa * Nat.pow 2 b.exponent.toNat
    if num % den = 0 then some (signed (num / den)) else none

end DesignTokens.Decimal
