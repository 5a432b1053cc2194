import DesignTokens.Text.LowerCase
import DesignTokens.Value.Basic
import DesignTokens.Yaml.Fault
import DesignTokens.Yaml.Tag

/-! # Values of tagged texts

What a text is under the tag of a truth value, a number, a moment or bytes. A tag may be written
before any text, so each of them refuses some. -/

namespace DesignTokens.Yaml

def readTruth (text : String) : Except ScalarFault Bool :=
  match String.ofList (Text.lowerCase text.toList) with
  | "yes" | "true" | "on" => .ok true
  | "no" | "false" | "off" => .ok false
  | _ => .error .notATruth

/-! ### Numbers -/

/-- The text of a number without underscores, and without its sign if that is not a minus sign. -/
def readNumberSign (text : String) : Except ScalarFault (Bool × List Char) :=
  match text.toList.filter (· ≠ '_') with
  | [] => .error .emptyNumber
  | s => .ok (Decimal.readSign s)

def readDigits (base : Nat) (s : List Char) : Except ScalarFault Int :=
  (Decimal.readInteger base (String.ofList s)).mapError .number

/-- The integer that a text is: binary, hexadecimal or octal if it begins with a zero, or else
decimal, perhaps with places of sixty between colons. -/
def readInt (text : String) : Except ScalarFault Int := do
  let (negative, s) ← readNumberSign text
  let n ← match s with
    | [] => throw .emptyNumber
    | ['0'] => pure 0
    | '0' :: 'b' :: r => readDigits 2 r
    | '0' :: 'x' :: r => readDigits 16 r
    | '0' :: _ => readDigits 8 s
    | _ => do
      let places ← (Text.splitOn ':' s).mapM (readDigits 10)
      pure (places.foldl (fun n d => n * 60 + d) 0)
  return if negative then -n else n

/-- The number of places whose weights, powers of sixty, are floating-point numbers. -/
def weightLimit : Nat := 174

/-- The sum of the places, each weighted by its power of sixty, from the last one on. -/
def sumOfSixties (places : List Float) : Except ScalarFault Float :=
  if weightLimit < places.length then .error .weightOutOfRange
  else
    let weighted := places.reverse.zipIdx.map fun (x, i) => x * Float.ofNat (Nat.pow 60 i)
    .ok (weighted.foldl (· + ·) 0.0)

/-- What is left of a text without its sign names what is not a number. -/
def namesNaN (s : List Char) : Bool := Text.lowerCase s = ['.', 'n', 'a', 'n']

/-- The floating-point number that a text is, in lower or upper case. -/
def readFloat (text : String) : Except ScalarFault Float := do
  let (negative, s) ← readNumberSign text
  let s := Text.lowerCase s
  let number (s : List Char) : Except ScalarFault Float :=
    (Decimal.readFloat (String.ofList s)).mapError .number
  let x ← if s = ['.', 'i', 'n', 'f'] then pure (1.0 / 0.0)
    else if namesNaN s then pure (0.0 / 0.0)
    else if s.contains ':' then do sumOfSixties (← (Text.splitOn ':' s).mapM number)
    else number s
  return if negative then -x else x

/-! ### Moments -/

/-- The moment that a text is. A line feed at its end does not count. -/
def readMoment (text : String) : Except ScalarFault Moment :=
  match readStamp? (Text.withoutFinalNewline text.toList) with
  | none => .error .notAMoment
  | some s => s.toMoment.mapError .noSuchMoment

/-! ### Bytes -/

def isAscii (c : Char) : Bool := c.toNat < 0x80

/-- The bytes that a text is in base 64, if it has only ASCII characters. -/
def readBytes (text : String) : Except Cause (List UInt8) :=
  let s := text.toList
  match s.dropWhile isAscii with
  | [] => (Text.decodeBase64 s).mapError .binaryMalformed
  | c :: r =>
    .error (.binaryNotAscii (s.takeWhile isAscii).length
      ((r.takeWhile fun c => !isAscii c).length + 1) c)

/-! ### Texts under tags -/

/-- The value of a text under a tag for which there are values. -/
def readScalar? (tag : Tag) (text : String) : Option (Except Cause Value) :=
  match tag with
  | .null => some (.ok .null)
  | .bool => some (.bool <$> (readTruth text).mapError .scalar)
  | .int => some (.int <$> (readInt text).mapError .scalar)
  | .float => some (.float <$> (readFloat text).mapError .scalar)
  | .binary => some (.bytes <$> readBytes text)
  | .timestamp => some (.moment <$> (readMoment text).mapError .scalar)
  | .str => some (.ok (.text text))
  | _ => none

end DesignTokens.Yaml
