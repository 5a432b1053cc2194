import DesignTokens.Decimal.Read
import DesignTokens.Json.Tree
import DesignTokens.Text.Reading

/-!
# Reading documents in the JSON format

`decode` takes every document of the format (RFC 8259) to its tree and refuses everything else.
Blanks may stand around all parts. A character may be written as itself, by a short escape, or by
its UTF-16 units, of which two halves of a pair make one character; a half alone is refused, as are
control characters. The text of a number is kept.
-/

namespace DesignTokens.Json

def isSpace (c : Char) : Bool := c == ' ' || c == '\n' || c == '\r' || c == '\t'

/-- Passes over blanks and the character `c`. -/
def readMark (c : Char) : (s : List Char) → Option (Read Unit s)
  | [] => none
  | d :: r =>
    if d = c then some ⟨(), r, .one d r⟩
    else if isSpace d then (readMark c r).map (.after (.one d r))
    else none

/-- The end of brackets with nothing in them. -/
def readNone {α : Type} (closing : Char) (s : List Char) : Option (Read (List α) s) :=
  (readMark closing s).map fun m => m.map fun _ => []

/-! ### Texts -/

/-- The UTF-16 unit that four hexadecimal digits give. -/
def readUnit : (s : List Char) → Option (Read Nat s)
  | a :: b :: c :: d :: r =>
    if [a, b, c, d].all Text.isHexDigit then
      some ⟨Decimal.ofDigits 16 [a, b, c, d], r, a, [b, c, d], rfl⟩
    else none
  | _ => none

/-- What the second half of a pair adds. -/
def readSecondHalf : (s : List Char) → Option (Read Nat s)
  | '\\' :: 'u' :: r => do
    let u ← readUnit r
    if 0xDC00 ≤ u.value ∧ u.value ≤ 0xDFFF then
      some ⟨u.value - 0xDC00, u.rest, u.tail.trans ((Tail.one 'u' r).trans (.one '\\' _))⟩
    else none
  | _ => none

/-- The character whose UTF-16 units begin with the digits that come next. -/
def readUnits (s : List Char) : Option (Read Char s) := do
  let u ← readUnit s
  if u.value < 0xD800 ∨ 0xDFFF < u.value then some (u.map Char.ofNat)
  else if u.value < 0xDC00 then
    let v ← readSecondHalf u.rest
    some ⟨Char.ofNat (0x10000 + (u.value - 0xD800) * 0x400 + v.value), v.rest,
      v.tail.trans u.tail⟩
  else none

/-- What the character after a backslash stands for. -/
def shortEscapes : List (Char × Char) := [
  ('"', '"'), ('\\', '\\'), ('/', '/'), ('b', '\x08'), ('f', '\x0c'), ('n', '\n'), ('r', '\r'),
  ('t', '\t')]

/-- One character of a text. -/
def readCharacter : (s : List Char) → Option (Read Char s)
  | '\\' :: 'u' :: r => (readUnits r).map (.after ((Tail.one 'u' r).trans (.one '\\' _)))
  | '\\' :: c :: r =>
    (shortEscapes.lookup c).map fun d => ⟨d, r, (Tail.one c r).trans (.one '\\' _)⟩
  | c :: r => if 0x20 ≤ c.toNat ∧ c ≠ '\\' then some ⟨c, r, .one c r⟩ else none
  | [] => none

/-- A text after its opening quote. -/
def readText (s : List Char) : Option (Read (List Char) s) :=
  match s with
  | [] => none
  | c :: r =>
    if c = '"' then some ⟨[], r, .one c r⟩
    else do
      let x ← readCharacter (c :: r)
      let v ← readText x.rest
      some ⟨x.value :: v.value, v.rest, v.tail.trans x.tail⟩
termination_by s.length
decreasing_by exact x.tail.length_lt

/-! ### Numbers -/

/-- What follows digits, of which there must be one. -/
def afterDigits? (s : List Char) : Option (List Char) :=
  if s.head?.any Text.isAsciiDigit then some (s.dropWhile Text.isAsciiDigit) else none

/-- What follows the whole part of a number, which begins with zero only if it is zero. -/
def afterWhole? : List Char → Option (List Char)
  | '0' :: s => some s
  | s => afterDigits? s

def afterFraction? : List Char → Option (List Char)
  | '.' :: s => afterDigits? s
  | s => some s

def afterExponent? : List Char → Option (List Char)
  | [] => some []
  | c :: s =>
    if c = 'e' ∨ c = 'E' then
      afterDigits? (if s.head? = some '+' ∨ s.head? = some '-' then s.drop 1 else s)
    else some (c :: s)

def isNumber (s : List Char) : Bool :=
  let unsigned := if s.head? = some '-' then s.drop 1 else s
  (afterWhole? unsigned >>= afterFraction? >>= afterExponent?) == some []

/-- The character may stand in a number. -/
def isNumberPart (c : Char) : Bool :=
  Text.isAsciiDigit c || c == '-' || c == '+' || c == '.' || c == 'e' || c == 'E'

def readNumber : (s : List Char) → Option (Read Tree s)
  | [] => none
  | c :: r =>
    if isNumberPart c ∧ isNumber (c :: r.takeWhile isNumberPart) then
      some ⟨.number (String.ofList (c :: r.takeWhile isNumberPart)), r.dropWhile isNumberPart,
        .cons c (List.dropWhile_suffix _)⟩
    else none

/-! ### Documents -/

/-- What is neither quoted nor in brackets. -/
def readWord : (s : List Char) → Option (Read Tree s)
  | 'n' :: 'u' :: 'l' :: 'l' :: r => some ⟨.null, r, 'n', ['u', 'l', 'l'], rfl⟩
  | 't' :: 'r' :: 'u' :: 'e' :: r => some ⟨.bool true, r, 't', ['r', 'u', 'e'], rfl⟩
  | 'f' :: 'a' :: 'l' :: 's' :: 'e' :: r => some ⟨.bool false, r, 'f', ['a', 'l', 's', 'e'], rfl⟩
  | s => readNumber s

/-- The name of a field and the colon after it. -/
def readName (s : List Char) : Option (Read String s) := do
  let quote ← readMark '"' s
  let name ← readText quote.rest
  let colon ← readMark ':' name.rest
  some ⟨String.ofList name.value, colon.rest, (colon.tail.trans name.tail).trans quote.tail⟩

mutual

/-- A document that blanks may stand before. -/
def readTree (s : List Char) : Option (Read Tree s) :=
  match s with
  | [] => none
  | c :: r =>
    if isSpace c then (readTree r).map (.after (.one c r))
    else if c = '"' then
      (readText r).map fun v => (v.map fun v => Tree.text (String.ofList v)).after (.one c r)
    else if c = '[' then
      ((readItems r).or (readNone ']' r)).map fun v => (v.map Tree.array).after (.one c r)
    else if c = '\x7b' then
      ((readFields r).or (readNone '\x7d' r)).map fun v => (v.map Tree.object).after (.one c r)
    else readWord (c :: r)
termination_by 2 * s.length

/-- The items of an array up to its end; there is at least one. -/
def readItems (s : List Char) : Option (Read (List Tree) s) := do
  let t ← readTree s
  match readMark ']' t.rest with
  | some closing => some ⟨[t.value], closing.rest, closing.tail.trans t.tail⟩
  | none =>
    let comma ← readMark ',' t.rest
    let ts ← readItems comma.rest
    some ⟨t.value :: ts.value, ts.rest, (ts.tail.trans comma.tail).trans t.tail⟩
termination_by 2 * s.length + 1
decreasing_by
  · omega
  · have := comma.tail.length_lt
    have := t.tail.length_lt
    omega

/-- The fields of an object up to its end; there is at least one. -/
def readFields (s : List Char) : Option (Read (List (String × Tree)) s) := do
  let name ← readName s
  let t ← readTree name.rest
  match readMark '\x7d' t.rest with
  | some closing =>
    some ⟨[(name.value, t.value)], closing.rest, (closing.tail.trans t.tail).trans name.tail⟩
  | none =>
    let comma ← readMark ',' t.rest
    let fs ← readFields comma.rest
    some ⟨(name.value, t.value) :: fs.value, fs.rest,
      ((fs.tail.trans comma.tail).trans t.tail).trans name.tail⟩
termination_by 2 * s.length + 1
decreasing_by
  · have := name.tail.length_lt
    omega
  · have := comma.tail.length_lt
    have := t.tail.length_lt
    have := name.tail.length_lt
    omega

end

/-- The tree of a document. -/
def decode (s : String) : Option Tree := do
  let t ← readTree s.toList
  if t.rest.all isSpace then some t.value else none

end DesignTokens.Json
