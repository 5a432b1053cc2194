import DesignTokens.Decimal.Read
import DesignTokens.Text.Reading
import DesignTokens.Toml.Fault

/-! # Strings, keys and gaps of a TOML document

Basic strings have escapes, literal ones have none; both may be written over several lines between
three quotes. Control characters other than tabs, and line feeds where lines count, stand nowhere. -/

namespace DesignTokens.Toml

def isControl (c : Char) : Bool := (c.toNat < 0x20 && c != '\t') || c.toNat == 0x7F

/-- A control character other than a line feed. -/
def isControlInLines (c : Char) : Bool := isControl c && c != '\n'

def isGap (c : Char) : Bool := c == ' ' || c == '\t'

def isGapOrNewline (c : Char) : Bool := isGap c || c == '\n'

def skipGap (s : List Char) : List Char := s.dropWhile isGap

theorem skipGap_suffix (s : List Char) : skipGap s <:+ s := List.dropWhile_suffix _

theorem tail_skipGap {r s : List Char} (h : Tail r s) : Tail (skipGap r) s :=
  .trans_suffix (skipGap_suffix r) h

/-- The fault of the first character of `s`, followed by `rest`, that must not stand there. -/
def checkOutside (forbidden : Char → Bool) (s rest : List Char) : Except Fault Unit :=
  match s.dropWhile (!forbidden ·) with
  | [] => .ok ()
  | c :: r => .error ⟨.controlOutside c, (c :: r).length + rest.length⟩

/-! ### Literal strings -/

/-- What stands before the first place where `closer` stands, and what follows it. -/
def splitAt? (closer : List Char) : List Char → Option (List Char × List Char)
  | [] => none
  | c :: s =>
    if closer.isPrefixOf (c :: s) then some ([], (c :: s).drop closer.length)
    else (splitAt? closer s).map fun p => (c :: p.1, p.2)

/-- Reads a literal string after its opening quotes, up to `closer`. -/
def readLiteral (closer : String) (forbidden : Char → Bool) (s : List Char) :
    Except Fault (List Char × List Char) :=
  match splitAt? closer.toList s with
  | none => .error ⟨.unclosedLiteral closer, 0⟩
  | some (v, r) => do
    checkOutside forbidden v (closer.toList ++ r)
    return (v, r)

/-! ### Basic strings -/

def isScalarValue (n : Nat) : Bool := n < 0xD800 || (0xE000 ≤ n && n ≤ 0x10FFFF)

/-- The character with the code that `width` hexadecimal digits give, and what follows them. -/
def readCode (width : Nat) (s : List Char) : Except Fault (List Char × List Char) :=
  let ds := s.take width
  let r := s.drop width
  if ds.length = width ∧ ds.all Text.isHexDigit then
    let n := Decimal.ofDigits 16 ds
    if isScalarValue n then .ok ([Char.ofNat n], r) else .error ⟨.noScalarValue, r.length⟩
  else .error ⟨.hexDigitsExpected, s.length⟩

/-- What a single character after a backslash stands for. -/
def escaped? : Char → Option Char
  | 'b' => some '\x08'
  | 't' => some '\t'
  | 'n' => some '\n'
  | 'f' => some '\x0c'
  | 'r' => some '\r'
  | '"' => some '"'
  | '\\' => some '\\'
  | _ => none

/-- Reads an escape after its backslash. In a string of several lines, a backslash at the end of a
line joins it with what follows the next gap. -/
def readEscape (inLines : Bool) : List Char → Except Fault (List Char × List Char)
  | [] => .error ⟨.strayBackslash, 0⟩
  | c :: r =>
    if inLines && c == '\n' then .ok ([], r.dropWhile isGapOrNewline)
    else if inLines && isGap c then
      match skipGap r with
      | [] => .ok ([], [])
      | '\n' :: r => .ok ([], r.dropWhile isGapOrNewline)
      | r => .error ⟨.strayBackslash, r.length⟩
    else if c = 'u' then readCode 4 r
    else if c = 'U' then readCode 8 r
    else match escaped? c with
      | some e => .ok ([e], r)
      | none => .error ⟨.strayBackslash, r.length⟩

/-- Reads a basic string after its opening quotes. -/
def readBasic (inLines : Bool) (s : List Char) : Except Fault (List Char × List Char) :=
  match s with
  | [] => .error ⟨.unclosedString, 0⟩
  | '"' :: r =>
    if !inLines then .ok ([], r)
    else if ['"', '"'].isPrefixOf r then .ok ([], r.drop 2)
    else do
      let (v, rest) ← readBasic inLines r
      return ('"' :: v, rest)
  | '\\' :: r => do
    let (e, r') ← readEscape inLines r
    let (v, rest) ← readBasic inLines (r.drop (r.length - r'.length))
    return (e ++ v, rest)
  | c :: r =>
    if isControl c && !(inLines && c == '\n') then .error ⟨.controlInString c, r.length + 1⟩
    else do
      let (v, rest) ← readBasic inLines r
      return (c :: v, rest)
termination_by s.length
decreasing_by all_goals (simp; try omega)

/-- One or two quotes before the closing ones belong to a string of several lines. -/
def withQuotes (quote : Char) (v r : List Char) : List Char × List Char :=
  let extra := ((r.take 2).takeWhile (· == quote))
  (v ++ extra, r.drop extra.length)

/-- A line feed at the front of a string of several lines does not count. -/
def withoutNewline : List Char → List Char
  | '\n' :: r => r
  | r => r

/-- Reads a string of any kind; none if no quote begins it. -/
def readString? (s : List Char) : Option (Except Fault (List Char × List Char)) :=
  match s with
  | '"' :: '"' :: '"' :: r => some do
    let (v, r) ← readBasic true (withoutNewline r)
    return withQuotes '"' v r
  | '"' :: r => some (readBasic false r)
  | '\'' :: '\'' :: '\'' :: r => some do
    let (v, r) ← readLiteral "'''" isControlInLines (withoutNewline r)
    return withQuotes '\'' v r
  | '\'' :: r => some (readLiteral "'" isControl r)
  | _ => none

/-! ### Keys -/

def isBareKeyChar (c : Char) : Bool :=
  Text.isAsciiLetter c || Text.isAsciiDigit c || c == '-' || c == '_'

def startsKey (c : Char) : Bool := isBareKeyChar c || c == '"' || c == '\''

/-- Reads one name of a key, which is bare or a string on one line. -/
def readName (s : List Char) : Except Fault (Read String s) :=
  match s with
  | [] => .error ⟨.keyExpected, 0⟩
  | c :: r =>
    let name (v : List Char × List Char) : Read String (c :: r) :=
      .upTo (String.ofList v.1) c r v.2
    if isBareKeyChar c then
      .ok (name (c :: r.takeWhile isBareKeyChar, r.dropWhile isBareKeyChar))
    else if c = '\'' then name <$> readLiteral "'" isControl r
    else if c = '"' then name <$> readBasic false r
    else .error ⟨.keyExpected, r.length + 1⟩

/-- Reads a key of one or more names, and the gap after it. -/
def readKey (s : List Char) : Except Fault (Read Key s) := do
  let name ← readName s
  match h : skipGap name.rest with
  | '.' :: r => do
    have dot : Tail r s :=
      .suffix_trans (.one '.' r) (h ▸ (skipGap_suffix _).trans name.tail.suffix)
    have tail := tail_skipGap dot
    have := tail.length_lt
    let key ← readKey (skipGap r)
    return (key.map (name.value :: ·)).after tail
  | r => return ⟨[name.value], r, h ▸ .trans_suffix (skipGap_suffix _) name.tail⟩
termination_by s.length

/-! ### Comments -/

/-- What follows a comment, if there is one. -/
def skipComment (s : List Char) : Except Fault (List Char) :=
  match s with
  | '#' :: r => do
    let rest := r.dropWhile (· != '\n')
    checkOutside isControl (r.takeWhile (· != '\n')) rest
    return rest
  | s => .ok s

/-- What follows gaps, line feeds and comments. -/
def skipLines (s : List Char) : Except Fault (List Char) :=
  match s with
  | [] => .ok []
  | c :: r =>
    if isGapOrNewline c then skipLines r
    else if c = '#' then do
      let rest := r.dropWhile (· != '\n')
      checkOutside isControl (r.takeWhile (· != '\n')) rest
      have := (List.dropWhile_suffix (l := r) (· != '\n')).length_le
      skipLines rest
    else .ok (c :: r)
termination_by s.length
decreasing_by all_goals (simp; try omega)

end DesignTokens.Toml
