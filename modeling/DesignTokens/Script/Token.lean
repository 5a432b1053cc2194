import DesignTokens.Script.Literal
import DesignTokens.Text.Blank
import DesignTokens.Text.Letter

/-! # Tokens of a script expression

Numbers and names are longest matches, operators are tried longest first, and blanks and comments
separate. A digit announces a number, but only decimal digits can write one: any other digit is a
fault of its own kind, which no later stage recovers from. -/

namespace DesignTokens.Script

inductive Lexeme
  | string (value : String)
  | template (text : String) (content : Template)
  | number (text : String)
  | ident (text : String)
  | punct (text : String)
  | eof
  deriving DecidableEq, Repr

/-- The value of a string, the text of anything else. -/
def Lexeme.text : Lexeme → String
  | string v => v
  | template s _ | number s | ident s | punct s => s
  | eof => ""

/-- A lexeme and the offset where it starts. -/
structure Token where
  lexeme : Lexeme
  pos : Nat
  deriving DecidableEq, Repr

/-- A digit stands where a number begins, but it is no decimal digit. -/
structure SymbolicDigit where
  digit : Char
  deriving DecidableEq, Repr

inductive TokenError
  | malformed (cause : LexCause) (pos : Nat)
  | symbolicDigit (d : SymbolicDigit)
  deriving DecidableEq, Repr

/-! ### Numbers -/

/-- The digits that a number may hold after a zero and this letter. -/
def radixDigit? : Char → Option (Char → Bool)
  | 'x' | 'X' => some fun c => Text.isHexDigit c || c == '_'
  | 'b' | 'B' => some fun c => c == '0' || c == '1' || c == '_'
  | 'o' | 'O' => some fun c => ('0' ≤ c && c ≤ '7') || c == '_'
  | _ => none

/-- The mark of a big integer, if the text begins with it. -/
def bigMark : List Char → List Char
  | 'n' :: _ => ['n']
  | _ => []

/-- A hexadecimal, binary or octal number at the front of the text. -/
def radixNumber? : List Char → Option (List Char)
  | '0' :: m :: r => do
    let isRadixDigit ← radixDigit? m
    let digits := r.takeWhile isRadixDigit
    if digits.isEmpty then none
    else some ('0' :: m :: digits ++ bigMark (r.drop digits.length))
  | _ => none

def isGroupedDigit (c : Char) : Bool := Text.isDecimalDigit c || c == '_'

/-- The digits of a decimal number at the front of the text, with its point. -/
def mantissa? : List Char → Option (List Char)
  | [] => none
  | c :: r =>
    if Text.isDecimalDigit c then
      let whole := c :: r.takeWhile isGroupedDigit
      match r.dropWhile isGroupedDigit with
      | '.' :: f => some (whole ++ '.' :: f.takeWhile isGroupedDigit)
      | _ => some whole
    else match c, r with
      | '.', d :: f =>
        if Text.isDecimalDigit d then some ('.' :: d :: f.takeWhile isGroupedDigit) else none
      | _, _ => none

/-- The exponent at the front of the text, if there is a whole one. -/
def exponent (s : List Char) : List Char :=
  match s with
  | [] => []
  | e :: r =>
    let (sign, r) := match r with
      | '+' :: r => (['+'], r)
      | '-' :: r => (['-'], r)
      | r => ([], r)
    let digits := r.takeWhile Text.isDecimalDigit
    if (e = 'e' ∨ e = 'E') ∧ digits ≠ [] then e :: sign ++ digits else []

def decimalNumber? (s : List Char) : Option (List Char) := do
  let m ← mantissa? s
  let r := s.drop m.length
  let e := exponent r
  some (m ++ e ++ bigMark (r.drop e.length))

/-- The longest number at the front of the text. -/
def number? (s : List Char) : Option (List Char) := radixNumber? s <|> decimalNumber? s

/-! ### Names and operators -/

/-- A character of the basic plane above ASCII, all of which may stand in names. -/
def isWide (c : Char) : Bool := 0x80 ≤ c.toNat && c.toNat ≤ 0xFFFF

def isIdentStart (c : Char) : Bool := Text.isAsciiLetter c || c == '_' || c == '$' || isWide c

def isIdentPart (c : Char) : Bool := Text.isWordChar c || c == '$' || isWide c

/-- The operators and brackets, longer ones before their beginnings. -/
def punctuators : List String := [
  ">>>=", "...", "===", "!==", "**=", "<<=", ">>=", ">>>", "&&=", "||=", "??=", "=>", "==", "!=",
  "<=", ">=", "&&", "||", "??", "?.", "++", "--", "+=", "-=", "*=", "/=", "%=", "&=", "|=", "^=",
  "**", "<<", ">>", "\x7b", "\x7d", "(", ")", "[", "]", ";", ",", "<", ">", "+", "-", "*", "/",
  "%", "&", "|", "^", "!", "~", "?", ":", "=", ".", "@", "#"]

/-- The punctuator may be read here: a question mark before a fraction stands alone. -/
def punctuatorFits (p : String) (s : List Char) : Bool :=
  p.toList.isPrefixOf s && !(p == "?." && (s.drop 2).head?.any Text.isDigit)

def punctuator? (s : List Char) : Option String := punctuators.find? (punctuatorFits · s)

/-! ### The token list -/

def startsNumber : List Char → Bool
  | [] => false
  | c :: r => Text.isDigit c || (c == '.' && r.head?.any Text.isDigit)

/-- The digit that makes `startsNumber` hold. -/
def announcedDigit : List Char → Char
  | '.' :: d :: _ => d
  | c :: _ => c
  | [] => '0'

/-- The tokens of the rest `s` of a text of length `size`. -/
def tokensFrom (size : Nat) (s : List Char) : Except TokenError (List Token) :=
  let fault (f : LexFault) : TokenError := .malformed f.cause (size - f.left)
  let token (l : Lexeme) : Token := ⟨l, size - s.length⟩
  match s with
  | [] => .ok [token .eof]
  | '/' :: '/' :: r =>
    have := (afterLine_suffix r).length_le
    tokensFrom size (afterLine r)
  | '/' :: '*' :: r =>
    match h : afterBlock? r with
    | none => .error (.malformed .unterminatedComment (size - s.length))
    | some r' =>
      have := (tail_of_afterBlock? h).length_lt
      tokensFrom size r'
  | '`' :: r => do
    let t ← (readTemplate (r.length + 1) r).mapError fault
    have := t.tail.length_lt
    let text := String.ofList (before s t.rest)
    return token (.template text t.value) :: (← tokensFrom size t.rest)
  | c :: r =>
    if Text.isBlank c then tokensFrom size r
    else if c = '"' ∨ c = '\'' then do
      let v ← (readString c r).mapError fault
      have := v.tail.length_lt
      return token (.string (String.ofList v.value)) :: (← tokensFrom size v.rest)
    else if startsNumber s then
      match number? s with
      | none => .error (.symbolicDigit ⟨announcedDigit s⟩)
      | some n => do
        return token (.number (String.ofList n)) :: (← tokensFrom size (r.drop (n.length - 1)))
    else if isIdentStart c then do
      let name := r.takeWhile isIdentPart
      return token (.ident (String.ofList (c :: name))) ::
        (← tokensFrom size (r.drop name.length))
    else match punctuator? s with
      | none => .error (.malformed (.unexpected c) (size - s.length))
      | some p => do
        return token (.punct p) :: (← tokensFrom size (r.drop (p.length - 1)))
termination_by s.length

/-- The tokens of a text, ended by the end of the text. -/
def tokenize (s : List Char) : Except TokenError (List Token) := tokensFrom s.length s

end DesignTokens.Script
