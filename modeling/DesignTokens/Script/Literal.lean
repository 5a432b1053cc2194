import DesignTokens.Text.Quoted
import DesignTokens.Text.Reading
import DesignTokens.Text.Search

/-! # Quoted strings, template literals and bracketed text

The three parts of a script that nest in each other: a template literal holds interpolations in
braces, and bracketed text holds strings, templates and comments, in which brackets do not count.
A template's shape says that it has one more piece of static text than interpolations. -/

namespace DesignTokens.Script

/-- Why a text is no sequence of tokens. -/
inductive LexCause
  | unterminatedComment
  | unterminatedEscape
  | unterminatedString
  | unterminatedTemplate
  | unterminatedBracket
  | mismatched (closer : Char)
  | unexpected (c : Char)
  deriving DecidableEq, Repr

def LexCause.message : LexCause → String
  | unterminatedComment => "Unterminated comment"
  | unterminatedEscape => "Unterminated escape sequence"
  | unterminatedString => "Unterminated string literal"
  | unterminatedTemplate => "Unterminated template literal"
  | unterminatedBracket => "Unterminated bracket"
  | mismatched c => "Mismatched " ++ Text.quoted (String.singleton c)
  | unexpected c => "Unexpected character: " ++ Text.quoted (String.singleton c)

/-- A lexical fault where `left` characters of the text are left. -/
structure LexFault where
  cause : LexCause
  left : Nat
  deriving DecidableEq, Repr

/-- What the character after a backslash stands for. -/
def unescape : Char → Char
  | 'n' => '\n'
  | 't' => '\t'
  | 'r' => '\r'
  | 'b' => '\x08'
  | 'f' => '\x0c'
  | 'v' => '\x0b'
  | '0' => '\x00'
  | c => c

/-- Reads a string literal after its opening quote, at which `left` characters were left. A
backslash before a line break joins two lines. -/
def readStringBody (quote : Char) (left : Nat) :
    (s : List Char) → Except LexFault (Read (List Char) s)
  | [] => .error ⟨.unterminatedString, left⟩
  | ['\\'] => .error ⟨.unterminatedEscape, 1⟩
  | '\\' :: c :: r => do
    let v ← readStringBody quote left r
    let value := if c = '\n' then v.value else unescape c :: v.value
    return ⟨value, v.rest, (v.tail.trans (.one c r)).trans (.one _ _)⟩
  | c :: r =>
    if c = quote then .ok ⟨[], r, .one c r⟩
    else if c = '\n' then .error ⟨.unterminatedString, left⟩
    else do
      let v ← readStringBody quote left r
      return ⟨c :: v.value, v.rest, v.tail.trans (.one c r)⟩

/-- Reads a string literal that opens with `quote` before `r`; gives its value. -/
def readString (quote : Char) (r : List Char) : Except LexFault (Read (List Char) r) :=
  readStringBody quote (r.length + 1) r

/-- What follows the line that the text begins with. -/
def afterLine (s : List Char) : List Char := (s.dropWhile (· != '\n')).drop 1

theorem afterLine_suffix (s : List Char) : afterLine s <:+ s :=
  (List.drop_suffix 1 _).trans (List.dropWhile_suffix _)

theorem tail_afterLine (r : List Char) : Tail (afterLine r) ('/' :: '/' :: r) :=
  .cons '/' ((afterLine_suffix r).trans (List.suffix_cons '/' r))

/-- What follows the end of the block comment that the text lies in. -/
def afterBlock? : List Char → Option (List Char)
  | '*' :: '/' :: r => some r
  | _ :: r => afterBlock? r
  | [] => none

theorem tail_of_afterBlock? {s r : List Char} (h : afterBlock? s = some r) : Tail r s := by
  fun_induction afterBlock? s with
  | case1 r' => cases h; exact (Tail.one _ _).trans (.one _ _)
  | case2 c r' _ ih => exact (ih h).trans (.one _ _)
  | case3 => cases h

theorem tail_afterBlock {s r : List Char} (h : afterBlock? s = some r) :
    Tail r ('/' :: '*' :: s) :=
  (tail_of_afterBlock? h).trans ((Tail.one '*' s).trans (.one '/' _))

/-- The static text and the interpolations of a template literal, both as written. -/
structure Template where
  first : List Char
  /-- Each interpolation with the static text after it. -/
  parts : List (List Char × List Char)
  deriving DecidableEq, Repr

namespace Template

/-- The pieces of static text. -/
def quasis (t : Template) : List (List Char) := t.first :: t.parts.map (·.2)

def interpolations (t : Template) : List (List Char) := t.parts.map (·.1)

/-- The template with more static text in front. -/
def prepend (s : List Char) (t : Template) : Template := { t with first := s ++ t.first }

end Template

/-- The bracket that closes an opening bracket. -/
def closer? : Char → Option Char
  | '{' => some '}'
  | '(' => some ')'
  | '[' => some ']'
  | _ => none

mutual

/-- Reads a template literal after its opening backtick, at which `left` characters were left. -/
def readTemplate (left : Nat) (s : List Char) : Except LexFault (Read Template s) :=
  match s with
  | [] | ['\\'] => .error ⟨.unterminatedTemplate, left⟩
  | '\\' :: c :: r => do
    let t ← readTemplate left r
    return (t.map (.prepend ['\\', c])).after ((Tail.one c r).trans (.one _ _))
  | '`' :: r => .ok ⟨⟨[], []⟩, r, .one _ r⟩
  | '$' :: '{' :: r => do
    let inner ← readBracketed (r.length + 1) '}' [] r
    have tail := inner.tail.trans ((Tail.one '{' r).trans (.one '$' _))
    have : inner.rest.length < r.length + 1 + 1 := tail.length_lt
    let t ← readTemplate left inner.rest
    return (t.map fun t => ⟨[], (inner.value, t.first) :: t.parts⟩).after tail
  | c :: r => do
    let t ← readTemplate left r
    return (t.map (.prepend [c])).after (.one c r)
termination_by s.length

/-- Reads up to the bracket that closes the outermost one; gives the text before it. `closer` is
the bracket expected next and `outer` are those expected after it. Where the outermost bracket
opened, `left` characters were left. -/
def readBracketed (left : Nat) (closer : Char) (outer : List Char) (s : List Char) :
    Except LexFault (Read (List Char) s) :=
  match s with
  | [] => .error ⟨.unterminatedBracket, left⟩
  | '/' :: '/' :: r => do
    have tail := tail_afterLine r
    have : (afterLine r).length < r.length + 1 + 1 := tail.length_lt
    let b ← readBracketed left closer outer (afterLine r)
    return b.including tail
  | '/' :: '*' :: r => do
    match h : afterBlock? r with
    | none => .error ⟨.unterminatedBracket, left⟩
    | some r' =>
      have tail := tail_afterBlock h
      have : r'.length < r.length + 1 + 1 := tail.length_lt
      let b ← readBracketed left closer outer r'
      return b.including tail
  | '`' :: r => do
    let t ← readTemplate (r.length + 1) r
    have tail := t.tail.trans (.one '`' r)
    have : t.rest.length < r.length + 1 := tail.length_lt
    let b ← readBracketed left closer outer t.rest
    return b.including tail
  | c :: r =>
    if c = '"' ∨ c = '\'' then do
      let v ← readString c r
      have tail := v.tail.trans (.one c r)
      have : v.rest.length < r.length + 1 := tail.length_lt
      let b ← readBracketed left closer outer v.rest
      return b.including tail
    else match closer? c with
    | some d => do
      let b ← readBracketed left d (closer :: outer) r
      return b.including (.one c r)
    | none =>
      if c = ')' ∨ c = ']' ∨ c = '}' then
        if c ≠ closer then .error ⟨.mismatched c, r.length + 1⟩
        else match outer with
        | [] => .ok ⟨[], r, .one c r⟩
        | next :: outer => do
          let b ← readBracketed left next outer r
          return b.including (.one c r)
      else do
        let b ← readBracketed left closer outer r
        return b.including (.one c r)
termination_by s.length

end

/-- The text between the bracket that `s` begins with and the one that closes it; none if `s`
begins with no opening bracket. -/
def bracketed? (s : List Char) : Option (Except LexFault (Read (List Char) s)) :=
  match s with
  | [] => none
  | c :: r => (closer? c).map fun closer =>
    (readBracketed (r.length + 1) closer [] r).map (·.after (.one c r))

end DesignTokens.Script
