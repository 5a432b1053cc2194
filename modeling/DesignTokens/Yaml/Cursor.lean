import DesignTokens.Text.Location

/-! # Places in a YAML text

Lines end at line feeds, next-line characters and the line and paragraph separators; other line
ends have become line feeds before. A byte order mark takes no column. -/

namespace DesignTokens.Yaml

def isBreak (c : Char) : Bool := c == '\n' || c == '\x85' || c == '\u2028' || c == '\u2029'

def isGap (c : Char) : Bool := c == ' ' || c == '\t'

/-- The character ends a word, as the end of the text does. -/
def endsWord (c : Option Char) : Bool := c.all fun c => isGap c || isBreak c

/-- The character ends a word, and is not a tab. -/
def endsField (c : Option Char) : Bool := c.all fun c => c == ' ' || isBreak c

/-- The character ends a line, as the end of the text does. -/
def endsLine (c : Option Char) : Bool := c.all isBreak

/-- The text that a line end stands for: the separators stand for themselves. -/
def lineEnd (c : Char) : Char := if c = '\x85' then '\n' else c

def isNameChar (c : Char) : Bool :=
  ('a' ≤ c && c ≤ 'z') || ('A' ≤ c && c ≤ 'Z') || ('0' ≤ c && c ≤ '9') || c == '-' || c == '_'

/-- What is left of a text, and where it begins, counted from zero. -/
structure Cursor where
  rest : List Char
  line : Nat
  column : Nat

namespace Cursor

def start (s : List Char) : Cursor := ⟨s, 0, 0⟩

def location (c : Cursor) : Location := ⟨c.line + 1, c.column + 1⟩

/-- The cursor after one character. -/
def next (c : Cursor) : Cursor :=
  match c.rest with
  | [] => c
  | x :: r =>
    if isBreak x then ⟨r, c.line + 1, 0⟩
    else if x = '\ufeff' then ⟨r, c.line, c.column⟩
    else ⟨r, c.line, c.column + 1⟩

/-- The cursor after `n` characters. -/
def skip (c : Cursor) : Nat → Cursor
  | 0 => c
  | n + 1 => c.next.skip n

@[simp] theorem next_rest (c : Cursor) : c.next.rest = c.rest.drop 1 := by
  unfold next; split <;> (try split) <;> (try split) <;> simp_all

@[simp] theorem skip_rest (c : Cursor) (n : Nat) : (c.skip n).rest = c.rest.drop n := by
  induction n generalizing c with
  | zero => rfl
  | succ n ih => simp [skip, ih]

/-- The cursor where `left` characters are left. -/
def seek (c : Cursor) (left : Nat) : Cursor := c.skip (c.rest.length - left)

end Cursor

/-- A separator of documents, three dashes or dots as a word, stands at the front. -/
def startsSeparator (s : List Char) (mark : Char) : Bool :=
  s.take 3 == [mark, mark, mark] && endsWord (s.drop 3).head?

def startsAnySeparator (s : List Char) : Bool := startsSeparator s '-' || startsSeparator s '.'

end DesignTokens.Yaml
