/-! # Lines and columns

A place in a text is an offset, or a line and a column, both counted from one; only a line feed
ends a line. -/

namespace DesignTokens

structure Location where
  line : Nat
  column : Nat
  deriving DecidableEq, Repr

namespace Location

/-- The start of a text. -/
def start : Location := ⟨1, 1⟩

/-- The location of an offset; past the end of the text it lies in the last line. -/
def ofOffset (source : List Char) (offset : Nat) : Location :=
  let front := source.take offset
  let lineStart := front.length - (front.reverse.takeWhile (· != '\n')).length
  ⟨front.count '\n' + 1, offset - lineStart + 1⟩

/-- The line and the column, with a colon between them. -/
def text (l : Location) : String := s!"{l.line}:{l.column}"

end Location

end DesignTokens
