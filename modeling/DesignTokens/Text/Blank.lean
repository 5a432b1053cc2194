import DesignTokens.Text.Range

/-! # Blank characters and words

Blanks are the characters that separate words: the ASCII and Unicode spaces together with the line
and information separators, but neither the zero width space nor the byte order mark. -/

namespace DesignTokens.Text

/-- The ranges of blank characters. -/
def blanks : List (Nat × Nat) := [
  (0x09, 0x0D), (0x1C, 0x20), (0x85, 0x85), (0xA0, 0xA0), (0x1680, 0x1680), (0x2000, 0x200A),
  (0x2028, 0x2029), (0x202F, 0x202F), (0x205F, 0x205F), (0x3000, 0x3000)]

/-- A character that separates words. -/
def isBlank (c : Char) : Bool := inRanges blanks c

/-- The maximal runs of characters that are not blank, in order. -/
def words : List Char → List (List Char)
  | [] => []
  | c :: s =>
    match isBlank c, s.head?.all isBlank, words s with
    | true, _, ws => ws
    | false, false, w :: ws => (c :: w) :: ws
    | false, _, ws => [c] :: ws

/-- The text without its leading blanks. -/
def trimLeft (s : List Char) : List Char := s.dropWhile isBlank

/-- The text without its leading and trailing blanks. -/
def trim (s : List Char) : List Char := (trimLeft (trimLeft s).reverse).reverse

end DesignTokens.Text
