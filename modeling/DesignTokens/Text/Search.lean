/-! # Finding and replacing text -/

namespace DesignTokens.Text

/-- The text `p` stands somewhere in the text. -/
def contains (p : List Char) : List Char → Bool
  | [] => p.isEmpty
  | c :: s => p.isPrefixOf (c :: s) || contains p s

/-- The text with each occurrence of the nonempty text `p`, taken from the left and without
overlaps, replaced by `q`. -/
def replaceAll (p q s : List Char) : List Char :=
  match s with
  | [] => []
  | c :: r =>
    if 0 < p.length ∧ p.isPrefixOf s then q ++ replaceAll p q (r.drop (p.length - 1))
    else c :: replaceAll p q r
termination_by s.length
decreasing_by all_goals (simp; try omega)

/-- The pieces between the places where `sep` stands; one more than there are such places. -/
def splitOn (sep : Char) : List Char → List (List Char)
  | [] => [[]]
  | c :: s =>
    if c = sep then [] :: splitOn sep s
    else match splitOn sep s with
      | [] => [[c]]
      | w :: ws => (c :: w) :: ws

/-- The pieces joined with `sep` between neighbours. -/
def joinWith (sep : List Char) (pieces : List (List Char)) : List Char :=
  (pieces.intersperse sep).flatten

/-- The text without the line feed at its end, if there is one. -/
def withoutFinalNewline (s : List Char) : List Char :=
  if s.getLast? = some '\n' then s.dropLast else s

end DesignTokens.Text
