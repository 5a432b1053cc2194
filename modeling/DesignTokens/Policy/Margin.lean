import DesignTokens.Policy.Verdict
import DesignTokens.Text.Blank
import DesignTokens.Text.Letter

/-! # The margin policy: brand margins on landmarks only

Components space themselves with gaps and padding; outer margins are reserved for the elements
that structure a page. An element is judged once, however many margins it carries. -/

namespace DesignTokens.Policy.Margin

def landmarkTags : List String := ["main", "header", "footer"]

def sectionTag : String := "section"

/-- The utilities whose brand forms are margins. -/
def marginUtilities : List String := ["m", "mx", "my", "mt", "mr", "mb", "ml"]

/-- The reason of a violation. -/
def marginOnNonSemanticElement : String := "marginOnNonSemanticElement"

/-- The tags that may carry brand margins. -/
def allowedTags (allowSection : Bool) : List String :=
  if allowSection then landmarkTags ++ [sectionTag] else landmarkTags

/-- The brand margin at the front of the text: a margin utility, the brand marker, and at least
one more character, up to the next blank. -/
def margin? (s : List Char) : Option (List Char) :=
  let run := s.takeWhile (!Text.isBlank ·)
  let isMargin (u : String) : Bool :=
    let front := (u ++ "-brand-").toList
    front.isPrefixOf run && front.length < run.length
  if marginUtilities.any isMargin then some run else none

/-- The brand margins in a text, from the left. A margin begins where no word character stands
before it; `inWord` says that one does. -/
def marginsIn (inWord : Bool) (s : List Char) : List (List Char) :=
  match s with
  | [] => []
  | c :: r =>
    match if inWord then none else margin? (c :: r) with
    | none => marginsIn (Text.isWordChar c) r
    | some m => m :: marginsIn (m.getLast?.any Text.isWordChar) (r.drop (m.length - 1))
termination_by s.length

/-- The brand margins among class names. -/
def findMargins (classes : List String) : List String :=
  classes.flatMap fun c => (marginsIn false c.toList).map String.ofList

def classify (classes : List String) (tag : String) (allowSection : Bool) : Verdict :=
  if (allowedTags allowSection).contains tag then .compliant
  else if findMargins classes = [] then .compliant
  else .violation marginOnNonSemanticElement none

end DesignTokens.Policy.Margin
