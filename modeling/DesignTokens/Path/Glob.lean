import DesignTokens.Path.Wildcard
import DesignTokens.Text.Blank
import DesignTokens.Text.Search

/-! # Path patterns

A pattern is matched segment by segment; `**` stands for any number of segments. A pattern that
begins with neither a slash nor `**` may begin at any directory of the path, since a path is often
given with more leading directories than the pattern knows. -/

namespace DesignTokens.Path

/-- The path with slashes for backslashes. -/
def normalize (path : String) : String := path.map fun c => if c = '\\' then '/' else c

def segments (path : List Char) : List (List Char) := Text.splitOn '/' path

/-- The segments of a path match those of a pattern. -/
def matchesSegments : List (List Char) → List (List Char) → Bool
  | [], path => path.isEmpty
  | p :: ps, path =>
    if p = ['*', '*'] then anySuffix (matchesSegments ps) path
    else match path with
      | [] => false
      | s :: ss => segmentMatches s p && matchesSegments ps ss

/-- The pattern with slashes for backslashes and without one leading `./`. -/
def canonicalPattern (pattern : String) : List Char :=
  match (normalize pattern).toList with
  | '.' :: '/' :: p => p
  | p => p

/-- The pattern says where a path begins. -/
def isAnchored (pattern : List Char) : Bool :=
  ['/'].isPrefixOf pattern || ['*', '*'].isPrefixOf pattern

def globMatches (path pattern : String) : Bool :=
  let p := canonicalPattern pattern
  let path := segments path.toList
  matchesSegments (segments p) path ||
    (!isAnchored p && anySuffix (matchesSegments (segments p)) path)

def matchesAny (path : String) (patterns : List String) : Bool := patterns.any (globMatches path)

/-! ### Exemption of files -/

/-- Names that stand for text that came from no file, in order. -/
def placeholders : List String := ["", "<input>", "<stdin>", "<text>"]

/-- The file is not known by a name. -/
def isUnknown (file : Option String) : Bool :=
  file.all fun f => placeholders.contains (String.ofList (Text.trim f.toList))

/-- The file is known by a name that some pattern matches. -/
def isExempt (file : Option String) (patterns : List String) : Bool :=
  match file with
  | none => false
  | some f => !isUnknown file && matchesAny (normalize f) patterns

end DesignTokens.Path
