import DesignTokens.Text.Search

/-! # Paths

A path is a list of names below a root. Doubled and trailing slashes and single dots vanish when a
path is read; double dots stay. -/

namespace DesignTokens

structure Path where
  /-- Empty for a relative path. Exactly two slashes at the front are a root of their own. -/
  root : String
  names : List String
  deriving DecidableEq, Repr

namespace Path

/-- The slashes that a written path begins with, as a root. -/
def rootOf (s : List Char) : String :=
  match (s.takeWhile (· == '/')).length with
  | 0 => ""
  | 2 => "//"
  | _ => "/"

def ofString (s : String) : Path :=
  let names := (Text.splitOn '/' s.toList).map String.ofList
  ⟨rootOf s.toList, names.filter fun n => n ≠ "" ∧ n ≠ "."⟩

/-- The path written out; the empty relative path is a dot. -/
def text (p : Path) : String :=
  if p.root = "" ∧ p.names = [] then "." else p.root ++ "/".intercalate p.names

/-- The path from the current directory. -/
def here : Path := ⟨"", []⟩

def isAbsolute (p : Path) : Bool := p.root != ""

/-- The second path, read from the first one. -/
def join (p q : Path) : Path := if q.isAbsolute then q else ⟨p.root, p.names ++ q.names⟩

/-- The file or directory with a name in a directory. -/
def child (p : Path) (name : String) : Path := ⟨p.root, p.names ++ [name]⟩

def parent (p : Path) : Path := ⟨p.root, p.names.dropLast⟩

/-- Names are compared one after another, by their characters. -/
def le (p q : Path) : Bool := p.root < q.root || (p.root = q.root && !(q.names < p.names))

end Path

end DesignTokens
