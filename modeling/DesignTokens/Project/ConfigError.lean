import DesignTokens.Path.Basic

/-! # Errors in the files of a project -/

namespace DesignTokens.Project

/-- A place in a file. -/
structure FilePlace where
  file : Path
  line : Int
  column : Int
  deriving DecidableEq, Repr

def FilePlace.text (p : FilePlace) : String :=
  p.file.text ++ ":" ++ toString p.line ++ ":" ++ toString p.column

/-- A message about a file, perhaps with the place that it is about. -/
structure ConfigError where
  message : String
  place : Option FilePlace
  deriving DecidableEq, Repr

namespace ConfigError

/-- A place counts only if all its parts are given, with a line and a column other than zero. -/
def make (message : String) (file : Option Path) (line column : Option Int) : ConfigError :=
  match file, line, column with
  | some f, some l, some c => ⟨message, if l ≠ 0 ∧ c ≠ 0 then some ⟨f, l, c⟩ else none⟩
  | _, _, _ => ⟨message, none⟩

/-- The message, after its place on a line of its own. -/
def text (e : ConfigError) : String :=
  match e.place with
  | some p => p.text ++ "\n" ++ e.message
  | none => e.message

end ConfigError

end DesignTokens.Project
