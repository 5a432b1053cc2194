import DesignTokens.Project.Lint
import DesignTokens.Project.Manifest
import DesignTokens.Project.PlanFile

/-! # Outcomes of commands -/

namespace DesignTokens.Cli
open Project

/-- What no command reports as an error of its own. -/
inductive Crash
  | unreadable (f : TextFault)
  | scalar (f : Yaml.ScalarFault)
  | number (f : Decimal.NumberFault)
  | notIterable (f : Lint.NotIterable)
  | symbolicDigit (d : Script.SymbolicDigit)

def Crash.message : Crash → String
  | unreadable f => f.message
  | scalar f => f.message
  | number f => f.message
  | notIterable f => "ignorePaths: no items in " ++ f.value.quoted
  | symbolicDigit _ => "a digit that is no decimal digit"

/-- What a command prints on both streams, and its exit status. -/
structure Outcome where
  status : Nat
  out : String
  err : String
  crash : Option Crash

namespace Outcome

def success (out err : String) : Outcome := ⟨0, out, err, none⟩

def failure (err : String) : Outcome := ⟨1, "", err, none⟩

/-- A crash after some text was printed. -/
def crashed (out err : String) (c : Crash) : Outcome := ⟨1, out, err, some c⟩

end Outcome

/-! ### Why there is no style sheet -/

inductive BuildTrouble
  /-- The plan is not valid. -/
  | invalid (e : PlanError)
  /-- The plan cannot be read, or the style sheet cannot be written. -/
  | failed (message : String)
  | crash (c : Crash)

/-- A file that cannot be read is an error unless its text is no UTF-8. -/
def troubleOfData : DataFault → BuildTrouble
  | .config e => .failed e.text
  | .unreadable (.file e) => .failed e.message
  | .unreadable f => .crash (.unreadable f)
  | .scalar f => .crash (.scalar f)

def troubleOfBuild : BuildFault → BuildTrouble
  | .plan (.data f) => troubleOfData f
  | .plan (.invalid (.key f)) => .crash (.number f)
  | .plan (.invalid e) => .invalid e
  | .file e => .failed e.message

def validationReport (e : PlanError) : String :=
  "\n✗ Validation error in " ++ planName ++ ":\n" ++ e.message ++ "\n"

end DesignTokens.Cli
