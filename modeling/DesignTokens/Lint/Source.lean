import DesignTokens.Jsx.Scan
import DesignTokens.Lint.Config

/-! # Linting a text -/

namespace DesignTokens.Lint

/-- Why a text is not linted. -/
inductive LintFault
  | config (f : ConfigFault)
  | symbolicDigit (d : Script.SymbolicDigit)

/-- The attribute that holds class names. -/
def classAttribute : String := "className"

/-- The rules that are used on the file, in order. -/
def activateAll (file : Option String) (rules : List ResolvedRule) :
    Except ConfigFault (List ActiveRule) := do
  return (← rules.mapM fun r => r.rule.activate file r.options r.severity).filterMap id

def checkElement (active : List ActiveRule) (file : String) (source : List Char)
    (e : Jsx.Element) : List Diagnostic :=
  let contexts := e.contexts source classAttribute
  active.flatMap fun r => r.check file e.tag contexts

/-- The diagnostics of a text, in order of place. A text on which no rule is used is not read. -/
def lintSource (source : List Char) (file : String) (rules : List ResolvedRule) :
    Except LintFault (List Diagnostic) := do
  let active ← (activateAll (some file) rules).mapError .config
  if active.isEmpty then return []
  let elements ← (Jsx.scan source).mapError .symbolicDigit
  return Diagnostic.sort (elements.flatMap (checkElement active file source))

end DesignTokens.Lint
