import DesignTokens.Lint.Rule

/-! # Collecting reports

A reporter collects the diagnostics of one file in the order in which they are reported, from any
number of rules. -/

namespace DesignTokens.Lint

structure Reporter where
  file : String
  diagnostics : List Diagnostic

namespace Reporter

/-- A reporter that has nothing to show yet. -/
def new (file : String) : Reporter := ⟨file, []⟩

def add (r : Reporter) (ds : List Diagnostic) : Reporter :=
  { r with diagnostics := r.diagnostics ++ ds }

/-- What a rule reports on an element is added. -/
def check (r : Reporter) (rule : ActiveRule) (tag : String) (contexts : List Jsx.Context) :
    Reporter :=
  r.add (rule.check r.file tag contexts)

/-- Adds one message. -/
def report (r : Reporter) (rule messageId template : String) (severity : Severity)
    (location : Location) (data : List (String × Value)) : Reporter :=
  r.add [Lint.report r.file rule messageId template severity location data]

end Reporter

end DesignTokens.Lint
