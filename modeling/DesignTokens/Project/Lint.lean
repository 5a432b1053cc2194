import DesignTokens.File.Workspace
import DesignTokens.Lint.Source
import DesignTokens.Path.Glob

/-! # Linting the files of a project

Files that are listed are linted; of the files below a listed directory those whose paths from
there match a pattern of the included ones and none of the excluded ones. A file that cannot be
read is skipped. -/

namespace DesignTokens.Project
open Lint

/-- What a run passes over. -/
inductive Warning
  | missing (p : Path)
  | unreadable (p : Path) (f : TextFault)
  deriving DecidableEq, Repr

def Warning.message : Warning → String
  | missing p => "Path does not exist: " ++ p.text
  | unreadable p f => "Could not read " ++ p.text ++ ": " ++ f.message

/-! ### Discovery -/

/-- A file at a path from a listed directory is linted. -/
def isSelected (config : Config) (relative : String) : Bool :=
  !Path.matchesAny relative config.excluded && Path.matchesAny relative config.included

/-- The files that a listed path stands for, unless there is nothing at it. -/
def expand? (w : Workspace) (config : Config) (p : Path) : Option (List Path) :=
  if w.isFile p then some [p]
  else if w.isDirectory p then
    some ((w.filesBelow p).filter fun f =>
      isSelected config ("/".intercalate (f.names.drop p.names.length)))
  else none

/-- The files that the listed paths stand for, each where it is met first. -/
def discover (w : Workspace) (config : Config) (paths : List Path) : List Path :=
  (paths.flatMap fun p => (expand? w config p).getD []).eraseDups

/-- The listed paths at which there is nothing. -/
def missing (w : Workspace) (config : Config) (paths : List Path) : List Path :=
  paths.filter fun p => (expand? w config p).isNone

/-! ### Linting -/

inductive FileFault
  | unreadable (f : TextFault)
  | lint (f : LintFault)

def lintFileWith (w : Workspace) (rules : List ResolvedRule) (p : Path) :
    Except FileFault (List Diagnostic) := do
  let source ← (w.readText p).mapError .unreadable
  (lintSource source (Path.normalize p.text) rules).mapError .lint

/-- The diagnostics of a file. It is read before the rules are resolved. -/
def lintFile (w : Workspace) (config : Config) (p : Path) :
    Except FileFault (List Diagnostic) := do
  let _ ← (w.readText p).mapError .unreadable
  lintFileWith w (← config.resolve.mapError (.lint ∘ .config)) p

/-- What was found in a number of files. -/
structure Report where
  diagnostics : List Diagnostic
  checked : Nat
  skipped : List Path
  warnings : List Warning

namespace Report

def empty : Report := ⟨[], 0, [], []⟩

/-- The report with the diagnostics of one more file. -/
def add (r : Report) (ds : List Diagnostic) : Report :=
  { r with diagnostics := r.diagnostics ++ ds, checked := r.checked + 1 }

/-- The report with one more file that is skipped. -/
def skip (r : Report) (p : Path) (f : TextFault) : Report :=
  { r with skipped := r.skipped ++ [p], warnings := r.warnings ++ [.unreadable p f] }

def errors (r : Report) : Nat := Diagnostic.count .error r.diagnostics

def warns (r : Report) : Nat := Diagnostic.count .warn r.diagnostics

end Report

/-- Why a run ends early, and what it passed over until then. -/
structure RunFault where
  cause : LintFault
  warnings : List Warning

/-- Lints one more file. -/
def lintNext (w : Workspace) (rules : List ResolvedRule) (r : Report) (p : Path) :
    Except RunFault Report :=
  match lintFileWith w rules p with
  | .ok ds => .ok (r.add ds)
  | .error (.unreadable f) => .ok (r.skip p f)
  | .error (.lint f) => .error ⟨f, r.warnings⟩

/-- Lints the files that the listed paths stand for. The diagnostics are in order of place. -/
def lintPaths (w : Workspace) (config : Config) (paths : List Path) : Except RunFault Report := do
  let rules ← config.resolve.mapError fun f => ⟨.config f, []⟩
  let start := { Report.empty with warnings := (missing w config paths).map .missing }
  let r ← (discover w config paths).foldlM (lintNext w rules) start
  return { r with diagnostics := Diagnostic.sort r.diagnostics }

end DesignTokens.Project
