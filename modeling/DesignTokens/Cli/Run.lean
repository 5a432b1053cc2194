import DesignTokens.Cli.Invocation
import DesignTokens.Cli.Outcome

/-! # Running commands

A command prints its outcome and may change the workspace: the commands that make files do, linting
does not. -/

namespace DesignTokens.Cli
open Project Lint

/-- The version of the program. -/
def version : String := "0.1.0"

def versionText : String := "BrandPlan version " ++ version ++ "\n"

def helpText : String :=
  "Usage: brandplan [--version] [--verbose] COMMAND [ARGS]...\n\n" ++
  "  BrandPlan - scaffold, build and lint brand token CSS\n\n" ++
  "Commands:\n" ++
  "  init   [--path DIR]                Initialize BrandPlan in a project.\n" ++
  "  build  [--path DIR] [--out FILE]   Generate CSS from brandplan.yaml.\n" ++
  "  lint   [--ignore-path GLOB] [--allow-section] [--format human|json] [PATH]...\n" ++
  "                                     Lint className attributes.\n"

/-- The absolute path of the project; none is given for the current directory. -/
def projectRoot (w : Workspace) (path : Option String) : Path :=
  w.resolve (Path.ofString (path.getD ""))

/-! ### Making files -/

def nextSteps : String :=
  "\nNext steps:\n\n" ++
  "1. Import the generated CSS in your app layout (app/layout.tsx):\n" ++
  "   import './brandplan.css';\n\n" ++
  "2. Use brand utilities in markup:\n" ++
  "   <div className=\"p-brand-4 bg-brand-surface-1 rounded-brand-md\" />\n\n" ++
  "3. Lint class names:\n" ++
  "   brandplan lint src\n\n" ++
  "4. Rebuild CSS after token changes:\n" ++
  "   brandplan build\n\n"

def generated (out : Path) : String := "✓ Generated " ++ out.text ++ "\n"

/-- What is said about the plan: it was made, or it was there. -/
def planReport (root : Path) (written : Option Path) : String :=
  match written with
  | none => "⚠ " ++ (planPath root).text ++ " already exists, skipping...\n"
  | some p => "✓ Created " ++ p.text ++ "\n"

/-- The outcome after the plan was reported. A style sheet that cannot be made is no failure. -/
def initOutcome (report : String) (out : Path) : Except BuildFault Unit → Outcome
  | .ok () => .success (report ++ generated out ++ nextSteps) ""
  | .error f =>
    match troubleOfBuild f with
    | .invalid e =>
      .success (report ++ "\nFix the tokens and run 'brandplan build'.\n" ++ nextSteps)
        (validationReport e)
    | .failed message =>
      .success (report ++ "\nRun 'brandplan build' once the config is fixed.\n" ++ nextSteps)
        ("Failed to generate initial CSS: " ++ message ++ "\n")
    | .crash c => .crashed report "" c

/-- Writes the template of a plan, unless there is a plan, and then the style sheet. -/
def init (w : Workspace) (path : Option String) : Outcome × Workspace :=
  let root := projectRoot w path
  match writeTemplate w root with
  | .error e => (.failure ("\n✗ Failed to initialize:\n" ++ e.message ++ "\n"), w)
  | .ok (written, w) =>
    let out := cssPath w root
    let (done, w) := Project.build w root out
    (initOutcome (planReport root written) out done, w)

def buildOutcome (out : Path) : Except BuildFault Unit → Outcome
  | .ok () => .success (generated out) ""
  | .error f =>
    match troubleOfBuild f with
    | .invalid e => .failure (validationReport e)
    | .failed message => .failure ("\n✗ Failed to build:\n" ++ message ++ "\n")
    | .crash c => .crashed "" "" c

/-- Writes the style sheet. -/
def build (w : Workspace) (path : Option String) (out : Option Path) : Outcome × Workspace :=
  let root := projectRoot w path
  let out := out.getD (cssPath w root)
  let (done, w) := Project.build w root out
  (buildOutcome out done, w)

/-! ### Linting -/

/-- A number of things of one kind. -/
def plural (n : Nat) (word : String) : String :=
  toString n ++ " " ++ word ++ if n = 1 then "" else "s"

def warningLines (ws : List Warning) : String :=
  String.join (ws.map fun m => m.message ++ "\n")

/-- The line that sums up a report. -/
def summary (r : Report) : String :=
  if r.diagnostics.isEmpty then "✓ No problems found in " ++ plural r.checked "file" ++ "\n"
  else
    "✗ " ++ plural r.diagnostics.length "problem" ++ " (" ++ plural r.errors "error" ++ ", " ++
      plural r.warns "warning" ++ ")\n"

/-- The diagnostics in a format; records alone are printed even if there are none. -/
def printed (format : Format) (ds : List Diagnostic) : String :=
  match format with
  | .json => Diagnostic.formatJson ds ++ "\n"
  | .human => if ds.isEmpty then "" else Diagnostic.formatHuman ds ++ "\n"

/-- A run fails if an error was found. -/
def reportOutcome (format : Format) (r : Report) : Outcome :=
  let summed := match format with
    | .json => ""
    | .human => summary r
  ⟨if r.errors = 0 then 0 else 1, printed format r.diagnostics, warningLines r.warnings ++ summed,
    none⟩

def errorLine (message : String) : String := "Error: " ++ message ++ "\n"

/-- Lints files as the manifest in the current directory and the options say. -/
def lint (w : Workspace) (paths : List Path) (ignored : List String) (allowSection : Bool)
    (format : Format) : Outcome :=
  match loadManifest w w.location with
  | .error (.config e) => .failure (errorLine e.text)
  | .error (.unreadable f) => .crashed "" "" (.unreadable f)
  | .error (.number f) => .crashed "" "" (.number f)
  | .ok config =>
    match config.override ignored allowSection with
    | .error f => .crashed "" "" (.notIterable f)
    | .ok config =>
      match lintPaths w config (if paths.isEmpty then [Path.here] else paths) with
      | .error ⟨.config f, ws⟩ => .failure (warningLines ws ++ errorLine f.message)
      | .error ⟨.symbolicDigit d, ws⟩ => .crashed "" (warningLines ws) (.symbolicDigit d)
      | .ok r => reportOutcome format r

/-! ### Commands -/

def run (w : Workspace) (c : Command) : Outcome × Workspace :=
  match c with
  | .help => (.success helpText "", w)
  | .version => (.success versionText "", w)
  | .init path => init w path
  | .build path out => build w path out
  | .lint paths ignored allowSection format => (lint w paths ignored allowSection format, w)

end DesignTokens.Cli
