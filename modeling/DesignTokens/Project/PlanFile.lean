import DesignTokens.File.Workspace
import DesignTokens.Plan.Css
import DesignTokens.Plan.Define
import DesignTokens.Plan.Template
import DesignTokens.Project.ConfigError
import DesignTokens.Yaml.Document

/-! # The plan of a project

A project keeps its brand plan in a file at its root, and the style sheet of the plan where the
layout of the project wants it. -/

namespace DesignTokens.Project

def planName : String := "brandplan.yaml"

def cssName : String := "brandplan.css"

def planPath (root : Path) : Path := root.child planName

/-- The path of the style sheet: in the directory of the application or of the sources if there is
one, or else at the root. -/
def cssPath (w : Workspace) (root : Path) : Path :=
  if w.doesExist (root.child "app") then (root.child "app").child cssName
  else if w.doesExist (root.child "src") then (root.child "src").child cssName
  else root.child cssName

/-! ### Loading -/

/-- Why a project has no data for a plan. A scalar that its tag refuses is no configuration error,
and neither is a file that cannot be read. -/
inductive DataFault
  | config (e : ConfigError)
  | unreadable (f : TextFault)
  | scalar (f : Yaml.ScalarFault)
  deriving DecidableEq, Repr

inductive PlanFault
  | data (f : DataFault)
  | invalid (e : PlanError)
  deriving DecidableEq, Repr

def missingPlan (file : Path) : ConfigError :=
  ⟨"Config file not found: " ++ file.text ++ "\n\nRun \"brandplan init\" to create one.", none⟩

def emptyPlan (file : Path) : ConfigError :=
  ⟨"Config must define a brand plan: " ++ file.text ++ " is empty", none⟩

/-- A fault of a document as an error in the file that holds it. -/
def documentFault (file : Path) (f : Yaml.Fault) : DataFault :=
  match f with
  | .unprintable .. => .config ⟨"Invalid YAML in " ++ file.text ++ ": " ++ f.message, none⟩
  | .malformed (.scalar f) _ => .scalar f
  | .malformed cause l =>
    .config ⟨"Invalid YAML: " ++ cause.message, some ⟨file, l.line, l.column⟩⟩

/-- The document in the text of a file. -/
def readData (file : Path) (source : List Char) : Except DataFault Yaml.Document := do
  let d ← (Yaml.read source).mapError (documentFault file)
  if d.isEmpty then throw (.config (emptyPlan file)) else return d

/-- The data of a plan, of any shape. -/
def loadData (w : Workspace) (root : Path) : Except DataFault Yaml.Document := do
  let file := planPath root
  unless w.doesExist file do throw (.config (missingPlan file))
  readData file (← (w.readText file).mapError .unreadable)

/-- The plan of a project. Its data is read only as far down as plans go, since it may hold
itself. -/
def loadPlan (w : Workspace) (root : Path) : Except PlanFault Plan := do
  let data ← (loadData w root).mapError .data
  (Plan.define (data.front Plan.levels)).mapError .invalid

/-! ### Writing -/

/-- Writes the template of a plan and gives its path, unless there is a plan. -/
def writeTemplate (w : Workspace) (root : Path) : Except FileError (Option Path × Workspace) := do
  let file := planPath root
  if w.doesExist file then return (none, w)
  else return (some file, ← w.writeText file Plan.template)

/-- Writes the style sheet of a plan, and makes the directories for it. -/
def exportCss (w : Workspace) (p : Plan) (out : Path) : Except FileError Unit × Workspace :=
  match w.makeParent out with
  | (.error e, w) => (.error e, w)
  | (.ok (), w) =>
    match w.writeText out p.cssFile with
    | .error e => (.error e, w)
    | .ok w => (.ok (), w)

/-! ### Building -/

inductive BuildFault
  | plan (f : PlanFault)
  | file (e : FileError)
  deriving DecidableEq, Repr

/-- Writes the style sheet of the project's plan. -/
def build (w : Workspace) (root out : Path) : Except BuildFault Unit × Workspace :=
  match loadPlan w root with
  | .error f => (.error (.plan f), w)
  | .ok p =>
    let (done, w) := exportCss w p out
    (done.mapError .file, w)

end DesignTokens.Project
