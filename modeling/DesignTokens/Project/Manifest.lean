import DesignTokens.File.Workspace
import DesignTokens.Lint.Config
import DesignTokens.Project.ConfigError
import DesignTokens.Toml.Document

/-! # The manifest of a project

A project may have a manifest at its root that says which files are linted and how the rules are
set. -/

namespace DesignTokens.Project
open Lint

def manifestName : String := "brandplan.toml"

/-- Why a manifest cannot be used. A number that is too long to be read is no configuration error,
and neither is a file that cannot be read. -/
inductive ManifestFault
  | config (e : ConfigError)
  | unreadable (f : TextFault)
  | number (f : Decimal.NumberFault)
  deriving DecidableEq, Repr

def expected (what shape : String) : ConfigError := ⟨what ++ ": expected " ++ shape, none⟩

/-- The entry of a table, which must be a table; without it the table is empty. -/
def subtable (what : String) (es : Entries) (key : String) : Except ConfigError Entries :=
  match es.getText? key with
  | none => .ok []
  | some (.map es) => .ok es
  | some _ => .error (expected what "a table")

def asText? : Value → Option String
  | .text s => some s
  | _ => none

/-- The patterns under a key. -/
def readGlobs (es : Entries) (key : String) (default : List String) :
    Except ConfigError (List String) :=
  let fault := expected ("lint." ++ key) "a list of glob strings"
  match es.getText? key with
  | none => .ok default
  | some (.list xs) => (xs.mapM asText?).elim (.error fault) .ok
  | some _ => .error fault

/-- The setting of a rule: a severity alone, or a table of options with one. -/
def readRule (id : String) (v : Value) : Except ConfigError RuleConfig :=
  match v with
  | .text s => .ok ⟨.text s, []⟩
  | .map es =>
    .ok ⟨(Entries.getText? es "severity").getD RuleConfig.default.severity,
      Entries.eraseText es "severity"⟩
  | _ => .error (expected ("lint.rules." ++ id) "a table or a severity string")

def readManifest (data : Entries) : Except ConfigError Config := do
  let lint ← subtable "lint" data "lint"
  let rules ← subtable "lint.rules" lint "rules"
  let included ← readGlobs lint "include" defaultIncluded
  let excluded ← readGlobs lint "exclude" defaultExcluded
  let rules ← rules.mapM fun e => do return (e.1.shown, ← readRule e.1.shown e.2)
  return ⟨included, excluded, rules⟩

/-- A fault of a document as an error in the file that holds it. -/
def manifestFault (file : Path) (source : List Char) (f : Toml.Fault) : ManifestFault :=
  match f.cause with
  | .number f => .number f
  | _ => .config ⟨"Invalid TOML in " ++ file.text ++ ": " ++ f.message source, none⟩

/-- The configuration of the project at `root`, which is the default one without a manifest. -/
def loadManifest (w : Workspace) (root : Path) : Except ManifestFault Config := do
  let file := root.child manifestName
  if !w.doesExist file then return .default
  let source ← (w.readText file).mapError .unreadable
  match ← (Toml.read source).mapError (manifestFault file source) with
  | .map data => (readManifest data).mapError .config
  | _ => return .default

end DesignTokens.Project
