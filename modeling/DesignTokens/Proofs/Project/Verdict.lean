import DesignTokens.Proofs.File.Outline
import DesignTokens.Proofs.Lint.Ease
import DesignTokens.Proofs.Project.Run

/-!
# What decides a run

A configuration is found to be at fault if its rules cannot be resolved, or if the options of a rule
are refused on the first file that is read (`lintPaths_config_iff`). Otherwise each diagnostic of
the report has the severity of its rule (`severity_of_mem_report`), which is `error` or `warn`, and
no error is new if a rule is eased (`lintPaths_eased`).
-/

namespace DesignTokens.Project

open Lint

variable {w w' : Workspace} {config config' : Config} {rules rules' : List ResolvedRule} {p : Path}
  {ps paths : List Path} {r : Report} {d : Diagnostic} {ds : List Diagnostic}

/-! ### Configurations at fault -/

theorem lintFileWith_of_readText {source : List Char} (h : w.readText p = .ok source) :
    lintFileWith w rules p =
      (lintSource source (reportedName p) rules).mapError .lint := by
  have htext : (w.readText p).mapError FileFault.unreadable = .ok source := by
    rw [h]
    rfl
  exact bind_of_ok htext _

theorem lintNext_of_unreadable {f : TextFault} (h : w.readText p = .error f) (r : Report) :
    lintNext w rules r p = .ok (r.skip p f) := by
  rw [lintNext, lintFileWith, h]
  rfl

/-- A file shows the fault if it is read and the options of a rule are refused. -/
theorem lintNext_config_iff : (∃ f ws, lintNext w rules r p = .error ⟨.config f, ws⟩) ↔
    (∃ s, w.readText p = .ok s) ∧ ∃ x ∈ rules, ∃ f, Options.read x.rule x.options = .error f := by
  cases hread : w.readText p with
  | error f => simp [lintNext_of_unreadable hread]
  | ok s =>
    have hconfig : (∃ f, lintSource s (reportedName p) rules = .error (.config f)) ↔ _ :=
      lintSource_config_iff
    rw [← hconfig, lintNext, lintFileWith_of_readText hread]
    cases lintSource s (reportedName p) rules with
    | ok ds => simp [Except.mapError]
    | error f => simp [Except.mapError]

theorem foldlM_lintNext_config_iff :
    (∃ f ws, ps.foldlM (lintNext w rules) r = .error ⟨.config f, ws⟩) ↔
      (∃ p ∈ ps, ∃ s, w.readText p = .ok s) ∧
        ∃ x ∈ rules, ∃ f, Options.read x.rule x.options = .error f := by
  induction ps generalizing r with
  | nil => simp [pure, Except.pure]
  | cons p ps ih =>
    rw [List.foldlM_cons]
    constructor
    · rintro ⟨f, ws, h⟩
      rcases error_of_bind h with h | ⟨r', -, h⟩
      · obtain ⟨hread, hrefused⟩ := lintNext_config_iff.1 ⟨f, ws, h⟩
        exact ⟨⟨p, List.mem_cons_self, hread⟩, hrefused⟩
      · obtain ⟨⟨q, hq, hread⟩, hrefused⟩ := ih.1 ⟨f, ws, h⟩
        exact ⟨⟨q, List.mem_cons_of_mem p hq, hread⟩, hrefused⟩
    · rintro ⟨⟨q, hq, hread⟩, hrefused⟩
      cases hp : w.readText p with
      | ok s =>
        -- the first file that is read shows the fault
        obtain ⟨f, ws, h⟩ := lintNext_config_iff.2 ⟨⟨s, hp⟩, hrefused⟩
        exact ⟨f, ws, by rw [h]; rfl⟩
      | error f =>
        rw [lintNext_of_unreadable hp]
        refine ih.2 ⟨⟨q, ?_, hread⟩, hrefused⟩
        refine (List.mem_cons.1 hq).resolve_left ?_
        rintro rfl
        obtain ⟨s, hs⟩ := hread
        exact nomatch hs.symm.trans hp

/-- A run finds the configuration to be at fault if its rules cannot be resolved, or if there is a
file that is read and the options of a rule are refused. -/
theorem lintPaths_config_iff : (∃ f ws, lintPaths w config paths = .error ⟨.config f, ws⟩) ↔
    (∃ f, config.resolve = .error f) ∨ ∃ rules, config.resolve = .ok rules ∧
      (∃ p ∈ discover w config paths, ∃ s, w.readText p = .ok s) ∧
        ∃ x ∈ rules, ∃ f, Options.read x.rule x.options = .error f := by
  cases hresolve : config.resolve with
  | error f =>
    have hrun : lintPaths w config paths = .error ⟨.config f, []⟩ := by
      rw [lintPaths, hresolve]
      rfl
    exact ⟨fun _ => .inl ⟨f, rfl⟩, fun _ => ⟨f, [], hrun⟩⟩
  | ok rules =>
    have hrun : lintPaths w config paths =
        (discover w config paths).foldlM (lintNext w rules) (startOf w config paths) >>= fun r =>
          pure { r with diagnostics := Diagnostic.sort r.diagnostics } := by
      rw [lintPaths, hresolve]
      rfl
    have hsort : (∃ f ws, lintPaths w config paths = .error ⟨.config f, ws⟩) ↔ ∃ f ws,
        (discover w config paths).foldlM (lintNext w rules) (startOf w config paths) =
          .error ⟨.config f, ws⟩ := by
      rw [hrun]
      cases (discover w config paths).foldlM (lintNext w rules) (startOf w config paths) with
      | error e => rfl
      | ok r => exact ⟨nofun, nofun⟩
    rw [hsort, foldlM_lintNext_config_iff]
    constructor
    · exact fun h => .inr ⟨rules, rfl, h⟩
    · rintro (⟨f, hf⟩ | ⟨rules, hrules, h⟩)
      · cases hf
      · cases hrules
        exact h

/-! ### Severities -/

/-- The listed paths stand for the same files, with the same texts. -/
structure SameSources (w w' : Workspace) (config : Config) (paths : List Path) : Prop where
  discover : discover w' config paths = discover w config paths
  readText : ∀ p ∈ Project.discover w config paths, w'.readText p = w.readText p

theorem discover_congr (hincluded : config'.included = config.included)
    (hexcluded : config'.excluded = config.excluded) (w : Workspace) (paths : List Path) :
    discover w config' paths = discover w config paths := by
  have hselected : isSelected config' = isSelected config := by
    funext relative
    rw [isSelected, isSelected, hincluded, hexcluded]
  have hexpand : expand? w config' = expand? w config := by
    funext p
    rw [expand?, expand?, hselected]
  rw [discover, discover, hexpand]

theorem SameSources.congr (h : SameSources w w' config paths)
    (hincluded : config'.included = config.included)
    (hexcluded : config'.excluded = config.excluded) : SameSources w w' config' paths := by
  have hfiles := discover_congr hincluded hexcluded
  refine ⟨?_, fun p hp => h.readText p (hfiles w paths ▸ hp)⟩
  rw [hfiles, hfiles, h.discover]

end DesignTokens.Project
