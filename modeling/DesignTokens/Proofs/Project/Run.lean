import DesignTokens.Project.Lint
import DesignTokens.Proofs.Lint.Source

/-!
# Runs over many files

A step of a run adds what is found in one file to the report (`lintNext_eq_ok_iff`). So a run gives a
report exactly if each file is linted or cannot be read, and which report it is
(`lintPaths_eq_ok_iff`).
-/

namespace DesignTokens.Project

open Lint

variable {w w' : Workspace} {config : Config} {rules : List ResolvedRule} {p : Path}
  {ps paths : List Path} {r r' : Report} {d : Diagnostic} {ds : List Diagnostic}

/-! ### One file -/

/-- The name under which a file is reported. -/
def reportedName (p : Path) : String := Path.normalize p.text

/-- The diagnostics of a file; none if it is not linted. -/
def found (w : Workspace) (config : Config) (p : Path) : List Diagnostic :=
  (lintFile w config p).toOption.getD []

/-- The file is linted, or it cannot be read. -/
def Passes (w : Workspace) (config : Config) (p : Path) : Prop :=
  (∃ f, w.readText p = .error f) ∨ ∃ ds, lintFile w config p = .ok ds

theorem lintFile_of_readText {f : TextFault} (h : w.readText p = .error f) :
    lintFile w config p = .error (.unreadable f) := by
  unfold lintFile
  rw [h]
  rfl

theorem lintFile_eq (h : config.resolve = .ok rules) (p : Path) :
    lintFile w config p = lintFileWith w rules p := by
  cases hread : w.readText p with
  | error f =>
    rw [lintFile_of_readText hread, lintFileWith, hread]
    rfl
  | ok s =>
    have htext : (w.readText p).mapError FileFault.unreadable = .ok s := by
      rw [hread]
      rfl
    have hrules : config.resolve.mapError (FileFault.lint ∘ .config) = .ok rules := by
      rw [h]
      rfl
    exact (bind_of_ok htext _).trans (bind_of_ok hrules _)

theorem readText_of_unreadable {f : TextFault} (h : lintFile w config p = .error (.unreadable f)) :
    w.readText p = .error f := by
  cases hread : w.readText p with
  | error f' =>
    rw [lintFile_of_readText hread] at h
    cases h
    rfl
  | ok s =>
    unfold lintFile lintFileWith at h
    rw [hread] at h
    cases hrules : config.resolve with
    | error e =>
      rw [hrules] at h
      cases h
    | ok rules =>
      rw [hrules] at h
      obtain ⟨e, -, he⟩ := error_of_mapError h
      cases he

theorem found_eq (h : lintFile w config p = .ok ds) : found w config p = ds := by
  rw [found, h]
  rfl

theorem found_of_readText {f : TextFault} (h : w.readText p = .error f) :
    found w config p = [] := by
  rw [found, lintFile_of_readText h]
  rfl

/-- Of a workspace only the bytes of the file count. -/
theorem lintFile_congr (config : Config) (h : w'.readBytes p = w.readBytes p) :
    lintFile w' config p = lintFile w config p := by
  have htext : w'.readText p = w.readText p := by
    rw [Workspace.readText, Workspace.readText, h]
  unfold lintFile lintFileWith
  rw [htext]

theorem carried_of_lintSource {source : List Char} {file : String}
    (h : lintSource source file rules = .ok ds) (hd : d ∈ ds) :
    d.file = file ∧ ∃ r ∈ rules, d.rule = r.rule.id ∧ d.severity = r.severity := by
  cases hscan : Jsx.scan source with
  | ok es =>
    obtain ⟨hfile, hrule, -⟩ := (accounts_of_lintSource h hscan).carried d hd
    exact ⟨hfile, hrule⟩
  | error e =>
    rw [(exempts_of_lintSource h hscan).2] at hd
    cases hd

theorem lintSource_of_lintFile (h : lintFile w config p = .ok ds) :
    ∃ rules source, lintSource source (reportedName p) rules = .ok ds := by
  obtain ⟨-, -, h⟩ := ok_of_bind h
  obtain ⟨rules, -, h⟩ := ok_of_bind h
  obtain ⟨source, -, h⟩ := ok_of_bind h
  exact ⟨rules, source, ok_of_mapError h⟩

theorem found_cases (w : Workspace) (config : Config) (p : Path) :
    found w config p = [] ∨
      ∃ rules source, lintSource source (reportedName p) rules = .ok (found w config p) := by
  cases h : lintFile w config p with
  | error e =>
    left
    rw [found, h]
    rfl
  | ok ds =>
    rw [found_eq h]
    exact .inr (lintSource_of_lintFile h)

theorem found_pairwise (w : Workspace) (config : Config) (p : Path) :
    (found w config p).Pairwise fun a b => a.le b := by
  rcases found_cases w config p with h | ⟨rules, source, h⟩
  · rw [h]
    exact .nil
  · obtain ⟨active, -, ⟨-, hds⟩ | ⟨es, -, hds⟩⟩ := lintSource_cases h
    · rw [hds]
      exact .nil
    · rw [hds]
      exact Diagnostic.sort_pairwise _

theorem file_of_mem_found (hd : d ∈ found w config p) : d.file = reportedName p := by
  rcases found_cases w config p with h | ⟨rules, source, h⟩
  · rw [h] at hd
    cases hd
  · exact (carried_of_lintSource h hd).1

/-! ### A run -/

/-- What a run passes over because of the file. -/
def unreadable? (w : Workspace) (p : Path) : Option Warning :=
  match w.readText p with
  | .ok _ => none
  | .error f => some (.unreadable p f)

def isRead (w : Workspace) (p : Path) : Bool := (w.readText p).isOk

/-- The report with what is found in the files. -/
def Report.addAll (r : Report) (w : Workspace) (config : Config) (ps : List Path) : Report where
  diagnostics := r.diagnostics ++ ps.flatMap (found w config)
  checked := r.checked + ps.countP (isRead w)
  skipped := r.skipped ++ ps.filter (!isRead w ·)
  warnings := r.warnings ++ ps.filterMap (unreadable? w)

theorem Report.addAll_nil (r : Report) (w : Workspace) (config : Config) :
    r.addAll w config [] = r := by
  simp [addAll]

theorem Report.addAll_cons (r : Report) (w : Workspace) (config : Config) (p : Path)
    (ps : List Path) : r.addAll w config (p :: ps) = (r.addAll w config [p]).addAll w config ps := by
  simp only [addAll, ← List.singleton_append (l := ps), List.flatMap_append, List.countP_append,
    List.filter_append, List.filterMap_append, List.append_assoc, Nat.add_assoc]

theorem Report.addAll_of_unread {f : TextFault} (h : w.readText p = .error f) (r : Report) :
    r.addAll w config [p] = r.skip p f := by
  simp [addAll, skip, found_of_readText h, isRead, unreadable?, h, Except.isOk, Except.toBool]

theorem Report.addAll_of_linted {s : List Char} (hread : w.readText p = .ok s)
    (h : lintFile w config p = .ok ds) (r : Report) : r.addAll w config [p] = r.add ds := by
  simp [addAll, add, found_eq h, isRead, unreadable?, hread, Except.isOk, Except.toBool]

theorem lintNext_eq_ok_iff (h : config.resolve = .ok rules) :
    lintNext w rules r p = .ok r' ↔ Passes w config p ∧ r' = r.addAll w config [p] := by
  rw [lintNext, ← lintFile_eq h, Passes]
  cases hread : w.readText p with
  | error f =>
    rw [lintFile_of_readText hread, r.addAll_of_unread hread]
    simp [eq_comm]
  | ok s =>
    cases hlint : lintFile w config p with
    | ok ds =>
      rw [r.addAll_of_linted hread hlint]
      simp [eq_comm]
    | error e =>
      cases e with
      | lint f => simp
      | unreadable f =>
        rw [readText_of_unreadable hlint] at hread
        cases hread

theorem foldlM_lintNext_eq_ok_iff (h : config.resolve = .ok rules) :
    ps.foldlM (lintNext w rules) r = .ok r' ↔
      (∀ p ∈ ps, Passes w config p) ∧ r' = r.addAll w config ps := by
  induction ps generalizing r with
  | nil =>
    rw [List.foldlM_nil, r.addAll_nil]
    exact ⟨fun hrun => by cases hrun; exact ⟨nofun, rfl⟩, fun hrun => hrun.2 ▸ rfl⟩
  | cons p ps ih =>
    rw [List.foldlM_cons, List.forall_mem_cons, r.addAll_cons]
    constructor
    · intro hrun
      obtain ⟨r₁, hnext, hrest⟩ := ok_of_bind hrun
      obtain ⟨hp, rfl⟩ := (lintNext_eq_ok_iff h).1 hnext
      obtain ⟨hps, rfl⟩ := ih.1 hrest
      exact ⟨⟨hp, hps⟩, rfl⟩
    · rintro ⟨⟨hp, hps⟩, rfl⟩
      rw [(lintNext_eq_ok_iff h).2 ⟨hp, rfl⟩]
      exact ih.2 ⟨hps, rfl⟩

def startOf (w : Workspace) (config : Config) (paths : List Path) : Report :=
  { Report.empty with warnings := (missing w config paths).map .missing }

/-- The report on the files that the listed paths stand for. -/
def reportOf (w : Workspace) (config : Config) (paths : List Path) : Report :=
  let r := (startOf w config paths).addAll w config (discover w config paths)
  { r with diagnostics := Diagnostic.sort r.diagnostics }

/-- A run gives its report exactly if the configuration is accepted and each file is linted, unless
it cannot be read. -/
theorem lintPaths_eq_ok_iff : lintPaths w config paths = .ok r ↔
    (∃ rules, config.resolve = .ok rules) ∧ (∀ p ∈ discover w config paths, Passes w config p) ∧
      r = reportOf w config paths := by
  constructor
  · intro h
    obtain ⟨rules, hrules, h⟩ := ok_of_bind h
    obtain ⟨r', hrun, h⟩ := ok_of_bind h
    cases h
    have hrules := ok_of_mapError hrules
    obtain ⟨hpasses, rfl⟩ := (foldlM_lintNext_eq_ok_iff hrules).1 hrun
    exact ⟨⟨rules, hrules⟩, hpasses, rfl⟩
  · rintro ⟨⟨rules, hrules⟩, hpasses, rfl⟩
    have hresolve : config.resolve.mapError (fun f => RunFault.mk (.config f) []) = .ok rules := by
      rw [hrules]
      rfl
    have hrun : (discover w config paths).foldlM (lintNext w rules) (startOf w config paths) = _ :=
      (foldlM_lintNext_eq_ok_iff hrules).2 ⟨hpasses, rfl⟩
    exact (bind_of_ok hresolve _).trans (bind_of_ok hrun _)

end DesignTokens.Project
