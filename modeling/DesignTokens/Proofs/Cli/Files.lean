import Mathlib
import DesignTokens.Cli.Run
import DesignTokens.Proofs.Project.Build

/-!
# What commands do to files

`files_kept`: a build without a plan changes nothing, one that succeeds adds its style sheet and the
directories for it, and a plan that is there survives every `init`. Commands that are repeated
change nothing further.
-/

namespace DesignTokens.Cli

open Project
open Workspace (Adds)

variable {w : Workspace} {path : Option String} {out : Option Path}

/-- Where a build writes the style sheet. -/
def outPath (w : Workspace) (path : Option String) (out : Option Path) : Path :=
  out.getD (cssPath w (projectRoot w path))

theorem outPath_none (w : Workspace) (path : Option String) :
    outPath w path none = cssPath w (projectRoot w path) := by
  rw [outPath, Option.getD_none]

theorem outPath_some (w : Workspace) (path : Option String) (p : Path) :
    outPath w path (some p) = p := by
  rw [outPath, Option.getD_some]

theorem projectRoot_congr {w' : Workspace} (h : w'.location = w.location) (path : Option String) :
    projectRoot w' path = projectRoot w path :=
  Workspace.resolve_congr h _

theorem build_of_build {done : Except BuildFault Unit} {w' : Workspace}
    (h : Project.build w (projectRoot w path) (outPath w path out) = (done, w')) :
    run w (.build path out) = (buildOutcome (outPath w path out) done, w') := by
  unfold outPath at h ⊢
  rw [run]
  unfold build
  dsimp only
  rw [h]

theorem done_of_status {p : Path} {done : Except BuildFault Unit}
    (h : (buildOutcome p done).status = 0) : done = .ok () := by
  unfold buildOutcome at h
  split at h
  · rfl
  · split at h <;> cases h

/-- What a build that succeeds has done. -/
theorem build_succeeds (h : (run w (.build path out)).1.status = 0) :
    Project.build w (projectRoot w path) (outPath w path out) =
      (.ok (), (run w (.build path out)).2) := by
  cases hbuild : Project.build w (projectRoot w path) (outPath w path out) with
  | mk done w' =>
    rw [build_of_build hbuild] at h ⊢
    rw [done_of_status h]

/-- A build with its style sheet in a place of its own is the same when it is repeated. -/
theorem build_repeated (hw : w.tree.isDirectory) {w' : Workspace}
    (hout : w.resolve (outPath w path out) ≠ w.resolve (planPath (projectRoot w path)))
    (h : Project.build w (projectRoot w path) (outPath w path out) = (.ok (), w')) :
    run w' (.build path out) = run w (.build path out) := by
  obtain ⟨hpath, hagain⟩ : outPath w' path out = outPath w path out ∧
      Project.build w' (projectRoot w' path) (outPath w path out) = (.ok (), w') := by
    cases out with
    | none =>
      rw [outPath_none] at h ⊢
      obtain ⟨hlocation, -, hcss, hagain⟩ := build_settled hw h
      rw [outPath_none, projectRoot_congr hlocation]
      exact ⟨hcss, hagain⟩
    | some p =>
      obtain ⟨plan, -, hexport⟩ := build_eq_ok h
      rw [projectRoot_congr (exportCss_eq_ok hexport).1.location]
      exact ⟨by rw [outPath_some, outPath_some], build_again hout h⟩
  rw [← hpath] at hagain
  rw [build_of_build h, build_of_build hagain, hpath]

/-! ### Making a plan -/

/-- Once the template is written, or was not needed, the plan is there. -/
theorem writeTemplate_eq_ok (hw : w.tree.isDirectory) {root : Path} {written : Option Path}
    {w' : Workspace} (h : writeTemplate w root = .ok (written, w')) :
    w'.location = w.location ∧ w'.tree.isDirectory ∧ w'.doesExist (planPath root) := by
  unfold writeTemplate at h
  dsimp only at h
  split at h
  · rename_i hexists
    cases h
    exact ⟨rfl, hw, hexists⟩
  · obtain ⟨w₁, hwrite, h⟩ := ok_of_bind h
    cases h
    have hwrites := Workspace.writeBytes_eq_ok hwrite
    refine ⟨hwrites.location, ?_, Workspace.doesExist_of_readBytes hwrites.readBytes⟩
    exact FileTree.isDirectory_iff.2 (hwrites.keepsDirectories [] (FileTree.isDirectory_iff.1 hw))

theorem run_init (w : Workspace) (path : Option String) : run w (.init path) = init w path := by
  rw [run]

theorem init_of_writeTemplate {written : Option Path} {w' : Workspace}
    (h : writeTemplate w (projectRoot w path) = .ok (written, w')) : (run w (.init path)).2 =
      (Project.build w' (projectRoot w path) (cssPath w' (projectRoot w path))).2 := by
  rw [run_init]
  unfold init
  dsimp only
  rw [h]

theorem writeTemplate_of_exists {root : Path} (h : w.doesExist (planPath root)) :
    writeTemplate w root = .ok (none, w) := by
  rw [writeTemplate]
  exact if_pos h

theorem find_plan_init (hw : w.tree.isDirectory)
    (hexists : w.doesExist (planPath (projectRoot w path))) :
    (run w (.init path)).2.find (planPath (projectRoot w path)) =
      w.find (planPath (projectRoot w path)) := by
  rw [init_of_writeTemplate (writeTemplate_of_exists hexists)]
  cases hbuild : Project.build w (projectRoot w path) (cssPath w (projectRoot w path)) with
  | mk done w' => exact (build_settled hw hbuild).2.1

theorem init_repeated (hw : w.tree.isDirectory) :
    (run (run w (.init path)).2 (.init path)).2 = (run w (.init path)).2 := by
  cases htemplate : writeTemplate w (projectRoot w path) with
  | error e =>
    have hsame : (run w (.init path)).2 = w := by
      rw [run_init]
      unfold init
      dsimp only
      rw [htemplate]
    rw [hsame, hsame]
  | ok made =>
    obtain ⟨written, w₁⟩ := made
    obtain ⟨hlocation, htop, hexists⟩ := writeTemplate_eq_ok hw htemplate
    rw [init_of_writeTemplate htemplate]
    cases hbuild : Project.build w₁ (projectRoot w path)
        (cssPath w₁ (projectRoot w path)) with
    | mk done w₂ =>
      obtain ⟨hlocation', hplan, hcss, hagain⟩ := build_settled htop hbuild
      have hroot : projectRoot w₂ path = projectRoot w path :=
        projectRoot_congr (hlocation'.trans hlocation) path
      have hexists' : w₂.doesExist (planPath (projectRoot w₂ path)) := by
        rw [hroot, Workspace.doesExist, hplan]
        exact hexists
      rw [init_of_writeTemplate (writeTemplate_of_exists hexists'), hroot, hcss, hagain]

/-! ### All commands that make files -/

/-- In any directory: a build without a plan changes nothing; one that succeeds adds the style sheet
of the plan, and does the same again if it has not written over the plan. `init` keeps a plan that
is there, and changes nothing when it is repeated. -/
theorem files_kept (w : Workspace) (hw : w.tree.isDirectory) (path : Option String)
    (out : Option Path) :
    (∀ f, loadPlan w (projectRoot w path) = .error f →
      run w (.build path out) = (buildOutcome (outPath w path out) (.error (.plan f)), w)) ∧
    ((run w (.build path out)).1.status = 0 →
      (∃ plan, loadPlan w (projectRoot w path) = .ok plan ∧
        Adds (outPath w path out) (Text.encodeUtf8 (Plan.cssHeader ++ plan.css)) w
          (run w (.build path out)).2) ∧
      (w.resolve (outPath w path out) ≠ w.resolve (planPath (projectRoot w path)) →
        run (run w (.build path out)).2 (.build path out) = run w (.build path out))) ∧
    (w.doesExist (planPath (projectRoot w path)) →
      (run w (.init path)).2.find (planPath (projectRoot w path)) =
        w.find (planPath (projectRoot w path))) ∧
    (run (run w (.init path)).2 (.init path)).2 = (run w (.init path)).2 := by
  refine ⟨fun f hf => ?_, fun h => ⟨?_, fun hout => build_repeated hw hout (build_succeeds h)⟩,
    find_plan_init hw, init_repeated hw⟩
  · refine build_of_build ?_
    rw [Project.build, hf]
  · obtain ⟨plan, hplan, hexport⟩ := build_eq_ok (build_succeeds h)
    exact ⟨plan, hplan, (exportCss_eq_ok hexport).1⟩

/-! ### An empty plan -/

def emptyPlan : String := "\x7b\"space\":\x7b\x7d,\"radius\":\x7b\x7d,\"color\":\x7b\x7d\x7d"

/-- A project with an empty plan in the current directory. -/
def emptyProject : Workspace :=
  ⟨⟨"/", ["p"]⟩, .directory [(planName, .file (Text.encodeUtf8 emptyPlan))]⟩

theorem root_emptyProject : projectRoot emptyProject none = ⟨"/", ["p"]⟩ := by cbv

set_option maxRecDepth 8000 in
theorem loadPlan_emptyProject : loadPlan emptyProject ⟨"/", ["p"]⟩ = .ok ⟨[], [], []⟩ := by cbv

theorem outPath_emptyProject : outPath emptyProject none none = ⟨"/", ["p", cssName]⟩ := by cbv

theorem status_emptyProject : (run emptyProject (.build none none)).1.status = 0 := by
  obtain ⟨w', hexport⟩ : ∃ w', exportCss emptyProject ⟨[], [], []⟩ ⟨"/", ["p", cssName]⟩ =
      (.ok (), w') := by
    rw [exportCss, makeParent_of_isDirectory (by decide)]
    exact ⟨_, rfl⟩
  have hbuild := build_of_exportCss loadPlan_emptyProject hexport
  rw [← root_emptyProject, ← outPath_emptyProject] at hbuild
  rw [build_of_build hbuild]
  rfl

theorem files_kept_emptyProject :
    emptyProject.doesExist (planPath ⟨"/", ["p"]⟩) ∧
      (run emptyProject (.init none)).2.find (planPath ⟨"/", ["p"]⟩) =
        emptyProject.find (planPath ⟨"/", ["p"]⟩) ∧
      (run emptyProject (.build none none)).1.status = 0 ∧
      run (run emptyProject (.build none none)).2 (.build none none) =
        run emptyProject (.build none none) ∧
      (run ⟨⟨"/", ["p"]⟩, .empty⟩ (.build none none)).2 = ⟨⟨"/", ["p"]⟩, .empty⟩ := by
  obtain ⟨-, hbuild, hinit, -⟩ := files_kept emptyProject rfl none none
  obtain ⟨hempty, -⟩ := files_kept ⟨⟨"/", ["p"]⟩, .empty⟩ rfl none none
  have hexists : emptyProject.doesExist (planPath ⟨"/", ["p"]⟩) := by decide
  have hout : emptyProject.resolve (outPath emptyProject none none) ≠
      emptyProject.resolve (planPath (projectRoot emptyProject none)) := by
    rw [outPath_emptyProject, root_emptyProject]
    decide
  rw [root_emptyProject] at hinit
  refine ⟨hexists, hinit hexists, status_emptyProject, (hbuild status_emptyProject).2 hout, ?_⟩
  rw [hempty _ (by rfl)]

end DesignTokens.Cli
