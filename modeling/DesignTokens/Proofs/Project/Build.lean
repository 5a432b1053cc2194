import DesignTokens.Project.PlanFile
import DesignTokens.Proofs.File.Change

/-!
# Building a project

A build that gets to the end adds the style sheet (`exportCss_eq_ok`) and changes nothing when it is
repeated, unless the style sheet has taken the place of the plan (`build_again`). The place that the
layout of a project gives to its style sheet is not that of the plan and lies in a directory that is
there, so there a build settles whatever comes of it (`build_settled`).
-/

namespace DesignTokens.Project

open Workspace (Adds Writes)

variable {w w' : Workspace} {root out : Path} {plan : Plan} {ns : List String}
variable {bytes : List UInt8}

/-! ### Writing the style sheet -/

theorem makeParent_of_isDirectory (h : w.isDirectory out.parent) :
    w.makeParent out = (.ok (), w) := by
  have hexists : w.doesExist out.parent := by
    obtain ⟨ns, hns, hdirectory⟩ := Workspace.isDirectory_iff.1 h
    rw [Workspace.doesExist_of_names hns, hdirectory]
    rfl
  rw [Workspace.makeParent_of_exists hexists, if_pos h]

theorem exportCss_of_writes (hparent : w.isDirectory out.parent)
    (hread : w.readBytes out = .ok (Text.encodeUtf8 plan.cssFile)) :
    exportCss w plan out = (.ok (), w) := by
  rw [exportCss, makeParent_of_isDirectory hparent]
  dsimp only
  rw [Workspace.writeText, Workspace.writeBytes_of_readBytes hread]

/-- A style sheet that was written is there, and is not written again. -/
theorem exportCss_eq_ok (h : exportCss w plan out = (.ok (), w')) :
    Adds out (Text.encodeUtf8 plan.cssFile) w w' ∧ exportCss w' plan out = (.ok (), w') := by
  unfold exportCss at h
  split at h
  · cases h
  · rename_i w₁ hmake
    split at h
    · cases h
    · rename_i w₂ hwrite
      cases h
      obtain ⟨hgrows, hdirectory⟩ := Workspace.makeParent_grows hmake
      have hwrites := Workspace.writeBytes_eq_ok hwrite
      exact ⟨.intro hgrows hwrites,
        exportCss_of_writes (hwrites.isDirectory (hdirectory rfl)) hwrites.readBytes⟩

/-- Where the parent is there, only the style sheet is written, or nothing. -/
theorem exportCss_cases {done : Except FileError Unit} (hparent : w.doesExist out.parent)
    (h : exportCss w plan out = (done, w')) :
    done = .ok () ∧ Writes out (Text.encodeUtf8 plan.cssFile) w w' ∨
      (∃ e, done = .error e) ∧ w' = w := by
  unfold exportCss at h
  rw [Workspace.makeParent_of_exists hparent] at h
  split at h
  · rename_i e w₁ hmake
    cases h
    exact .inr ⟨⟨e, rfl⟩, (Prod.mk.inj hmake).2.symm⟩
  · rename_i w₁ hmake
    obtain rfl := (Prod.mk.inj hmake).2
    split at h
    · rename_i e _
      cases h
      exact .inr ⟨⟨e, rfl⟩, rfl⟩
    · rename_i w₂ hwrite
      cases h
      exact .inl ⟨rfl, Workspace.writeBytes_eq_ok hwrite⟩

/-! ### The plan -/

theorem readBytes_of_loadPlan (h : loadPlan w root = .ok plan) :
    ∃ bytes, w.readBytes (planPath root) = .ok bytes := by
  obtain ⟨data, hdata, -⟩ := ok_of_bind h
  have hdata := ok_of_mapError hdata
  unfold loadData at hdata
  dsimp only at hdata
  split at hdata
  · obtain ⟨source, hsource, -⟩ := ok_of_bind hdata
    obtain ⟨bytes, hbytes, -⟩ := ok_of_bind (ok_of_mapError hsource)
    exact ⟨bytes, ok_of_mapError hbytes⟩
  · cases hdata

/-- A plan is what its file holds. -/
theorem loadPlan_congr (h : w.readBytes (planPath root) = .ok bytes)
    (h' : w'.readBytes (planPath root) = .ok bytes) : loadPlan w' root = loadPlan w root := by
  have hexists := Workspace.doesExist_of_readBytes h
  have hexists' := Workspace.doesExist_of_readBytes h'
  have htext : w'.readText (planPath root) = w.readText (planPath root) := by
    rw [Workspace.readText_of_readBytes h, Workspace.readText_of_readBytes h']
  unfold loadPlan loadData
  simp only [hexists, hexists', htext]

theorem build_of_exportCss {done : Except FileError Unit} (hplan : loadPlan w root = .ok plan)
    (h : exportCss w plan out = (done, w')) : build w root out = (done.mapError .file, w') := by
  rw [build, hplan]
  dsimp only
  rw [h]

/-- A build that got to the end added the style sheet of the plan. -/
theorem build_eq_ok (h : build w root out = (.ok (), w')) : ∃ plan, loadPlan w root = .ok plan ∧
    exportCss w plan out = (.ok (), w') := by
  unfold build at h
  split at h
  · cases h
  · rename_i plan hplan
    refine ⟨plan, hplan, ?_⟩
    obtain ⟨hdone, rfl⟩ := Prod.mk.inj h
    exact Prod.ext (ok_of_mapError hdone) rfl

theorem build_again (hout : w.resolve out ≠ w.resolve (planPath root))
    (h : build w root out = (.ok (), w')) : build w' root out = (.ok (), w') := by
  obtain ⟨plan, hplan, hexport⟩ := build_eq_ok h
  obtain ⟨hadds, hagain⟩ := exportCss_eq_ok hexport
  obtain ⟨bytes, hread⟩ := readBytes_of_loadPlan hplan
  obtain ⟨ns, hns, -⟩ := ok_of_bind (Workspace.readBytes_eq_ok_iff.1 hread)
  have hns' : w'.names (planPath root) = .ok ns :=
    Workspace.names_mono hadds.location hadds.directories hns
  have hne : w'.names out ≠ .ok ns := by
    refine Workspace.names_ne_of_resolve_ne ?_ hns'
    rwa [Workspace.resolve_congr hadds.location, Workspace.resolve_congr hadds.location]
  have hplan' := (loadPlan_congr hread (hadds.readBytes hns hne hread)).trans hplan
  exact build_of_exportCss hplan' hagain

/-! ### The place that the layout gives -/

theorem names_cssPath (h : w.names root = .ok ns) :
    ∃ ms, w.names (cssPath w root) = .ok (ns ++ ms) ∧ ms.getLast? = some cssName := by
  have hname : cssName ≠ ".." := by decide
  unfold cssPath
  split
  · have happ := Workspace.names_child (n := "app") (by decide) h
    refine ⟨["app", cssName], ?_, rfl⟩
    rw [Workspace.names_child hname happ, List.append_assoc]
    rfl
  split
  · have hsrc := Workspace.names_child (n := "src") (by decide) h
    refine ⟨["src", cssName], ?_, rfl⟩
    rw [Workspace.names_child hname hsrc, List.append_assoc]
    rfl
  · exact ⟨[cssName], Workspace.names_child hname h, rfl⟩

theorem doesExist_parent_cssPath (h : w.doesExist root) : w.doesExist (cssPath w root).parent := by
  unfold cssPath
  split
  · rename_i happ
    rwa [Path.parent_child]
  split
  · rename_i hsrc
    rwa [Path.parent_child]
  · rwa [Path.parent_child]

/-- The root of a project with something in it is a directory. -/
theorem names_root {n : String} (hn : n ≠ "..") (hw : w.tree.isDirectory)
    (hread : w.readBytes (root.child n) = .ok bytes) :
    ∃ ns, w.names root = .ok ns ∧ w.tree.placed? ns = some .directory := by
  obtain ⟨place, hplace, hfind⟩ := ok_of_bind (Workspace.readBytes_eq_ok_iff.1 hread)
  have hne : place ≠ [] := by
    rintro rfl
    rw [FileTree.find] at hfind
    rw [Except.ok.inj hfind] at hw
    cases hw
  obtain ⟨ns, hns, rfl⟩ := Workspace.names_of_child hn hplace hne
  have hplaced : w.tree.placed? (ns ++ [n]) ≠ none := by
    rw [FileTree.placed?_of_find hfind]
    exact Option.some_ne_none _
  exact ⟨ns, hns, FileTree.placed?_of_append hplaced⟩

/-- The style sheet takes the place of nothing else at the root. -/
theorem names_cssPath_ne {n : String} (hroot : w.names root = .ok ns) (hne : n ≠ cssName)
    (h : Writes (cssPath w root) bytes w w') : w'.names (cssPath w root) ≠ .ok (ns ++ [n]) := by
  obtain ⟨ms, hms, hlast⟩ := names_cssPath hroot
  rw [h.names hms]
  intro heq
  obtain rfl := List.append_cancel_left (Except.ok.inj heq)
  exact hne (Option.some.inj hlast)

theorem cssPath_of_writes (hroot : w.names root = .ok ns)
    (h : Writes (cssPath w root) bytes w w') : cssPath w' root = cssPath w root := by
  have hexists {n : String} (hn : n ≠ "..") (hne : n ≠ cssName) :
      w'.doesExist (root.child n) = w.doesExist (root.child n) := by
    have hnames := Workspace.names_child hn hroot
    rw [Workspace.doesExist_of_names (h.names hnames), h.placed?_eq (names_cssPath_ne hroot hne h),
      Workspace.doesExist_of_names hnames]
  unfold cssPath
  rw [hexists (by decide) (by decide), hexists (by decide) (by decide)]

/-- A build at the place that the layout gives keeps the plan, and does the same when it is
repeated. -/
theorem build_settled (hw : w.tree.isDirectory) {done : Except BuildFault Unit}
    (h : build w root (cssPath w root) = (done, w')) : w'.location = w.location ∧
      w'.find (planPath root) = w.find (planPath root) ∧ cssPath w' root = cssPath w root ∧
      build w' root (cssPath w root) = (done, w') := by
  cases hplan : loadPlan w root with
  | error f =>
    obtain rfl : w = w' := by
      rw [build, hplan] at h
      exact (Prod.mk.inj h).2
    exact ⟨rfl, rfl, rfl, h⟩
  | ok plan =>
    obtain ⟨bytes, hread⟩ := readBytes_of_loadPlan hplan
    obtain ⟨ns, hroot, hdirectory⟩ := names_root (by decide) hw hread
    have hexists : w.doesExist root := by
      rw [Workspace.doesExist_of_names hroot, hdirectory]
      rfl
    cases hexport : exportCss w plan (cssPath w root) with
    | mk done' w₁ =>
      rw [build_of_exportCss hplan hexport] at h
      cases h
      rcases exportCss_cases (doesExist_parent_cssPath hexists) hexport with
        ⟨rfl, hwrites⟩ | ⟨-, rfl⟩
      · obtain ⟨hadds, hagain⟩ := exportCss_eq_ok hexport
        have hread' := hadds.readBytes (Workspace.names_child (by decide) hroot)
          (names_cssPath_ne hroot (by decide) hwrites) hread
        refine ⟨hadds.location, ?_, cssPath_of_writes hroot hwrites,
          build_of_exportCss ((loadPlan_congr hread hread').trans hplan) hagain⟩
        exact (Workspace.readBytes_eq_ok_iff.1 hread').trans
          (Workspace.readBytes_eq_ok_iff.1 hread).symm
      · exact ⟨rfl, rfl, rfl, build_of_exportCss hplan hexport⟩

end DesignTokens.Project
