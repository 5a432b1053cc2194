import DesignTokens.Proofs.Project.Discover
import DesignTokens.Proofs.Project.Run

/-!
# Sums over files

The report of a run is the sum of what is found in each file alone (`IsSum`). Files have reports
under names of their own, unless backslashes make two names one, and so the order in which the paths
are listed does not show (`lintPaths_sum`).
-/

namespace DesignTokens.Project

open Lint

variable {w : Workspace} {config : Config} {p : Path} {ps ps' paths paths' : List Path} {r : Report}

/-! ### The reports on one of many files -/

theorem filter_found_self (w : Workspace) (config : Config) (p : Path) :
    (found w config p).filter (·.file = reportedName p) = found w config p :=
  List.filter_eq_self.2 fun _ hd => decide_eq_true (file_of_mem_found hd)

theorem filter_found_of_ne {f : String} (h : ∀ p ∈ ps, reportedName p ≠ f) :
    (ps.flatMap (found w config)).filter (·.file = f) = [] := by
  rw [List.filter_eq_nil_iff]
  intro d hd hf
  obtain ⟨p, hp, hd⟩ := List.mem_flatMap.1 hd
  exact h p hp ((file_of_mem_found hd).symm.trans (of_decide_eq_true hf))

/-- No other file is reported under the name of this one. -/
def NamedAlone (p : Path) (ps : List Path) : Prop :=
  ∀ q ∈ ps, reportedName q = reportedName p → q = p

theorem filter_flatMap_found (hps : ps.Nodup) (hp : p ∈ ps) (halone : NamedAlone p ps) :
    (ps.flatMap (found w config)).filter (·.file = reportedName p) = found w config p := by
  obtain ⟨front, back, rfl⟩ := List.append_of_mem hp
  have hne : ∀ q ∈ front ++ back, reportedName q ≠ reportedName p := by
    intro q hq hname
    have hmem : q ∈ front ++ p :: back := by
      rcases List.mem_append.1 hq with hq | hq
      · exact List.mem_append_left _ hq
      · exact List.mem_append_right _ (List.mem_cons_of_mem p hq)
    obtain rfl := halone q hmem hname
    exact (List.nodup_middle.1 hps).notMem hq
  obtain ⟨hfront, hback⟩ := List.forall_mem_append.1 hne
  rw [List.flatMap_append, List.flatMap_cons, List.filter_append, List.filter_append,
    filter_found_of_ne hfront, filter_found_of_ne hback, filter_found_self, List.append_nil,
    List.nil_append]

/-- In what order files with names of their own come does not show in the reports on one name. -/
theorem filter_flatMap_found_perm (hps : ps.Nodup) (hperm : ps.Perm ps')
    (halone : ∀ p ∈ ps, NamedAlone p ps) (f : String) :
    (ps.flatMap (found w config)).filter (·.file = f) =
      (ps'.flatMap (found w config)).filter (·.file = f) := by
  by_cases hf : ∃ p ∈ ps, reportedName p = f
  · obtain ⟨p, hp, rfl⟩ := hf
    rw [filter_flatMap_found hps hp (halone p hp),
      filter_flatMap_found (hperm.nodup_iff.1 hps) (hperm.mem_iff.1 hp)]
    exact fun q hq => halone p hp q (hperm.mem_iff.2 hq)
  · have hne : ∀ p ∈ ps, reportedName p ≠ f := fun p hp hname => hf ⟨p, hp, hname⟩
    rw [filter_found_of_ne hne, filter_found_of_ne fun p hp => hne p (hperm.mem_iff.2 hp)]

theorem filter_reportOf (hp : p ∈ discover w config paths)
    (halone : NamedAlone p (discover w config paths)) :
    (reportOf w config paths).diagnostics.filter (·.file = reportedName p) =
      found w config p := by
  show (Diagnostic.sort ((discover w config paths).flatMap (found w config))).filter _ = _
  rw [← Diagnostic.sort_filter, filter_flatMap_found (nodup_discover ..) hp halone]
  exact List.mergeSort_of_pairwise (found_pairwise ..)

/-! ### Sums -/

/-- The report is the sum of what is found in the files. -/
structure IsSum (w : Workspace) (config : Config) (ps : List Path) (r : Report) : Prop where
  /-- Each file is either linted or skipped. -/
  counted : r.checked + r.skipped.length = ps.length
  skipped : ∀ p, p ∈ r.skipped ↔ p ∈ ps ∧ w.Undecodable p
  /-- The diagnostics of a file keep their order. -/
  linted : ∀ p ∈ ps, p ∉ r.skipped →
    ∃ ds, lintFile w config p = .ok ds ∧ ds.Sublist r.diagnostics
  /-- Nothing is lost, and nothing else is reported. -/
  complete : r.diagnostics.Perm ((ps.filter (· ∉ r.skipped)).flatMap (found w config))
  ordered : r.diagnostics.Pairwise fun a b => a.le b

theorem isRead_eq_false_iff : isRead w p = false ↔ ∃ f, w.readText p = .error f := by
  unfold isRead
  cases w.readText p <;> simp [Except.isOk, Except.toBool]

theorem flatMap_found_filter (ps : List Path) :
    (ps.filter (isRead w)).flatMap (found w config) = ps.flatMap (found w config) := by
  induction ps with
  | nil => rfl
  | cons p ps ih =>
    cases hp : isRead w p with
    | true => rw [List.filter_cons_of_pos hp, List.flatMap_cons, List.flatMap_cons, ih]
    | false =>
      obtain ⟨f, hf⟩ := isRead_eq_false_iff.1 hp
      rw [List.filter_cons_of_neg (by simp [hp]), List.flatMap_cons, found_of_readText hf, ih,
        List.nil_append]

theorem found_sublist (hp : p ∈ ps) : (found w config p).Sublist (ps.flatMap (found w config)) :=
  List.sublist_flatten_of_mem (List.mem_map_of_mem hp)

theorem isSum_reportOf (hfiles : ∀ p ∈ discover w config paths, ∃ bytes, w.readBytes p = .ok bytes)
    (hpasses : ∀ p ∈ discover w config paths, Passes w config p) :
    IsSum w config (discover w config paths) (reportOf w config paths) := by
  have hskipped : (reportOf w config paths).skipped =
      (discover w config paths).filter (!isRead w ·) := rfl
  have hdiagnostics : (reportOf w config paths).diagnostics =
      Diagnostic.sort ((discover w config paths).flatMap (found w config)) := rfl
  have hread {p : Path} (hp : p ∈ discover w config paths) :
      p ∉ (reportOf w config paths).skipped ↔ isRead w p := by
    simp [hskipped, hp]
  refine ⟨?_, fun p => ?_, fun p hp hp' => ?_, ?_, ?_⟩
  · show 0 + (discover w config paths).countP (isRead w) + _ = _
    rw [hskipped, ← List.countP_eq_length_filter, Nat.zero_add,
      List.length_eq_countP_add_countP (isRead w)]
    simp
  · rw [hskipped, List.mem_filter, Bool.not_eq_true', isRead_eq_false_iff]
    refine and_congr_right fun hp => ?_
    obtain ⟨bytes, hbytes⟩ := hfiles p hp
    exact (Workspace.undecodable_iff hbytes).symm
  · rcases hpasses p hp with hunread | ⟨ds, hds⟩
    · rw [hread hp, ← Bool.not_eq_false, isRead_eq_false_iff] at hp'
      exact absurd hunread hp'
    · refine ⟨ds, hds, ?_⟩
      rw [hdiagnostics, ← found_eq hds]
      exact List.sublist_mergeSort Diagnostic.le_trans Diagnostic.le_total (found_pairwise ..)
        (found_sublist hp)
  · have hfilter : (discover w config paths).filter (· ∉ (reportOf w config paths).skipped) =
        (discover w config paths).filter (isRead w) :=
      List.filter_congr fun p hp => by simp [hread hp]
    rw [hfilter, flatMap_found_filter]
    exact Diagnostic.sort_perm _
  · exact Diagnostic.sort_pairwise _

/-! ### Orders of paths -/

theorem reportedName_eq (h : '\\' ∉ p.text.toList) : reportedName p = p.text :=
  Path.normalize_eq_self h

theorem namedAlone_of_wellFormed (hps : ∀ p ∈ ps, p.WellFormed)
    (hslash : ∀ p ∈ ps, '\\' ∉ p.text.toList) (hp : p ∈ ps) : NamedAlone p ps := by
  intro q hq hname
  rw [reportedName_eq (hslash p hp), reportedName_eq (hslash q hq)] at hname
  exact (hps q hq).text_inj (hps p hp) hname

/-- The reports of two runs agree in all but the order of the skipped files and the warnings. -/
structure Agrees (r r' : Report) : Prop where
  diagnostics : r'.diagnostics = r.diagnostics
  checked : r'.checked = r.checked
  errors : r'.errors = r.errors
  warns : r'.warns = r.warns
  skipped : r'.skipped.Perm r.skipped

theorem agrees_of_perm (hperm : paths.Perm paths')
    (halone : ∀ p ∈ discover w config paths, NamedAlone p (discover w config paths)) :
    Agrees (reportOf w config paths) (reportOf w config paths') := by
  have hdiscover := discover_perm w config hperm
  have hdiagnostics : (reportOf w config paths').diagnostics =
      (reportOf w config paths).diagnostics :=
    Diagnostic.sort_eq_of_filter_file fun f =>
      (filter_flatMap_found_perm (nodup_discover ..) hdiscover halone f).symm
  refine ⟨hdiagnostics, ?_, ?_, ?_, ?_⟩
  · exact congrArg (0 + ·) (hdiscover.countP_eq (isRead w)).symm
  · exact congrArg (Diagnostic.count .error) hdiagnostics
  · exact congrArg (Diagnostic.count .warn) hdiagnostics
  · exact (hdiscover.filter _).symm

/-- The report of a run is the sum of what is found in its files. What is found in a file depends on
its bytes only, and so does what is reported on a file that shares its name with no other. If no name
has a backslash, the listed paths may come in any order. -/
theorem lintPaths_sum (hw : w.tree.WellFormed) (hpaths : ∀ p ∈ paths, p.WellFormed)
    (h : lintPaths w config paths = .ok r) :
    IsSum w config (discover w config paths) r ∧
    (∀ w' paths' r', lintPaths w' config paths' = .ok r' →
      ∀ p ∈ discover w config paths, p ∈ discover w' config paths' →
        w'.readBytes p = w.readBytes p →
        lintFile w' config p = lintFile w config p ∧
          (NamedAlone p (discover w config paths) → NamedAlone p (discover w' config paths') →
            r'.diagnostics.filter (·.file = reportedName p) =
              r.diagnostics.filter (·.file = reportedName p))) ∧
    ((∀ p ∈ discover w config paths, '\\' ∉ p.text.toList) → ∀ paths', paths.Perm paths' →
      ∃ r', lintPaths w config paths' = .ok r' ∧ Agrees r r') := by
  obtain ⟨hrules, hpasses, rfl⟩ := lintPaths_eq_ok_iff.1 h
  refine ⟨isSum_reportOf (fun p hp => (of_mem_discover hw hpaths hp).2) hpasses, ?_, ?_⟩
  · intro w' paths' r' h' p hp hp' hbytes
    obtain ⟨-, -, rfl⟩ := lintPaths_eq_ok_iff.1 h'
    have hlint := lintFile_congr config hbytes
    refine ⟨hlint, fun halone halone' => ?_⟩
    rw [filter_reportOf hp halone, filter_reportOf hp' halone', found, found, hlint]
  · intro hslash paths' hperm
    have hdiscover := discover_perm w config hperm
    have hpasses' : ∀ p ∈ discover w config paths', Passes w config p :=
      fun p hp => hpasses p (hdiscover.mem_iff.2 hp)
    refine ⟨_, lintPaths_eq_ok_iff.2 ⟨hrules, hpasses', rfl⟩, agrees_of_perm hperm fun p hp => ?_⟩
    exact namedAlone_of_wellFormed (fun q hq => (of_mem_discover hw hpaths hq).1) hslash hp

/-- A directory with a file whose class name is reported, and one that is no text. -/
def mixed : Workspace where
  location := ⟨"/", ["w"]⟩
  tree := .directory [("src", .directory [
    ("a.tsx", .file (Text.encodeUtf8 "<p className=\"p-4\"/>")), ("b.tsx", .file [0xFF])])]

theorem mixed_wellFormed : mixed.tree.WellFormed := by
  have hname (n : String) (h : n ≠ "" ∧ n ≠ "." ∧ '/' ∉ n.toList) (hdots : n ≠ "..") :
      FileTree.IsEntryName n := ⟨h, hdots⟩
  refine .directory (by decide) (List.forall_mem_singleton.2 (hname _ (by decide) (by decide)))
    (List.forall_mem_singleton.2 (.directory (by decide) ?_ ?_))
  · exact List.forall_mem_cons.2 ⟨hname _ (by decide) (by decide),
      List.forall_mem_singleton.2 (hname _ (by decide) (by decide))⟩
  · exact List.forall_mem_cons.2 ⟨.file _, List.forall_mem_singleton.2 (.file _)⟩

theorem lintFile_mixed : ∃ ds, lintFile mixed Config.default (.ofString "src/a.tsx") = .ok ds := by
  have hread : mixed.readText (.ofString "src/a.tsx") = .ok "<p className=\"p-4\"/>".toList := by
    cbv
  have hrules : Config.default.resolve =
      .ok [⟨.brandClassnamesOnly, .error, []⟩, ⟨.brandMarginPolicy, .error, []⟩] := rfl
  have hscan : Jsx.scan "<p className=\"p-4\"/>".toList =
      .ok [⟨"p", 0, [⟨"className", 3, some (.string "p-4")⟩]⟩] := by cbv
  have hname : Path.normalize (Path.ofString "src/a.tsx").text = "src/a.tsx" := by cbv
  obtain ⟨ds, hds⟩ : ∃ ds, lintSource "<p className=\"p-4\"/>".toList "src/a.tsx"
      [⟨.brandClassnamesOnly, .error, []⟩, ⟨.brandMarginPolicy, .error, []⟩] = .ok ds := by
    unfold lintSource
    rw [hscan]
    exact ⟨_, rfl⟩
  refine ⟨ds, ?_⟩
  rw [lintFile_eq hrules, lintFileWith, hread, hname]
  exact congrArg (Except.mapError FileFault.lint) hds

/-- The directory and one of its files may be listed in any order. -/
theorem lintPaths_sum_mixed : ∃ r r',
    lintPaths mixed Config.default [.ofString "src/b.tsx", .ofString "src"] = .ok r ∧
      lintPaths mixed Config.default [.ofString "src", .ofString "src/b.tsx"] = .ok r' ∧
      Path.ofString "src/b.tsx" ∈ r.skipped ∧ r.checked + r.skipped.length = 2 ∧ Agrees r r' := by
  have hdiscover : discover mixed Config.default [.ofString "src/b.tsx", .ofString "src"] =
      [.ofString "src/b.tsx", .ofString "src/a.tsx"] := by cbv
  have hbytes : mixed.readBytes (.ofString "src/b.tsx") = .ok [0xFF] := by cbv
  have hunread : mixed.Undecodable (.ofString "src/b.tsx") := ⟨[0xFF], _, hbytes, by cbv⟩
  have hpasses : ∀ p ∈ discover mixed Config.default [.ofString "src/b.tsx", .ofString "src"],
      Passes mixed Config.default p := by
    rw [hdiscover]
    exact List.forall_mem_cons.2 ⟨.inl ((Workspace.undecodable_iff hbytes).1 hunread),
      List.forall_mem_singleton.2 (.inr lintFile_mixed)⟩
  obtain ⟨r, h⟩ : ∃ r,
      lintPaths mixed Config.default [.ofString "src/b.tsx", .ofString "src"] = .ok r :=
    ⟨_, lintPaths_eq_ok_iff.2 ⟨⟨_, rfl⟩, hpasses, rfl⟩⟩
  have hpaths : ∀ p ∈ [Path.ofString "src/b.tsx", .ofString "src"], p.WellFormed :=
    List.forall_mem_cons.2 ⟨Path.wellFormed_ofString _,
      List.forall_mem_singleton.2 (Path.wellFormed_ofString _)⟩
  obtain ⟨hsum, -, horder⟩ := lintPaths_sum mixed_wellFormed hpaths h
  rw [hdiscover] at hsum horder
  obtain ⟨r', h', hagrees⟩ := horder (by decide) _ (List.Perm.swap ..)
  exact ⟨r, r', h, h', (hsum.skipped _).2 ⟨List.mem_cons_self, hunread⟩, hsum.counted, hagrees⟩

end DesignTokens.Project
