import DesignTokens.Project.Lint
import DesignTokens.Proofs.File.Workspace

/-!
# Discovered files

What listed paths stand for are files with well-formed paths (`of_mem_discover`), each of them once,
in whatever order the paths are listed (`discover_perm`). Which files a listed path stands for is
said by `Yields`, and in which order they come by `Precedes`; the two and that no file comes twice
determine the list (`files_discovered`).
-/

namespace DesignTokens.Project

open Lint

section

variable {α : Type} [BEq α]

theorem eraseDups_sublist (as : List α) : as.eraseDups.Sublist as := by
  cases as with
  | nil => exact .slnil
  | cons a as =>
    rw [List.eraseDups_cons]
    exact .cons_cons a ((eraseDups_sublist _).trans List.filter_sublist)
termination_by as.length
decreasing_by
  have hlength := List.length_filter_le (fun b => !b == a) as
  rw [List.length_cons]
  omega

variable [LawfulBEq α]

theorem nodup_eraseDups (as : List α) : as.eraseDups.Nodup := by
  cases as with
  | nil => exact List.nodup_nil
  | cons a as =>
    rw [List.eraseDups_cons, List.nodup_cons, List.mem_eraseDups]
    exact ⟨by simp, nodup_eraseDups _⟩
termination_by as.length
decreasing_by
  have hlength := List.length_filter_le (fun b => !b == a) as
  rw [List.length_cons]
  omega

theorem eraseDups_filter (p : α → Bool) (as : List α) :
    (as.filter p).eraseDups = as.eraseDups.filter p := by
  cases as with
  | nil => rfl
  | cons a as =>
    have ih := eraseDups_filter p (as.filter fun b => !b == a)
    rw [List.eraseDups_cons]
    by_cases ha : p a
    · rw [List.filter_cons_of_pos ha, List.filter_cons_of_pos ha, List.eraseDups_cons, ← ih,
        List.filter_filter, List.filter_filter]
      simp only [Bool.and_comm]
    · -- An element that `p` refuses takes none of those away that it keeps.
      have hkept : (as.filter fun b => !b == a).filter p = as.filter p := by
        rw [List.filter_filter]
        refine List.filter_congr fun b _ => ?_
        by_cases hb : b = a
        · simp [hb, ha]
        · simp [hb]
      rw [List.filter_cons_of_neg ha, List.filter_cons_of_neg ha, ← ih, hkept]
termination_by as.length
decreasing_by
  have hlength := List.length_filter_le (fun b => !b == a) as
  rw [List.length_cons]
  omega

end

variable {w : Workspace} {config : Config} {p q : Path} {paths paths' : List Path}

theorem mem_discover :
    q ∈ discover w config paths ↔ ∃ p ∈ paths, q ∈ (expand? w config p).getD [] := by
  rw [discover, List.mem_eraseDups, List.mem_flatMap]

theorem nodup_discover (w : Workspace) (config : Config) (paths : List Path) :
    (discover w config paths).Nodup := nodup_eraseDups _

theorem discover_perm (w : Workspace) (config : Config) (h : paths.Perm paths') :
    (discover w config paths).Perm (discover w config paths') := by
  rw [List.perm_ext_iff_of_nodup (nodup_discover ..) (nodup_discover ..)]
  intro q
  simp only [mem_discover, h.mem_iff]

/-- What a path stands for are files with well-formed paths. -/
theorem of_mem_expand? (hw : w.tree.WellFormed) (hp : p.WellFormed)
    (hq : q ∈ (expand? w config p).getD []) :
    q.WellFormed ∧ ∃ bytes, w.readBytes q = .ok bytes := by
  unfold expand? at hq
  split at hq
  · rename_i hfile
    obtain rfl := List.mem_singleton.1 hq
    exact ⟨hp, Workspace.isFile_iff.1 hfile⟩
  · split at hq
    · obtain ⟨⟨ns, hns, rfl⟩, hbytes⟩ :=
        Workspace.exists_of_mem_filesBelow hw (List.mem_filter.1 hq).1
      exact ⟨hp.join fun n hn => (hns n hn).1, hbytes⟩
    · cases hq

theorem of_mem_discover (hw : w.tree.WellFormed) (hpaths : ∀ p ∈ paths, p.WellFormed)
    (hq : q ∈ discover w config paths) : q.WellFormed ∧ ∃ bytes, w.readBytes q = .ok bytes := by
  obtain ⟨p, hp, hq⟩ := mem_discover.1 hq
  exact of_mem_expand? hw (hpaths p hp) hq

/-! ### What a listed path stands for -/

/-- The names from a listed directory match an included pattern and no excluded one. -/
def Included (config : Config) (ns : List String) : Prop :=
  (∃ g ∈ config.included, Path.globMatches ("/".intercalate ns) g) ∧
    ∀ g ∈ config.excluded, ¬Path.globMatches ("/".intercalate ns) g

/-- A listed path yields the file that it leads to, or those below the directory that it leads to
which are included. -/
inductive Yields (w : Workspace) (config : Config) (p : Path) : Path → Prop
  | listed : w.isFile p → Yields w config p p
  | below {ns : List String} : w.isDirectory p → (∀ n ∈ ns, FileTree.IsEntryName n) →
    w.isFile (p.join ⟨"", ns⟩) → Included config ns → Yields w config p (p.join ⟨"", ns⟩)

variable {found found' : List Path} {q' : Path}

theorem isSelected_iff {ns : List String} :
    isSelected config ("/".intercalate ns) ↔ Included config ns := by
  simp [isSelected, Path.matchesAny, Included, and_comm]

theorem drop_join_names (p : Path) (ns : List String) :
    (p.join ⟨"", ns⟩).names.drop p.names.length = ns := by
  rw [Path.join_names]
  exact List.drop_left

theorem mem_expand?_iff (hw : w.tree.WellFormed) :
    q ∈ (expand? w config p).getD [] ↔ Yields w config p q := by
  unfold expand?
  by_cases hfile : w.isFile p
  · rw [if_pos hfile, Option.getD_some, List.mem_singleton]
    constructor
    · rintro rfl
      exact .listed hfile
    · rintro (_ | hdirectory)
      · rfl
      · rw [Workspace.isDirectory_eq_false_of_isFile hfile] at hdirectory
        cases hdirectory
  rw [if_neg hfile]
  by_cases hdirectory : w.isDirectory p
  · rw [if_pos hdirectory, Option.getD_some, List.mem_filter]
    constructor
    · rintro ⟨hmem, hselected⟩
      obtain ⟨⟨ns, hns, rfl⟩, hbytes⟩ := Workspace.exists_of_mem_filesBelow hw hmem
      rw [drop_join_names, isSelected_iff] at hselected
      exact .below hdirectory hns (Workspace.isFile_iff.2 hbytes) hselected
    · rintro (hp | ⟨-, hns, hq, hincluded⟩)
      · exact absurd hp hfile
      · rw [drop_join_names, isSelected_iff]
        exact ⟨Workspace.mem_filesBelow (Workspace.doesExist_of_isDirectory hdirectory) hns hq,
          hincluded⟩
  · rw [if_neg hdirectory, Option.getD_none]
    constructor
    · nofun
    · rintro (hp | hp)
      · exact absurd hp hfile
      · exact absurd hp hdirectory

theorem expand?_pairwise (w : Workspace) (config : Config) (p : Path) :
    ((expand? w config p).getD []).Pairwise fun q q' => q.le q' := by
  unfold expand?
  split
  · exact List.pairwise_singleton _ _
  · split
    · exact (Workspace.filesBelow_pairwise w p).filter _
    · exact .nil

/-! ### The order of discovery -/

/-- One listed path more in front: its files come first, and do not come again. -/
theorem discover_cons (w : Workspace) (config : Config) (p : Path) (paths : List Path) :
    discover w config (p :: paths) = ((expand? w config p).getD []).eraseDups ++
      (discover w config paths).filter fun q => !((expand? w config p).getD []).elem q := by
  rw [discover, List.flatMap_cons, List.eraseDups_append, List.removeAll, eraseDups_filter]
  rfl

/-- The first listed path that yields one of the two files yields `q`, and if it yields both, `q` is
not behind the other in the order of paths. -/
inductive Precedes (w : Workspace) (config : Config) : List Path → Path → Path → Prop
  | here {p : Path} {paths : List Path} {q q' : Path} : Yields w config p q →
    (Yields w config p q' → q.le q') → Precedes w config (p :: paths) q q'
  | later {p : Path} {paths : List Path} {q q' : Path} : ¬Yields w config p q →
    ¬Yields w config p q' → Precedes w config paths q q' → Precedes w config (p :: paths) q q'

theorem Precedes.antisymm (h : Precedes w config paths q q') (h' : Precedes w config paths q' q) :
    q = q' := by
  induction h with
  | here hq hle =>
    cases h' with
    | here hq' hle' => exact Path.le_antisymm (hle hq') (hle' hq)
    | later _ hnone => exact absurd hq hnone
  | later _ hnone _ ih =>
    cases h' with
    | here hq' => exact absurd hq' hnone
    | later _ _ h' => exact ih h'

theorem discover_pairwise (hw : w.tree.WellFormed) :
    (discover w config paths).Pairwise (Precedes w config paths) := by
  have hyields {p q : Path} : q ∈ (expand? w config p).getD [] ↔ Yields w config p q :=
    mem_expand?_iff hw
  induction paths with
  | nil => exact .nil
  | cons p paths ih =>
    rw [discover_cons, List.pairwise_append]
    refine ⟨?_, ?_, fun q hq q' hq' => ?_⟩
    · refine ((expand?_pairwise w config p).sublist (eraseDups_sublist _)).imp_of_mem ?_
      intro q q' hq _ hle
      exact .here (hyields.1 (List.mem_eraseDups.1 hq)) fun _ => hle
    · refine (ih.sublist List.filter_sublist).imp_of_mem fun hq hq' h => ?_
      simp only [List.mem_filter, Bool.not_eq_true', List.elem_eq_mem, decide_eq_false_iff_not,
        hyields] at hq hq'
      exact .later hq.2 hq'.2 h
    · simp only [List.mem_filter, Bool.not_eq_true', List.elem_eq_mem, decide_eq_false_iff_not,
        hyields] at hq'
      exact .here (hyields.1 (List.mem_eraseDups.1 hq)) fun hboth => absurd hboth hq'.2

/-- Each file that a listed path yields, once, in the order of discovery. -/
structure IsDiscovery (w : Workspace) (config : Config) (paths found : List Path) : Prop where
  once : found.Nodup
  yielded : ∀ q, q ∈ found ↔ ∃ p ∈ paths, Yields w config p q
  ordered : found.Pairwise (Precedes w config paths)

theorem isDiscovery_discover (hw : w.tree.WellFormed) :
    IsDiscovery w config paths (discover w config paths) where
  once := nodup_discover ..
  yielded q := by simp only [mem_discover, mem_expand?_iff hw]
  ordered := discover_pairwise hw

/-- There is only one such list. -/
theorem IsDiscovery.eq (h : IsDiscovery w config paths found)
    (h' : IsDiscovery w config paths found') : found = found' := by
  have hperm : found.Perm found' := by
    rw [List.perm_ext_iff_of_nodup h.once h'.once]
    exact fun q => (h.yielded q).trans (h'.yielded q).symm
  exact hperm.eq_of_pairwise (fun _ _ _ _ => Precedes.antisymm) h.ordered h'.ordered

theorem expand?_of_not_doesExist (h : ¬w.doesExist p) : expand? w config p = none := by
  have hfile : ¬w.isFile p := by
    intro hfile
    obtain ⟨bytes, hbytes⟩ := Workspace.isFile_iff.1 hfile
    exact h (Workspace.doesExist_of_readBytes hbytes)
  have hdirectory : ¬w.isDirectory p := fun hp => h (Workspace.doesExist_of_isDirectory hp)
  rw [expand?, if_neg hfile, if_neg hdirectory]

theorem discover_filter_doesExist (w : Workspace) (config : Config) (paths : List Path) :
    discover w config (paths.filter w.doesExist) = discover w config paths := by
  induction paths with
  | nil => rfl
  | cons p paths ih =>
    by_cases hp : w.doesExist p
    · rw [List.filter_cons_of_pos hp, discover_cons, discover_cons, ih]
    · rw [List.filter_cons_of_neg hp, ih, discover_cons, expand?_of_not_doesExist hp]
      simp

/-- What is discovered is the list of the files that the listed paths yield, once each, first by the
listed path that yields them and then in the order of paths. Listed paths at which there is nothing
make no difference. -/
theorem files_discovered (hw : w.tree.WellFormed) (config : Config) (paths : List Path) :
    (∀ found, discover w config paths = found ↔ IsDiscovery w config paths found) ∧
      discover w config (paths.filter w.doesExist) = discover w config paths := by
  refine ⟨fun found => ?_, discover_filter_doesExist w config paths⟩
  constructor
  · rintro rfl
    exact isDiscovery_discover hw
  · exact (isDiscovery_discover hw).eq

/-- A directory with a generated file in it. -/
def generated : Workspace where
  location := ⟨"/", ["w"]⟩
  tree := .directory [("notes.md", .file []),
    ("src", .directory [("gen", .directory [("a.tsx", .file [])]), ("a.tsx", .file [])])]

theorem generated_wellFormed : generated.tree.WellFormed := by
  refine .directory (by decide) (by decide) ?_
  refine List.forall_mem_cons.2 ⟨.file _, List.forall_mem_singleton.2 ?_⟩
  refine .directory (by decide) (by decide) ?_
  refine List.forall_mem_cons.2 ⟨?_, List.forall_mem_singleton.2 (.file _)⟩
  exact .directory (by decide) (by decide) (List.forall_mem_singleton.2 (.file _))

def withoutGenerated : Config := { Config.default with excluded := ["gen/**"] }

theorem expand?_generated :
    expand? generated withoutGenerated ⟨"", ["src"]⟩ = some [⟨"", ["src", "a.tsx"]⟩] ∧
      expand? generated withoutGenerated ⟨"", ["src", "gen"]⟩ =
        some [⟨"", ["src", "gen", "a.tsx"]⟩] := by
  have hsrc : generated.filesBelow ⟨"", ["src"]⟩ =
      [⟨"", ["src", "a.tsx"]⟩, ⟨"", ["src", "gen", "a.tsx"]⟩] := by
    have hle : Path.le ⟨"", ["src", "gen", "a.tsx"]⟩ ⟨"", ["src", "a.tsx"]⟩ = false := by decide
    show List.mergeSort [⟨"", ["src", "gen", "a.tsx"]⟩, ⟨"", ["src", "a.tsx"]⟩] Path.le = _
    simp [List.mergeSort, hle]
  have hgen : generated.filesBelow ⟨"", ["src", "gen"]⟩ = [⟨"", ["src", "gen", "a.tsx"]⟩] :=
    List.mergeSort_singleton _
  have hplain : isSelected withoutGenerated "a.tsx" = true := by cbv
  have hexcluded : isSelected withoutGenerated "gen/a.tsx" = false := by cbv
  constructor
  · show some (List.filter _ (generated.filesBelow ⟨"", ["src"]⟩)) = _
    rw [hsrc]
    simp [hplain, hexcluded]
  · show some (List.filter _ (generated.filesBelow ⟨"", ["src", "gen"]⟩)) = _
    rw [hgen]
    simp [hplain]

/-- The excluded file is found from the directory that is listed before, and not again. -/
theorem files_discovered_generated : generated.tree.WellFormed ∧
    IsDiscovery generated withoutGenerated
      [⟨"", ["notes.md"]⟩, ⟨"", ["src", "gen"]⟩, ⟨"", ["lost"]⟩, ⟨"", ["src"]⟩]
      [⟨"", ["notes.md"]⟩, ⟨"", ["src", "gen", "a.tsx"]⟩, ⟨"", ["src", "a.tsx"]⟩] := by
  have hfile : expand? generated withoutGenerated ⟨"", ["notes.md"]⟩ =
      some [⟨"", ["notes.md"]⟩] := rfl
  have hlost : expand? generated withoutGenerated ⟨"", ["lost"]⟩ = none := rfl
  obtain ⟨hsrc, hgen⟩ := expand?_generated
  refine ⟨generated_wellFormed, ((files_discovered generated_wellFormed _ _).1 _).1 ?_⟩
  simp only [discover, List.flatMap_cons, List.flatMap_nil, hfile, hgen, hlost, hsrc]
  decide

end DesignTokens.Project
