import DesignTokens.File.Workspace
import DesignTokens.Proofs.Path.Order
import DesignTokens.Proofs.Path.Text
import DesignTokens.Proofs.Text.Reading
import DesignTokens.Proofs.Value.Table

/-!
# Files below a directory

In a well-formed tree the names that `files` lists lead to files (`WellFormed.find_of_mem_files`),
also from the top of a workspace (`exists_of_mem_filesBelow`). All files are listed
(`mem_filesBelow`), in the order of their paths (`filesBelow_pairwise`).
-/

namespace DesignTokens

namespace FileTree

/-- The name of something in a directory; dots and double dots lead elsewhere. -/
def IsEntryName (n : String) : Prop := Path.IsName n ∧ n ≠ ".."

instance (n : String) : Decidable (IsEntryName n) :=
  inferInstanceAs (Decidable ((n ≠ "" ∧ n ≠ "." ∧ '/' ∉ n.toList) ∧ n ≠ ".."))

/-- What stands in a directory has names of its own. -/
inductive WellFormed : FileTree → Prop
  | file (bytes : List UInt8) : WellFormed (file bytes)
  | directory {es : List (String × FileTree)} (distinct : Table.Distinct es)
      (names : ∀ e ∈ es, IsEntryName e.1) (trees : ∀ e ∈ es, WellFormed e.2) :
      WellFormed (directory es)

variable {t u : FileTree} {es : List (String × FileTree)} {ms ns : List String}

theorem mem_entriesFiles : ns ∈ entriesFiles es ↔ ∃ e ∈ es, ∃ ms ∈ e.2.files, ns = e.1 :: ms := by
  induction es with
  | nil => simp [entriesFiles]
  | cons e es ih =>
    rw [entriesFiles, List.mem_append, ih, List.exists_mem_cons_iff, entryFiles, List.mem_map]
    simp only [eq_comm]

theorem WellFormed.find_of_mem_files (h : t.WellFormed) (hns : ns ∈ t.files) :
    (∀ n ∈ ns, IsEntryName n) ∧ ∃ bytes, t.find ns = .ok (.file bytes) := by
  induction h generalizing ns with
  | file bytes =>
    obtain rfl := List.mem_singleton.1 hns
    exact ⟨nofun, bytes, rfl⟩
  | directory hdistinct hnames _ ih =>
    obtain ⟨e, he, ms, hms, rfl⟩ := mem_entriesFiles.1 hns
    obtain ⟨hvalid, bytes, hfind⟩ := ih e he hms
    refine ⟨List.forall_mem_cons.2 ⟨hnames e he, hvalid⟩, bytes, ?_⟩
    rw [find, hdistinct.get?_of_mem he]
    exact hfind

theorem mem_files_of_find {bytes : List UInt8} (h : t.find ns = .ok (.file bytes)) :
    ns ∈ t.files := by
  induction ns generalizing t with
  | nil =>
    rw [find] at h
    cases h
    exact List.mem_singleton.2 rfl
  | cons n ns ih =>
    cases t with
    | file bytes => cases h
    | directory es =>
      rw [find] at h
      split at h
      · cases h
      · rename_i u hget
        obtain ⟨e, he, rfl⟩ := Option.map_eq_some_iff.1 hget
        have hname : e.1 = n := by simpa using List.find?_some he
        exact mem_entriesFiles.2
          ⟨e, List.mem_of_find?_eq_some he, ns, ih h, congrArg (· :: ns) hname.symm⟩

theorem find_append (h : t.find ns = .ok u) (ms : List String) :
    t.find (ns ++ ms) = u.find ms := by
  induction ns generalizing t with
  | nil =>
    rw [find] at h
    cases h
    rfl
  | cons n ns ih =>
    cases t with
    | file bytes => cases h
    | directory es =>
      rw [List.cons_append]
      rw [find] at h ⊢
      split at h
      · cases h
      · exact ih h

theorem WellFormed.find (h : t.WellFormed) (hu : t.find ns = .ok u) : u.WellFormed := by
  induction ns generalizing t with
  | nil =>
    rw [FileTree.find] at hu
    cases hu
    exact h
  | cons n ns ih =>
    cases h with
    | file bytes => cases hu
    | directory hdistinct hnames htrees =>
      rw [FileTree.find] at hu
      split at hu
      · cases hu
      · rename_i t' hget
        obtain ⟨e, he, rfl⟩ := Option.map_eq_some_iff.1 hget
        exact ih (htrees e (List.mem_of_find?_eq_some he)) hu

/-- The names that one more name leads to. -/
def enter (t : FileTree) (front : List String) (n : String) : Except FileCause (List String) :=
  if n = ".." then do
    unless (← t.find front).isDirectory do throw .notADirectory
    if front.isEmpty then throw .notFound
    return front.dropLast
  else .ok (front ++ [n])

theorem simplify_cons (t : FileTree) (front : List String) (n : String) (ns : List String) :
    t.simplify front (n :: ns) = t.enter front n >>= fun front' => t.simplify front' ns := by
  rw [simplify, enter]
  split
  · cases t.find front with
    | error c => rfl
    | ok u =>
      cases u with
      | file bytes => rfl
      | directory es => cases front <;> rfl
  · rfl

theorem simplify_append (t : FileTree) (front ns ms : List String) :
    t.simplify front (ns ++ ms) = t.simplify front ns >>= fun front' => t.simplify front' ms := by
  induction ns generalizing front with
  | nil => rfl
  | cons n ns ih =>
    rw [List.cons_append, simplify_cons, simplify_cons, bind_assoc]
    simp only [ih]

theorem simplify_of_names (t : FileTree) (front : List String) (h : ∀ n ∈ ns, n ≠ "..") :
    t.simplify front ns = .ok (front ++ ns) := by
  induction ns generalizing front with
  | nil => rw [simplify, List.append_nil]
  | cons n ns ih =>
    obtain ⟨hn, hns⟩ := List.forall_mem_cons.1 h
    rw [simplify, if_neg hn, ih _ hns, List.append_assoc]
    rfl

end FileTree

namespace Workspace

open FileTree (IsEntryName)

variable {w : Workspace} {p q : Path} {t : FileTree} {bytes : List UInt8} {ms ns : List String}

theorem names_join (h : w.names p = .ok ns) (hms : ∀ n ∈ ms, n ≠ "..") :
    w.names (p.join ⟨"", ms⟩) = .ok (ns ++ ms) := by
  have hsimplify {front : List String} (hfront : w.tree.simplify [] front = .ok ns) :
      w.tree.simplify [] (front ++ ms) = .ok (ns ++ ms) := by
    rw [FileTree.simplify_append, hfront]
    exact w.tree.simplify_of_names ns hms
  have habsolute : (Path.mk p.root (p.names ++ ms)).isAbsolute = p.isAbsolute := rfl
  rw [Path.join_names, names, habsolute]
  rw [names] at h
  split at h
  · rename_i hp
    split at h
    · rename_i hlocation
      obtain ⟨hroot, hfront⟩ := hlocation
      rw [List.isPrefixOf_iff_prefix] at hfront
      have hfront' := List.isPrefixOf_iff_prefix.2 (hfront.trans (List.prefix_append _ ms))
      rw [if_pos hp, if_pos ⟨hroot, hfront'⟩, List.drop_append_of_le_length hfront.length_le]
      exact hsimplify h
    · cases h
  · rename_i hp
    rw [if_neg hp]
    exact hsimplify h

theorem find_join (h : w.find p = .ok t) (hms : ∀ n ∈ ms, n ≠ "..") :
    w.find (p.join ⟨"", ms⟩) = t.find ms := by
  obtain ⟨ns, hns, ht⟩ := ok_of_bind h
  rw [find, names_join hns hms]
  exact FileTree.find_append ht ms

theorem find_wellFormed (hw : w.tree.WellFormed) (h : w.find p = .ok t) : t.WellFormed := by
  obtain ⟨ns, -, ht⟩ := ok_of_bind h
  exact hw.find ht

theorem readBytes_eq_ok_iff : w.readBytes p = .ok bytes ↔ w.find p = .ok (.file bytes) := by
  unfold readBytes
  split <;> simp_all

theorem isFile_iff : w.isFile p ↔ ∃ bytes, w.readBytes p = .ok bytes := by
  simp only [readBytes_eq_ok_iff]
  unfold isFile
  cases w.find p with
  | error c => simp [Except.toOption]
  | ok t => cases t <;> simp [Except.toOption, FileTree.isDirectory]

theorem doesExist_of_readBytes (h : w.readBytes p = .ok bytes) : w.doesExist p := by
  rw [doesExist, readBytes_eq_ok_iff.1 h]
  rfl

theorem readText_of_readBytes (h : w.readBytes p = .ok bytes) :
    w.readText p = ((Text.decodeUtf8 bytes).mapError .encoding).map Text.unifyNewlines := by
  unfold readText
  rw [h]
  rfl

/-- The bytes of the file are no text. -/
def Undecodable (w : Workspace) (p : Path) : Prop :=
  ∃ bytes f, w.readBytes p = .ok bytes ∧ Text.decodeUtf8 bytes = .error f

theorem undecodable_iff (h : w.readBytes p = .ok bytes) :
    w.Undecodable p ↔ ∃ f, w.readText p = .error f := by
  rw [readText_of_readBytes h]
  constructor
  · rintro ⟨bytes', f, hbytes, hf⟩
    obtain rfl := Except.ok.inj (h.symm.trans hbytes)
    exact ⟨.encoding f, by rw [hf]; rfl⟩
  · rintro ⟨f, hf⟩
    cases hdecode : Text.decodeUtf8 bytes with
    | ok s =>
      rw [hdecode] at hf
      cases hf
    | error f' => exact ⟨bytes, f', h, hdecode⟩

theorem isDirectory_eq_false_of_isFile (h : w.isFile p) : w.isDirectory p = false := by
  obtain ⟨bytes, hbytes⟩ := isFile_iff.1 h
  rw [isDirectory, readBytes_eq_ok_iff.1 hbytes]
  rfl

theorem doesExist_of_isDirectory (h : w.isDirectory p) : w.doesExist p := by
  rw [isDirectory] at h
  rw [doesExist]
  cases hp : w.find p with
  | error c =>
    rw [hp] at h
    cases h
  | ok t => rfl

/-- What is listed below a directory are paths of files. -/
theorem exists_of_mem_filesBelow (hw : w.tree.WellFormed) (hq : q ∈ w.filesBelow p) :
    (∃ ns, (∀ n ∈ ns, IsEntryName n) ∧ q = p.join ⟨"", ns⟩) ∧
      ∃ bytes, w.readBytes q = .ok bytes := by
  unfold filesBelow at hq
  split at hq
  · rename_i t ht
    obtain ⟨ns, hns, rfl⟩ := List.mem_map.1 (List.mem_mergeSort.1 hq)
    obtain ⟨hnames, bytes, hbytes⟩ := (find_wellFormed hw ht).find_of_mem_files hns
    refine ⟨⟨ns, hnames, rfl⟩, bytes, readBytes_eq_ok_iff.2 ?_⟩
    rw [find_join ht fun n hn => (hnames n hn).2, hbytes]
  · cases hq

/-- Every file below a directory is listed. -/
theorem mem_filesBelow (hp : w.doesExist p) (hns : ∀ n ∈ ns, IsEntryName n)
    (h : w.isFile (p.join ⟨"", ns⟩)) : p.join ⟨"", ns⟩ ∈ w.filesBelow p := by
  obtain ⟨bytes, hbytes⟩ := isFile_iff.1 h
  rw [readBytes_eq_ok_iff] at hbytes
  unfold filesBelow
  cases ht : w.find p with
  | error c =>
    rw [doesExist, ht] at hp
    cases hp
  | ok t =>
    rw [find_join ht fun n hn => (hns n hn).2] at hbytes
    exact List.mem_mergeSort.2 (List.mem_map_of_mem (FileTree.mem_files_of_find hbytes))

theorem filesBelow_pairwise (w : Workspace) (p : Path) :
    (w.filesBelow p).Pairwise fun q q' => q.le q' := by
  unfold filesBelow
  split
  · exact List.pairwise_mergeSort Path.le_trans Path.le_total _
  · exact .nil

end Workspace

end DesignTokens
