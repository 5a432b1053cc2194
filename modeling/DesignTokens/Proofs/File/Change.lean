import DesignTokens.Proofs.File.Workspace

/-!
# What writing changes

`placed?` says what stands at a place of a tree. Writing a file and making a directory change one
place each (`placed?_put`), so making the directories of a path changes nothing but places that were
empty (`makeDirectories_grows`). Directories stay, and with them the places that paths lead to
(`Grows.names`, `Writes.names`). What was made or written before is not made or written again
(`makeParent_of_exists`, `writeBytes_of_readBytes`).
-/

namespace DesignTokens

/-- What stands at a place, without what is below it. -/
inductive Entry
  | file (bytes : List UInt8)
  | directory
  deriving DecidableEq, Repr

namespace FileTree

def entry : FileTree → Entry
  | file bytes => .file bytes
  | directory _ => .directory

/-- What the names lead to, if they lead anywhere. -/
def placed? (t : FileTree) (ns : List String) : Option Entry := (t.find ns).toOption.map entry

variable {t t' u new : FileTree} {ns ms : List String} {bytes : List UInt8} {c : FileCause}

theorem placed?_of_find (h : t.find ns = .ok u) : t.placed? ns = some u.entry := by
  rw [placed?, h]
  rfl

theorem placed?_of_error (h : t.find ns = .error c) : t.placed? ns = none := by
  rw [placed?, h]
  rfl

theorem placed?_eq_file : t.placed? ns = some (.file bytes) ↔ t.find ns = .ok (.file bytes) := by
  cases h : t.find ns with
  | error c => simp [placed?_of_error h]
  | ok u => cases u <;> simp [placed?_of_find h, entry]

theorem placed?_eq_directory :
    t.placed? ns = some .directory ↔ (t.find ns).toOption.any (·.isDirectory) := by
  cases h : t.find ns with
  | error c => simp [placed?_of_error h, Except.toOption]
  | ok u => cases u <;> simp [placed?_of_find h, Except.toOption, isDirectory, entry]

theorem find_of_directory (h : t.placed? ns = some .directory) :
    ∃ es, t.find ns = .ok (.directory es) := by
  cases hfind : t.find ns with
  | error c => simp [placed?_of_error hfind] at h
  | ok u =>
    cases u with
    | file bytes => simp [placed?_of_find hfind, entry] at h
    | directory es => exact ⟨es, rfl⟩

/-- The tree is a directory if one stands at its top. -/
theorem isDirectory_iff : t.isDirectory ↔ t.placed? [] = some .directory := by
  cases t <;> simp [placed?, find, Except.toOption, isDirectory, entry]

theorem find_append_of_error (h : t.find ns = .error c) (ms : List String) :
    t.find (ns ++ ms) = .error c := by
  induction ns generalizing t with
  | nil => cases h
  | cons n ns ih =>
    cases t with
    | file bytes => exact h
    | directory es =>
      rw [List.cons_append]
      rw [find] at h ⊢
      split at h
      · exact h
      · exact ih h

/-- What leads somewhere leads through directories. -/
theorem placed?_of_append {n : String} (h : t.placed? (ns ++ n :: ms) ≠ none) :
    t.placed? ns = some .directory := by
  cases hns : t.find ns with
  | error c => exact absurd (placed?_of_error (find_append_of_error hns (n :: ms))) h
  | ok u =>
    cases u with
    | directory es => exact placed?_of_find hns
    | file bytes =>
      have hbelow : t.find (ns ++ n :: ms) = .error .notADirectory := find_append hns (n :: ms)
      exact absurd (placed?_of_error hbelow) h

/-! ### Putting something into a tree -/

theorem find_put (h : t.put ns new = .ok t') : t'.find ns = .ok new := by
  fun_induction put t ns new generalizing t' with
  | case1 => cases h; rfl
  | case2 => cases h
  | case3 =>
    cases h
    rw [find, Table.get?_insert_self]
    dsimp only
    rw [find]
  | case4 => cases h
  | case5 es n m ns new t hget ih =>
    obtain ⟨t'', hput, h⟩ := ok_of_bind h
    cases h
    rw [find, Table.get?_insert_self]
    exact ih hput

/-- Places that the names do not lead to, or through, are as they were. -/
theorem placed?_put (h : t.put ns new = .ok t') (hms : ¬ns <+: ms) :
    t'.placed? ms = t.placed? ms := by
  fun_induction put t ns new generalizing t' ms with
  | case1 => exact absurd List.nil_prefix hms
  | case2 => cases h
  | case3 es n new =>
    cases h
    cases ms with
    | nil => rfl
    | cons m ms =>
      have hne : m ≠ n := by
        rintro rfl
        exact hms (List.cons_prefix_cons.2 ⟨rfl, List.nil_prefix⟩)
      rw [placed?, placed?, find, find, Table.get?_insert_of_ne hne]
  | case4 => cases h
  | case5 es n m ns new t hget ih =>
    obtain ⟨t'', hput, h⟩ := ok_of_bind h
    cases h
    cases ms with
    | nil => rfl
    | cons m' ms =>
      by_cases hne : m' = n
      · subst hne
        have hms : ¬m :: ns <+: ms := fun hprefix => hms (List.cons_prefix_cons.2 ⟨rfl, hprefix⟩)
        have hrest := ih hput hms
        rw [placed?, placed?] at hrest ⊢
        rw [find, find, Table.get?_insert_self, hget]
        exact hrest
      · rw [placed?, placed?, find, find, Table.get?_insert_of_ne hne]

/-- What has nothing below it, put where no directory was, changes its own place only. -/
theorem placed?_put_of_ne (h : t.put ns new = .ok t') (hold : t.placed? ns ≠ some .directory)
    (hnew : ∀ n ms, new.placed? (n :: ms) = none) (hne : ms ≠ ns) :
    t'.placed? ms = t.placed? ms := by
  by_cases hms : ns <+: ms
  · obtain ⟨below, rfl⟩ := hms
    cases below with
    | nil => exact absurd (List.append_nil ns) hne
    | cons n below =>
      have hafter : t'.placed? (ns ++ n :: below) = none := by
        rw [placed?, find_append (find_put h)]
        exact hnew n below
      rw [hafter, eq_comm]
      by_contra hbefore
      exact hold (placed?_of_append hbefore)
  · exact placed?_put h hms

/-- What is there already changes nothing. -/
theorem put_find (h : t.find ns = .ok u) : t.put ns u = .ok t := by
  fun_induction put t ns u with
  | case1 t => cases h; rfl
  | case2 => cases h
  | case3 es n u =>
    rw [find] at h
    split at h
    · cases h
    · rename_i t' hget
      cases h
      rw [Table.insert_of_get? hget]
  | case4 => simp_all [find]
  | case5 es n m ns u t' hget ih =>
    rw [find, hget] at h
    rw [ih h]
    exact congrArg (Except.ok <| directory ·) (Table.insert_of_get? hget)

/-! ### Places that paths lead to -/

/-- Directories of `t` are directories of `t'`. -/
def KeepsDirectories (t t' : FileTree) : Prop :=
  ∀ ns, t.placed? ns = some .directory → t'.placed? ns = some .directory

theorem KeepsDirectories.enter (hkeeps : t.KeepsDirectories t') {front : List String} {n : String}
    (h : t.enter front n = .ok ms) : t'.enter front n = .ok ms := by
  unfold FileTree.enter at h ⊢
  split at h
  · rename_i hn
    rw [if_pos hn]
    cases hfind : t.find front with
    | error c =>
      rw [hfind] at h
      cases h
    | ok u =>
      rw [hfind] at h
      cases u with
      | file bytes => cases h
      | directory es =>
        obtain ⟨es', hfind'⟩ := find_of_directory (hkeeps front (placed?_of_find hfind))
        rw [hfind']
        exact h
  · rename_i hn
    rw [if_neg hn]
    exact h

theorem KeepsDirectories.simplify (hkeeps : t.KeepsDirectories t') {front : List String}
    (h : t.simplify front ns = .ok ms) : t'.simplify front ns = .ok ms := by
  induction ns generalizing front with
  | nil => exact h
  | cons n ns ih =>
    rw [simplify_cons] at h ⊢
    obtain ⟨front', hfront, h⟩ := ok_of_bind h
    rw [hkeeps.enter hfront]
    exact ih h

end FileTree

namespace Workspace

open FileTree (KeepsDirectories)

variable {w w' w'' : Workspace} {p q : Path} {root : String} {ns ms : List String}
variable {bytes : List UInt8}

theorem names_mono (hlocation : w'.location = w.location)
    (hkeeps : w.tree.KeepsDirectories w'.tree) (h : w.names p = .ok ns) :
    w'.names p = .ok ns := by
  unfold Workspace.names at h ⊢
  rw [hlocation]
  split at h
  · rename_i hp
    rw [if_pos hp]
    split at h
    · rename_i hprefix
      rw [if_pos hprefix]
      exact hkeeps.simplify h
    · cases h
  · rename_i hp
    rw [if_neg hp]
    exact hkeeps.simplify h

/-- What stands at the end of a path. -/
theorem find_of_names (h : w.names p = .ok ns) : w.find p = w.tree.find ns := by
  rw [find, h]
  rfl

theorem isDirectory_iff :
    w.isDirectory p ↔ ∃ ns, w.names p = .ok ns ∧ w.tree.placed? ns = some .directory := by
  unfold isDirectory
  cases h : w.names p with
  | error c => simp [find, h, bind, Except.bind, Except.toOption]
  | ok ns => simp [find_of_names h, FileTree.placed?_eq_directory]

theorem doesExist_of_names (h : w.names p = .ok ns) :
    w.doesExist p = (w.tree.placed? ns).isSome := by
  rw [doesExist, find_of_names h, FileTree.placed?]
  cases w.tree.find ns <;> rfl

/-! ### Making directories -/

/-- From `w` to `w'` nothing changed but empty places with `made`, which now are directories. -/
structure Grows (made : List String → Prop) (w w' : Workspace) : Prop where
  location : w'.location = w.location
  entries : ∀ ns, w'.tree.placed? ns = w.tree.placed? ns ∨
    w.tree.placed? ns = none ∧ w'.tree.placed? ns = some .directory ∧ made ns

namespace Grows

variable {made made' : List String → Prop}

theorem refl (made : List String → Prop) (w : Workspace) : Grows made w w :=
  ⟨rfl, fun _ => .inl rfl⟩

theorem placed?_eq (h : Grows made w w') {e : Entry} (he : w.tree.placed? ns = some e) :
    w'.tree.placed? ns = some e := by
  rcases h.entries ns with heq | ⟨hnone, -, -⟩
  · rw [heq, he]
  · rw [he] at hnone
    cases hnone

theorem names (h : Grows made w w') (hp : w.names p = .ok ns) : w'.names p = .ok ns :=
  names_mono h.location (fun _ => h.placed?_eq) hp

theorem mono (h : Grows made w w') (hmade : ∀ ns, made ns → made' ns) : Grows made' w w' :=
  ⟨h.location, fun ns => (h.entries ns).imp_right fun ⟨hnone, hdirectory, hns⟩ =>
    ⟨hnone, hdirectory, hmade ns hns⟩⟩

theorem trans (h : Grows made w w') (h' : Grows made w' w'') : Grows made w w'' where
  location := h'.location.trans h.location
  entries ns := by
    rcases h.entries ns with heq | ⟨hnone, hdirectory, hns⟩
    · rw [← heq]
      exact h'.entries ns
    · exact .inr ⟨hnone, h'.placed?_eq hdirectory, hns⟩

end Grows

theorem makeDirectory_eq_ok (h : w.makeDirectory p = .ok w') :
    w'.isDirectory p ∧ Grows (w'.names p = .ok ·) w w' := by
  obtain ⟨ns, hns, h⟩ := ok_of_bind h
  split at h
  · cases h
  · rename_i c hfind
    obtain ⟨t, hput, h⟩ := ok_of_bind h
    cases h
    have hnone := FileTree.placed?_of_error hfind
    have hdirectory : t.placed? ns = some .directory :=
      FileTree.placed?_of_find (FileTree.find_put hput)
    have hentries : ∀ ms, ms ≠ ns → t.placed? ms = w.tree.placed? ms := fun ms =>
      FileTree.placed?_put_of_ne hput (by simp [hnone]) fun _ _ => rfl
    have hnames : Workspace.names { w with tree := t } p = .ok ns := by
      refine names_mono (w := w) rfl (fun ms hms => ?_) hns
      by_cases hne : ms = ns
      · exact hne ▸ hdirectory
      · rw [hentries ms hne, hms]
    refine ⟨isDirectory_iff.2 ⟨ns, hnames, hdirectory⟩, rfl, fun ms => ?_⟩
    by_cases hne : ms = ns
    · exact .inr (hne ▸ ⟨hnone, hdirectory, hnames⟩)
    · exact .inl (hentries ms hne)

/-- The place is on the way that the path leads. -/
def Passes (w : Workspace) (p : Path) (ns : List String) : Prop :=
  ∃ ms, ms <+: p.names ∧ w.names ⟨p.root, ms⟩ = .ok ns

theorem Grows.passes {made : List String → Prop} (h : Grows made w w') (hp : w.Passes p ns) :
    w'.Passes p ns := by
  obtain ⟨ms, hms, hns⟩ := hp
  exact ⟨ms, hms, h.names hns⟩

/-- Only directories on the way are made, and if all went well the last one is there. -/
theorem makeDirectories_grows {ks : List String} {done : Except FileError Unit}
    (h : w.makeDirectories root ks = (done, w')) :
    Grows (w'.Passes ⟨root, ks⟩) w w' ∧ (done = .ok () → w'.isDirectory ⟨root, ks⟩) := by
  have hthere {w : Workspace} {p : Path} {c : FileCause} (h : (if w.isDirectory p then Except.ok ()
      else .error (FileError.mk c p)) = Except.ok ()) : w.isDirectory p := by
    by_contra hnot
    rw [if_neg hnot] at h
    cases h
  have hfront {w w' : Workspace} {ks : List String}
      (h : Grows (w'.Passes ⟨root, ks.dropLast⟩) w w') : Grows (w'.Passes ⟨root, ks⟩) w w' :=
    h.mono fun ns ⟨ms, hms, hns⟩ => ⟨ms, hms.trans (List.dropLast_prefix ks), hns⟩
  have hlast {w w' : Workspace} {ks : List String} (h : Grows (w'.names ⟨root, ks⟩ = .ok ·) w w') :
      Grows (w'.Passes ⟨root, ks⟩) w w' := h.mono fun ns hns => ⟨ks, List.prefix_refl ks, hns⟩
  fun_induction makeDirectories w root ks generalizing done w' with
  | case1 ks _ w₁ =>
    rename_i hmake
    cases h
    obtain ⟨hdirectory, hgrows⟩ := makeDirectory_eq_ok hmake
    exact ⟨hlast hgrows, fun _ => hdirectory⟩
  | case2 =>
    cases h
    exact ⟨.refl _ _, nofun⟩
  | case3 ks _ _ _ _ e w₁ hfirst =>
    rename_i ih
    cases h
    exact ⟨hfront (ih hfirst).1, nofun⟩
  | case4 ks _ _ _ _ w₁ hfirst w₂ hmake =>
    rename_i ih
    cases h
    obtain ⟨hdirectory, hgrows⟩ := makeDirectory_eq_ok hmake
    have hbefore := (hfront (ih hfirst).1).mono fun ns => hgrows.passes
    exact ⟨hbefore.trans (hlast hgrows), fun _ => hdirectory⟩
  | case5 ks _ _ _ _ w₁ hfirst =>
    rename_i ih
    cases h
    exact ⟨hfront (ih hfirst).1, nofun⟩
  | case6 ks _ _ _ _ _ w₁ hfirst =>
    rename_i ih
    cases h
    exact ⟨hfront (ih hfirst).1, hthere⟩
  | case7 =>
    cases h
    exact ⟨.refl _ _, hthere⟩

/-- Nothing is made where the parent is there. -/
theorem makeParent_of_exists (h : w.doesExist p.parent) : w.makeParent p =
    (if w.isDirectory p.parent then .ok () else .error ⟨FileCause.alreadyExists, p.parent⟩, w) := by
  have hmake : w.makeDirectory p.parent = .error .alreadyExists := by
    unfold doesExist find at h
    unfold makeDirectory
    cases hnames : w.names p.parent with
    | error c => simp [hnames, bind, Except.bind, Except.isOk, Except.toBool] at h
    | ok ns =>
      rw [hnames] at h
      cases hfind : w.tree.find ns with
      | error c => simp [hfind, bind, Except.bind, Except.isOk, Except.toBool] at h
      | ok t =>
        dsimp only [bind, Except.bind]
        rw [hfind]
        rfl
  unfold makeParent makeDirectories
  dsimp only
  rw [hmake]

theorem makeParent_grows {done : Except FileError Unit} (h : w.makeParent p = (done, w')) :
    Grows (w'.Passes p.parent) w w' ∧ (done = .ok () → w'.isDirectory p.parent) :=
  makeDirectories_grows h

/-! ### Writing files -/

/-- From `w` to `w'` the file at `p` was written, and nothing else has changed. -/
structure Writes (p : Path) (bytes : List UInt8) (w w' : Workspace) : Prop where
  location : w'.location = w.location
  place : ∃ ns, w.names p = .ok ns ∧ w'.tree.placed? ns = some (.file bytes) ∧
    w.tree.placed? ns ≠ some .directory ∧ ∀ ms, ms ≠ ns → w'.tree.placed? ms = w.tree.placed? ms

theorem writeBytes_eq_ok (h : w.writeBytes p bytes = .ok w') : Writes p bytes w w' := by
  obtain ⟨ns, hns, h⟩ := ok_of_bind (ok_of_mapError h)
  split at h
  · cases h
  · rename_i hold
    rw [← FileTree.placed?_eq_directory] at hold
    obtain ⟨t, hput, h⟩ := ok_of_bind h
    cases h
    exact ⟨rfl, ns, hns, FileTree.placed?_of_find (FileTree.find_put hput), hold,
      fun ms => FileTree.placed?_put_of_ne hput hold fun _ _ => rfl⟩

namespace Writes

theorem keepsDirectories (h : Writes p bytes w w') : w.tree.KeepsDirectories w'.tree := by
  obtain ⟨ns, -, -, hold, helse⟩ := h.place
  intro ms hms
  have hne : ms ≠ ns := by
    rintro rfl
    exact hold hms
  rw [helse ms hne, hms]

theorem names (h : Writes p bytes w w') (hq : w.names q = .ok ns) : w'.names q = .ok ns :=
  names_mono h.location h.keepsDirectories hq

theorem passes (h : Writes p bytes w w') (hq : w.Passes q ns) : w'.Passes q ns := by
  obtain ⟨ms, hms, hns⟩ := hq
  exact ⟨ms, hms, h.names hns⟩

theorem isDirectory (h : Writes p bytes w w') (hq : w.isDirectory q) : w'.isDirectory q := by
  obtain ⟨ns, hns, hdirectory⟩ := isDirectory_iff.1 hq
  exact isDirectory_iff.2 ⟨ns, h.names hns, h.keepsDirectories ns hdirectory⟩

theorem readBytes (h : Writes p bytes w w') : w'.readBytes p = .ok bytes := by
  obtain ⟨ns, hns, hfile, -, -⟩ := h.place
  rw [readBytes_eq_ok_iff, find_of_names (h.names hns)]
  exact FileTree.placed?_eq_file.1 hfile

/-- Other places are as they were. -/
theorem placed?_eq (h : Writes p bytes w w') (hne : w'.names p ≠ .ok ns) :
    w'.tree.placed? ns = w.tree.placed? ns := by
  obtain ⟨ms, hms, -, -, helse⟩ := h.place
  refine helse ns ?_
  rintro rfl
  exact hne (h.names hms)

end Writes

/-- What a file holds already is written without a change. -/
theorem writeBytes_of_readBytes (h : w.readBytes p = .ok bytes) : w.writeBytes p bytes = .ok w := by
  rw [readBytes_eq_ok_iff] at h
  obtain ⟨ns, hns, hfind⟩ := ok_of_bind h
  rw [writeBytes, hns]
  dsimp only [bind, Except.bind]
  rw [hfind, FileTree.put_find hfind]
  rfl

/-- From `w` to `w'` the file at `p` was written and missing directories on the way to it were
made, and nothing else has changed. -/
structure Adds (p : Path) (bytes : List UInt8) (w w' : Workspace) : Prop where
  location : w'.location = w.location
  directories : w.tree.KeepsDirectories w'.tree
  content : w'.readBytes p = .ok bytes
  elsewhere : ∀ ns, w'.names p ≠ .ok ns → w'.tree.placed? ns = w.tree.placed? ns ∨
    w.tree.placed? ns = none ∧ w'.tree.placed? ns = some .directory ∧ w'.Passes p.parent ns

theorem Adds.intro (h : Grows (w'.Passes p.parent) w w') (h' : Writes p bytes w' w'') :
    Adds p bytes w w'' where
  location := h'.location.trans h.location
  directories _ hns := h'.keepsDirectories _ (h.placed?_eq hns)
  content := h'.readBytes
  elsewhere ns hne := by
    rw [h'.placed?_eq hne]
    exact (h.entries ns).imp_right fun ⟨hnone, hdirectory, hpasses⟩ =>
      ⟨hnone, hdirectory, h'.passes hpasses⟩

/-- Another file is read as before. -/
theorem Adds.readBytes (h : Adds p bytes w w') (hq : w.names q = .ok ns)
    (hne : w'.names p ≠ .ok ns) {bytes' : List UInt8} (hread : w.readBytes q = .ok bytes') :
    w'.readBytes q = .ok bytes' := by
  rw [readBytes_eq_ok_iff, find_of_names hq, ← FileTree.placed?_eq_file] at hread
  rw [readBytes_eq_ok_iff, find_of_names (names_mono h.location h.directories hq),
    ← FileTree.placed?_eq_file]
  rcases h.elsewhere ns hne with heq | ⟨hnone, -, -⟩
  · rw [heq, hread]
  · rw [hread] at hnone
    cases hnone

/-! ### Places and resolved paths -/

/-- The names after one more name, whatever they lead to. -/
def step (front : List String) (n : String) : List String :=
  if n = ".." then front.dropLast else front ++ [n]

theorem foldl_step_of_simplify {t : FileTree} {front ks : List String}
    (h : t.simplify front ks = .ok ns) (before : List String) :
    ks.foldl step (before ++ front) = before ++ ns := by
  induction ks generalizing front with
  | nil =>
    cases h
    rfl
  | cons n ks ih =>
    rw [FileTree.simplify_cons] at h
    obtain ⟨front', hfront, h⟩ := ok_of_bind h
    have hstep : step (before ++ front) n = before ++ front' := by
      unfold FileTree.enter at hfront
      unfold step
      split at hfront
      · rename_i hn
        obtain ⟨u, -, hfront⟩ := ok_of_bind hfront
        rw [if_pos hn]
        cases front with
        | nil => cases u <;> cases hfront
        | cons m front =>
          cases u with
          | file bytes => cases hfront
          | directory es =>
            cases hfront
            rw [List.dropLast_append_of_ne_nil (List.cons_ne_nil m front)]
      · rename_i hn
        cases hfront
        rw [if_neg hn, List.append_assoc]
    rw [List.foldl_cons, hstep]
    exact ih h

theorem resolve_of_names (h : w.names p = .ok ns) :
    w.resolve p = ⟨w.location.root, w.location.names.foldl step [] ++ ns⟩ := by
  have hresolve : w.resolve p =
      ⟨(w.location.join p).root, (w.location.join p).names.foldl step []⟩ := rfl
  have hfold {ks : List String} (hks : w.tree.simplify [] ks = .ok ns) :
      (w.location.names ++ ks).foldl step [] = w.location.names.foldl step [] ++ ns := by
    rw [List.foldl_append, ← foldl_step_of_simplify hks, List.append_nil]
  rw [hresolve, Path.join]
  unfold Workspace.names at h
  split at h
  · rename_i hp
    split at h
    · rename_i hlocation
      obtain ⟨hroot, hprefix⟩ := hlocation
      obtain ⟨ks, hks⟩ := List.isPrefixOf_iff_prefix.1 hprefix
      rw [← hks, List.drop_left] at h
      rw [if_pos hp, hroot, ← hks, hfold h]
    · cases h
  · rename_i hp
    rw [if_neg hp]
    exact congrArg (Path.mk _) (hfold h)

/-- Paths that are resolved to different ones lead to different places. -/
theorem names_ne_of_resolve_ne (h : w.resolve p ≠ w.resolve q) (hq : w.names q = .ok ns) :
    w.names p ≠ .ok ns := by
  intro hp
  rw [resolve_of_names hp, resolve_of_names hq] at h
  exact h rfl

theorem resolve_congr (h : w'.location = w.location) (p : Path) : w'.resolve p = w.resolve p := by
  unfold resolve
  rw [h]

/-! ### Children of a directory -/

theorem names_child {n : String} (hn : n ≠ "..") (h : w.names p = .ok ns) :
    w.names (p.child n) = .ok (ns ++ [n]) :=
  names_join h (List.forall_mem_singleton.2 hn)

/-- A path to something below the top leads through its parent. -/
theorem names_of_child {n : String} (hn : n ≠ "..") (h : w.names (p.child n) = .ok ns)
    (hne : ns ≠ []) : ∃ ms, w.names p = .ok ms ∧ ns = ms ++ [n] := by
  have hsimplify {ks : List String} (hks : w.tree.simplify [] (ks ++ [n]) = .ok ns) :
      ∃ ms, w.tree.simplify [] ks = .ok ms ∧ ns = ms ++ [n] := by
    rw [FileTree.simplify_append] at hks
    obtain ⟨ms, hms, hks⟩ := ok_of_bind hks
    rw [FileTree.simplify_of_names _ _ (List.forall_mem_singleton.2 hn)] at hks
    exact ⟨ms, hms, (Except.ok.inj hks).symm⟩
  have habsolute : (p.child n).isAbsolute = p.isAbsolute := rfl
  unfold Workspace.names at h ⊢
  rw [habsolute] at h
  split at h
  · rename_i hp
    split at h
    · rename_i hlocation
      obtain ⟨hroot, hprefix⟩ := hlocation
      rw [List.isPrefixOf_iff_prefix, Path.child, List.prefix_concat_iff] at hprefix
      rcases hprefix with heq | hprefix
      · -- the path leads to the top itself
        rw [Path.child, ← heq, List.drop_length] at h
        cases h
        exact absurd rfl hne
      · rw [Path.child, List.drop_append_of_le_length hprefix.length_le] at h
        rw [if_pos hp, if_pos ⟨hroot, List.isPrefixOf_iff_prefix.2 hprefix⟩]
        exact hsimplify h
    · cases h
  · rename_i hp
    rw [if_neg hp]
    exact hsimplify h

end Workspace

end DesignTokens
