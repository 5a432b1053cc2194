import DesignTokens.Proofs.File.Change

/-!
# Files that are written over

The outline of a tree is what it shows without its bytes: its directories and the names that lead to
its files. A file that is written over leaves the outline of every place as it was
(`sameOutline_put`), so paths lead where they led before and the same files are below them. All
other files are as before (`readBytes_of_writeBytes`).
-/

namespace DesignTokens

namespace FileTree

variable {t t' u u' : FileTree} {es : List (String × FileTree)} {n : String} {ns : List String}

/-- The same is found, but for the bytes of files. -/
inductive Similar : Except FileCause FileTree → Except FileCause FileTree → Prop
  | error (c : FileCause) : Similar (.error c) (.error c)
  | ok {u u' : FileTree} : u'.isDirectory = u.isDirectory → u'.files = u.files →
    Similar (.ok u) (.ok u')

/-- Names lead to what is similar. -/
def SameOutline (t t' : FileTree) : Prop := ∀ ns, Similar (t.find ns) (t'.find ns)

theorem Similar.refl (x : Except FileCause FileTree) : Similar x x := by
  cases x with
  | error c => exact .error c
  | ok u => exact .ok rfl rfl

/-- What is asked of both but their bytes has one answer. -/
theorem Similar.congr {α : Type} {f : Except FileCause FileTree → α}
    {x x' : Except FileCause FileTree} (h : Similar x x')
    (hf : ∀ u u', u'.isDirectory = u.isDirectory → u'.files = u.files → f (.ok u') = f (.ok u)) :
    f x' = f x := by
  cases h with
  | error c => rfl
  | ok hdirectory hfiles => exact hf _ _ hdirectory hfiles

theorem SameOutline.files (h : t.SameOutline t') : t'.files = t.files := by
  have htop := h []
  rw [find, find] at htop
  cases htop with
  | ok _ hfiles => exact hfiles

theorem SameOutline.enter (h : t.SameOutline t') (front : List String) (n : String) :
    t'.enter front n = t.enter front n := by
  have hfront := h front
  unfold FileTree.enter
  generalize t.find front = x, t'.find front = x' at hfront ⊢
  cases hfront with
  | error c => rfl
  | ok hdirectory _ => simp only [bind, Except.bind, hdirectory]

theorem SameOutline.simplify (h : t.SameOutline t') (front ns : List String) :
    t'.simplify front ns = t.simplify front ns := by
  induction ns generalizing front with
  | nil => rfl
  | cons n ns ih =>
    rw [simplify_cons, simplify_cons, h.enter]
    simp only [ih]

end FileTree

namespace Workspace

open FileTree (Similar)

variable {w w' : Workspace} {p q : Path} {bytes bytes' : List UInt8}

/-- The same files and directories stand in the same places. -/
structure SameOutline (w w' : Workspace) : Prop where
  location : w'.location = w.location
  tree : w.tree.SameOutline w'.tree

namespace SameOutline

theorem names (h : w.SameOutline w') (p : Path) : w'.names p = w.names p := by
  unfold Workspace.names
  rw [h.location, h.tree.simplify, h.tree.simplify]

theorem find (h : w.SameOutline w') (p : Path) : Similar (w.find p) (w'.find p) := by
  unfold Workspace.find
  rw [h.names]
  cases w.names p with
  | error c => exact .error c
  | ok ns => exact h.tree ns

theorem isFile (h : w.SameOutline w') (p : Path) : w'.isFile p = w.isFile p := by
  refine (h.find p).congr (f := fun x => x.toOption.any (!·.isDirectory)) ?_
  intro u u' hdirectory _
  simp [Except.toOption, hdirectory]

theorem isDirectory (h : w.SameOutline w') (p : Path) : w'.isDirectory p = w.isDirectory p := by
  refine (h.find p).congr (f := fun x => x.toOption.any (·.isDirectory)) ?_
  intro u u' hdirectory _
  simp [Except.toOption, hdirectory]

theorem filesBelow (h : w.SameOutline w') (p : Path) : w'.filesBelow p = w.filesBelow p := by
  have hfind := h.find p
  unfold Workspace.filesBelow
  generalize w.find p = x, w'.find p = x' at hfind ⊢
  cases hfind with
  | error c => rfl
  | ok _ hfiles => simp only [hfiles]

end SameOutline

end Workspace

end DesignTokens
