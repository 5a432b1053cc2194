import DesignTokens.Lint.Diagnostic
import DesignTokens.Proofs.Text.Location

/-!
# Diagnostics in order of place

`Diagnostic.le` orders by file and then by location (`le_iff`). Sorting by it keeps every report
(`sort_perm`), some of them are sorted as they are among all (`sort_filter`), and those that agree
in their place stay in the order in which they were made (`filter_sort`). So files may come in any
order before they are sorted (`sort_eq_of_filter_file`).
-/

namespace DesignTokens.Lint.Diagnostic

variable {a b c d : Diagnostic} {ds : List Diagnostic}

theorem le_iff : a.le b ↔ a.file < b.file ∨ a.file = b.file ∧ a.location ≤ b.location := by
  unfold le
  split
  · rename_i hfile
    simp [hfile]
  · rename_i hfile
    rw [ne_eq, Classical.not_not] at hfile
    have hirrefl := String.lt_irrefl b.file
    rw [hfile, Location.le_def]
    split
    · rename_i hline
      simp only [decide_eq_true_eq, hirrefl, false_or, true_and, hline, false_and, or_false]
    · rename_i hline
      rw [ne_eq, Classical.not_not] at hline
      simp only [decide_eq_true_eq, hirrefl, false_or, true_and, hline, Nat.lt_irrefl]

theorem le_trans (a b c : Diagnostic) (h : a.le b) (h' : b.le c) : a.le c := by
  rw [le_iff, Location.le_def] at *
  rcases h with h | ⟨h, hab⟩
  · rcases h' with h' | ⟨h', -⟩
    · exact .inl (String.lt_trans h h')
    · exact .inl (h' ▸ h)
  · rcases h' with h' | ⟨h', hbc⟩
    · exact .inl (h ▸ h')
    · exact .inr ⟨h.trans h', by omega⟩

theorem le_total (a b : Diagnostic) : a.le b || b.le a := by
  rw [Bool.or_eq_true, le_iff, le_iff, Location.le_def, Location.le_def]
  by_cases hab : a.file < b.file
  · exact .inl (.inl hab)
  by_cases hba : b.file < a.file
  · exact .inr (.inl hba)
  have hfile := String.le_antisymm (String.not_lt.1 hba) (String.not_lt.1 hab)
  have hline : (a.location.line < b.location.line ∨
      a.location.line = b.location.line ∧ a.location.column ≤ b.location.column) ∨
      b.location.line < a.location.line ∨
      b.location.line = a.location.line ∧ b.location.column ≤ a.location.column := by omega
  rcases hline with hline | hline
  · exact .inl (.inr ⟨hfile, hline⟩)
  · exact .inr (.inr ⟨hfile.symm, hline⟩)

theorem sort_perm (ds : List Diagnostic) : (sort ds).Perm ds := List.mergeSort_perm ds le

theorem sort_pairwise (ds : List Diagnostic) : (sort ds).Pairwise fun a b => a.le b :=
  List.pairwise_mergeSort le_trans le_total ds

/-- A report stands between those that must stand before it and the others. -/
theorem sort_cons (d : Diagnostic) (ds : List Diagnostic) :
    sort ds = (sort ds).filter (!d.le ·) ++ (sort ds).filter (d.le ·) ∧
      sort (d :: ds) = (sort ds).filter (!d.le ·) ++ d :: (sort ds).filter (d.le ·) := by
  obtain ⟨before, after, hcons, hsort, hbefore⟩ := List.mergeSort_cons le_trans le_total d ds
  have hsort : sort ds = before ++ after := hsort
  have hsorted : (before ++ d :: after).Pairwise fun a b => a.le b :=
    hcons ▸ sort_pairwise (d :: ds)
  have hafter := (List.pairwise_cons.1 (List.pairwise_append.1 hsorted).2.1).1
  have hleft : (sort ds).filter (!d.le ·) = before := by
    rw [hsort, List.filter_append, List.filter_eq_self.2 hbefore,
      List.filter_eq_nil_iff.2 fun b hb => by simp [hafter b hb], List.append_nil]
  have hright : (sort ds).filter (d.le ·) = after := by
    rw [hsort, List.filter_append, List.filter_eq_self.2 hafter,
      List.filter_eq_nil_iff.2 fun b hb => by simpa using hbefore b hb, List.nil_append]
  rw [hleft, hright]
  exact ⟨hsort, hcons⟩

/-- Some of the reports are sorted as they are among all of them. -/
theorem sort_filter (p : Diagnostic → Bool) (ds : List Diagnostic) :
    sort (ds.filter p) = (sort ds).filter p := by
  induction ds with
  | nil => simp [sort]
  | cons d ds ih =>
    obtain ⟨hsplit, hcons⟩ := sort_cons d ds
    by_cases hd : p d
    · rw [List.filter_cons_of_pos hd, (sort_cons d _).2, ih, hcons, List.filter_append,
        List.filter_cons_of_pos hd]
      simp only [List.filter_filter, Bool.and_comm]
    · rw [List.filter_cons_of_neg hd, ih, hcons, List.filter_append, List.filter_cons_of_neg hd,
        ← List.filter_append, ← hsplit]

/-- Sorting is stable: reports none of which must stand before another keep their order. -/
theorem filter_sort {p : Diagnostic → Bool}
    (h : ∀ a ∈ ds, ∀ b ∈ ds, p a → p b → a.le b) : (sort ds).filter p = ds.filter p := by
  rw [← sort_filter]
  refine List.mergeSort_of_pairwise (List.pairwise_iff_forall_sublist.2 fun hab => ?_)
  have ha := List.mem_filter.1 (hab.subset List.mem_cons_self)
  have hb := List.mem_filter.1 (hab.subset (List.mem_cons_of_mem _ List.mem_cons_self))
  exact h _ ha.1 _ hb.1 ha.2 hb.2

theorem file_le_of_le (h : a.le b) : a.file ≤ b.file := by
  rcases le_iff.1 h with hlt | ⟨heq, -⟩
  · exact String.not_lt.1 fun hlt' => String.lt_irrefl _ (String.lt_trans hlt hlt')
  · exact heq ▸ String.le_refl a.file

section

variable {ds' : List Diagnostic}

theorem mem_iff_of_filter_file (h : ∀ f, ds.filter (·.file = f) = ds'.filter (·.file = f)) :
    d ∈ ds ↔ d ∈ ds' := by
  have hd : d ∈ ds.filter (·.file = d.file) ↔ d ∈ ds'.filter (·.file = d.file) := by
    rw [h d.file]
  simpa using hd

/-- Lists in the order of the files are one list if each file has the same reports in both. -/
theorem eq_of_filter_file (hds : ds.Pairwise fun a b => a.file ≤ b.file)
    (hds' : ds'.Pairwise fun a b => a.file ≤ b.file)
    (h : ∀ f, ds.filter (·.file = f) = ds'.filter (·.file = f)) : ds = ds' := by
  induction ds generalizing ds' with
  | nil =>
    cases ds' with
    | nil => rfl
    | cons b ds' => exact absurd ((mem_iff_of_filter_file h).2 List.mem_cons_self) List.not_mem_nil
  | cons a ds ih =>
    cases ds' with
    | nil => exact absurd ((mem_iff_of_filter_file h).1 List.mem_cons_self) List.not_mem_nil
    | cons b ds' =>
      obtain ⟨ha, hrest⟩ := List.pairwise_cons.1 hds
      obtain ⟨hb, hrest'⟩ := List.pairwise_cons.1 hds'
      have hfile : b.file = a.file := by
        refine String.le_antisymm ?_ ?_
        · rcases List.mem_cons.1 ((mem_iff_of_filter_file h).1 List.mem_cons_self) with hab | hab
          · exact hab ▸ String.le_refl a.file
          · exact hb a hab
        · rcases List.mem_cons.1 ((mem_iff_of_filter_file h).2 List.mem_cons_self) with hba | hba
          · exact hba ▸ String.le_refl b.file
          · exact ha b hba
      have hhead := h a.file
      rw [List.filter_cons_of_pos (by simp), List.filter_cons_of_pos (by simpa using hfile)]
        at hhead
      obtain ⟨rfl, hsame⟩ := List.cons.inj hhead
      refine congrArg (a :: ·) (ih hrest hrest' fun f => ?_)
      by_cases hf : a.file = f
      · exact hf ▸ hsame
      · have hother := h f
        rwa [List.filter_cons_of_neg (by simpa using hf),
          List.filter_cons_of_neg (by simpa using hf)] at hother

/-- Only the order of the reports on each file shows once they are sorted. -/
theorem sort_eq_of_filter_file
    (h : ∀ f, ds.filter (·.file = f) = ds'.filter (·.file = f)) : sort ds = sort ds' := by
  refine eq_of_filter_file ((sort_pairwise ds).imp file_le_of_le)
    ((sort_pairwise ds').imp file_le_of_le) fun f => ?_
  rw [← sort_filter, ← sort_filter, h f]

end

end DesignTokens.Lint.Diagnostic
