import DesignTokens.Path.Basic

/-!
# The order of paths

Paths are ordered by their roots and then by their names (`le_iff`), each two of them one way or the
other (`le_total`), and both ways only if they are one path (`le_antisymm`).
-/

namespace DesignTokens.Path

variable {p q : Path}

theorem le_iff : p.le q ↔ p.root < q.root ∨ p.root = q.root ∧ ¬q.names < p.names := by
  simp [le]

theorem le_trans (p q r : Path) (h : p.le q) (h' : q.le r) : p.le r := by
  rw [le_iff] at *
  rcases h with h | ⟨hroot, hnames⟩
  · rcases h' with h' | ⟨hroot', -⟩
    · exact .inl (String.lt_trans h h')
    · exact .inl (hroot' ▸ h)
  · rcases h' with h' | ⟨hroot', hnames'⟩
    · exact .inl (hroot ▸ h')
    · refine .inr ⟨hroot.trans hroot', ?_⟩
      rw [List.not_lt] at *
      exact List.le_trans hnames hnames'

theorem le_total (p q : Path) : p.le q || q.le p := by
  rw [Bool.or_eq_true, le_iff, le_iff]
  by_cases hpq : p.root < q.root
  · exact .inl (.inl hpq)
  by_cases hqp : q.root < p.root
  · exact .inr (.inl hqp)
  have hroot : p.root = q.root := String.le_antisymm (String.not_lt.1 hqp) (String.not_lt.1 hpq)
  rcases List.le_total p.names q.names with hnames | hnames
  · exact .inl (.inr ⟨hroot, List.not_lt.2 hnames⟩)
  · exact .inr (.inr ⟨hroot.symm, List.not_lt.2 hnames⟩)

theorem le_antisymm (h : p.le q) (h' : q.le p) : p = q := by
  rw [le_iff] at h h'
  have hroot : p.root = q.root := by
    rcases h with h | ⟨hroot, -⟩
    · rcases h' with h' | ⟨hroot, -⟩
      · exact absurd (String.lt_trans h h') (String.lt_irrefl _)
      · exact hroot.symm
    · exact hroot
  rw [hroot] at h h'
  have hnames := (h.resolve_left (String.lt_irrefl _)).2
  have hnames' := (h'.resolve_left (String.lt_irrefl _)).2
  rw [List.not_lt] at hnames hnames'
  exact congr (congrArg Path.mk hroot) (List.le_antisymm hnames hnames')

end DesignTokens.Path
