import DesignTokens.Text.Search
import Mathlib.Data.List.Infix

/-!
# Where a text stands in another

`contains` says that a text stands somewhere (`contains_iff`). A text that begins with a character
can stand only where that character does, so a front without the character cuts short the search for
its first occurrence (`append_cons_inj`, `eraseFirst_append`). Where a text is split at a character,
no piece has it (`not_mem_of_mem_splitOn`).
-/

namespace DesignTokens.Text

variable {c : Char} {front rest front' rest' p s : List Char}

theorem contains_iff : contains p s ↔ p <:+: s := by
  induction s with
  | nil => simp [contains]
  | cons c s ih =>
    rw [contains, Bool.or_eq_true, List.isPrefixOf_iff_prefix, ih, List.infix_cons_iff]

/-- Two splits of a text at the same character: they are one split, or one comes before the
other. -/
theorem append_cons_cases (h : front ++ c :: rest = front' ++ c :: rest') :
    (front' = front ∧ rest' = rest) ∨
      (∃ middle, front' = front ++ c :: middle ∧ rest = middle ++ c :: rest') ∨
      ∃ middle, front = front' ++ c :: middle ∧ rest' = middle ++ c :: rest := by
  rcases List.append_eq_append_iff.1 h with ⟨a, rfl, ha⟩ | ⟨a, rfl, ha⟩
  · rcases List.cons_eq_append_iff.1 ha with ⟨rfl, ha⟩ | ⟨middle, rfl, rfl⟩
    · exact .inl ⟨List.append_nil _, (List.cons.inj ha).2.symm⟩
    · exact .inr (.inl ⟨middle, rfl, rfl⟩)
  · rcases List.cons_eq_append_iff.1 ha with ⟨rfl, ha⟩ | ⟨middle, rfl, rfl⟩
    · exact .inl ⟨(List.append_nil _).symm, (List.cons.inj ha).2⟩
    · exact .inr (.inr ⟨middle, rfl, rfl⟩)

/-- Two splits of a text at the same character: the first occurrence, or a later one. -/
theorem append_cons_inj (hfront : c ∉ front) (h : front ++ c :: rest = front' ++ c :: rest') :
    (front' = front ∧ rest' = rest) ∨
      ∃ middle, front' = front ++ c :: middle ∧ rest = middle ++ c :: rest' := by
  rcases append_cons_cases h with h | h | ⟨middle, rfl, -⟩
  · exact .inl h
  · exact .inr h
  · exact absurd (List.mem_append_right _ List.mem_cons_self) hfront

theorem splitOn_eq (sep : Char) (s : List Char) : splitOn sep s = s.splitOn sep := by
  induction s with
  | nil => rfl
  | cons c s ih =>
    rw [splitOn, ih, List.splitOn_cons_eq_if_modifyHead]
    cases hs : s.splitOn sep with
    | nil => exact absurd hs (List.splitOn_ne_nil _ _)
    | cons w ws => simp

theorem not_mem_of_mem_splitOn (h : p ∈ splitOn c s) : c ∉ p := by
  induction s generalizing p with
  | nil =>
    rw [List.mem_singleton.1 h]
    exact List.not_mem_nil
  | cons d s ih =>
    rw [splitOn] at h
    split at h
    · rcases List.mem_cons.1 h with rfl | h
      · exact List.not_mem_nil
      · exact ih h
    · rename_i hd
      have hcons {w : List Char} (hw : c ∉ w) : c ∉ d :: w := by
        rw [List.mem_cons, not_or]
        exact ⟨Ne.symm hd, hw⟩
      split at h
      · rw [List.mem_singleton.1 h]
        exact hcons List.not_mem_nil
      · rename_i w ws hs
        rw [hs] at ih
        rcases List.mem_cons.1 h with rfl | h
        · exact hcons (ih List.mem_cons_self)
        · exact ih (List.mem_cons_of_mem w h)

theorem mem_withoutFinalNewline (h : c ∈ s) : c ∈ withoutFinalNewline s ∨ c = '\n' := by
  unfold withoutFinalNewline
  split
  · rename_i hlast
    rw [← List.dropLast_append_getLast? '\n' hlast, List.mem_append, List.mem_singleton] at h
    exact h
  · exact .inl h

/-- The text without the first occurrence of `p`. -/
def eraseFirst (p : List Char) : List Char → List Char
  | [] => []
  | c :: s => if p.isPrefixOf (c :: s) then (c :: s).drop p.length else c :: eraseFirst p s

theorem eraseFirst_append (hfront : c ∉ front) (p rest : List Char) :
    eraseFirst (c :: p) (front ++ c :: p ++ rest) = front ++ rest := by
  induction front with
  | nil => simp [eraseFirst]
  | cons d front ih =>
    rw [List.mem_cons, not_or] at hfront
    have hrest := ih hfront.2
    rw [List.append_assoc, List.cons_append] at hrest
    simp [eraseFirst, hfront.1, hrest]

end DesignTokens.Text
