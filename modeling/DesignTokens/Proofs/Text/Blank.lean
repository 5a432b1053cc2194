import Mathlib.Data.List.TakeWhile
import DesignTokens.Text.Blank

/-!
# Words, and text without blanks
-/

namespace DesignTokens.Text

variable {s w : List Char}

/-- The words of a text stand in it; the first one stands at its front if no blank does. -/
theorem words_stand (s : List Char) :
    (∀ w ∈ words s, w <:+: s) ∧
      (s.head?.all isBlank = false → ∀ w ∈ (words s).head?, w <+: s) := by
  induction s with
  | nil => simp [words]
  | cons c s ih =>
    obtain ⟨ihAll, ihFirst⟩ := ih
    have hkeep : ∀ w ∈ words s, w <:+: c :: s := fun w hw =>
      (ihAll w hw).trans (List.suffix_cons c s).isInfix
    rw [words]
    split
    · rename_i hc
      exact ⟨hkeep, by simp [hc]⟩
    · rename_i w ws _ hs hws
      have hw : c :: w <+: c :: s := by
        rw [List.cons_prefix_cons]
        exact ⟨rfl, ihFirst hs w (by simp [hws])⟩
      refine ⟨fun v hv => ?_, fun _ v hv => ?_⟩
      · rcases List.mem_cons.1 hv with rfl | hv
        · exact hw.isInfix
        · exact hkeep v (by simp [hws, hv])
      · cases hv
        exact hw
    · have hw : [c] <+: c :: s := ⟨s, rfl⟩
      refine ⟨fun v hv => ?_, fun _ v hv => ?_⟩
      · rcases List.mem_cons.1 hv with rfl | hv
        · exact hw.isInfix
        · exact hkeep v hv
      · cases hv
        exact hw

theorem infix_of_mem_words (hw : w ∈ words s) : w <:+: s := (words_stand s).1 w hw

theorem isBlank_of_isAsciiDigit {c : Char} (h : isAsciiDigit c) : isBlank c = false := by
  rw [isAsciiDigit, Bool.and_eq_true, decide_eq_true_eq, decide_eq_true_eq, Char.le_def,
    Char.le_def] at h
  have hlow : 48 ≤ c.toNat := h.1
  have hhigh : c.toNat ≤ 57 := h.2
  simp only [isBlank, inRanges, blanks, List.any_cons, List.any_nil, Bool.or_false,
    Bool.or_eq_false_iff, Bool.and_eq_false_iff, decide_eq_false_iff_not]
  omega

theorem trimLeft_eq_self (hs : ∀ c ∈ s, isBlank c = false) : trimLeft s = s := by
  cases s with
  | nil => rfl
  | cons c s => exact List.dropWhile_cons_of_neg (by simp [hs c (List.mem_cons_self ..)])

theorem mem_trimLeft {c : Char} (h : c ∈ s) (hc : isBlank c = false) : c ∈ trimLeft s := by
  rw [← List.takeWhile_append_dropWhile (p := isBlank) (l := s), List.mem_append] at h
  refine h.resolve_left fun hblank => ?_
  rw [List.all_eq_true.1 List.all_takeWhile c hblank] at hc
  cases hc

/-- Only blanks are trimmed. -/
theorem mem_trim {c : Char} (h : c ∈ s) (hc : isBlank c = false) : c ∈ trim s :=
  List.mem_reverse.2 (mem_trimLeft (List.mem_reverse.2 (mem_trimLeft h hc)) hc)

theorem trim_eq_self (hs : ∀ c ∈ s, isBlank c = false) : trim s = s := by
  have hreverse : ∀ c ∈ s.reverse, isBlank c = false := fun c hc => hs c (List.mem_reverse.1 hc)
  rw [trim, trimLeft_eq_self hs, trimLeft_eq_self hreverse, List.reverse_reverse]

/-- Blanks behind a text are trimmed with it. -/
theorem trim_append (hw : ∀ c ∈ w, isBlank c) : trim (s ++ w) = trim s := by
  unfold trim trimLeft
  rw [List.dropWhile_append]
  cases hs : s.dropWhile isBlank with
  | nil =>
    rw [if_pos List.isEmpty_nil, List.dropWhile_eq_nil_iff.2 hw]
  | cons c r =>
    have hreverse : ∀ c ∈ w.reverse, isBlank c := fun c hc => hw c (List.mem_reverse.1 hc)
    rw [if_neg (by simp), List.reverse_append, List.dropWhile_append_of_pos hreverse]

end DesignTokens.Text
