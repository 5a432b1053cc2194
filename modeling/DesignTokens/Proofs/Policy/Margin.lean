import DesignTokens.Policy.Margin
import Mathlib.Data.List.Infix

/-!
# Where margins stand

A text holds a brand margin if, at a place where no word character stands before it, it goes on with
a margin utility, the brand marker and a character that is not blank (`marginsIn_ne_nil_iff`).
-/

namespace DesignTokens.Policy.Margin

open Text (isBlank isWordChar)

variable {s : List Char} {inWord : Bool} {classes : List String} {tag : String}
  {allowSection : Bool}

theorem not_blank_of_front :
    ∀ u ∈ marginUtilities, ∀ c ∈ (u ++ "-brand-").toList, isBlank c = false := by
  have hall : (marginUtilities.all fun u => (u ++ "-brand-").toList.all (!isBlank ·)) = true := by
    decide
  simpa only [List.all_eq_true, Bool.not_eq_true'] using hall

theorem margin?_isSome_iff : (margin? s).isSome ↔ ∃ u ∈ marginUtilities, ∃ c rest,
    s = (u ++ "-brand-").toList ++ c :: rest ∧ isBlank c = false := by
  simp only [margin?, Option.isSome_ite, List.any_eq_true, Bool.and_eq_true,
    List.isPrefixOf_iff_prefix, decide_eq_true_eq]
  refine exists_congr fun u => and_congr_right fun hu => ?_
  constructor
  · rintro ⟨⟨run, hrun⟩, hlength⟩
    have hs := List.takeWhile_append_dropWhile (p := (!isBlank ·)) (l := s)
    cases run with
    | nil => simp [← hrun] at hlength
    | cons c run =>
      have hc : c ∈ s.takeWhile (!isBlank ·) := hrun ▸ by simp
      have hblank := List.all_eq_true.1 List.all_takeWhile c hc
      rw [← hrun, List.append_assoc, List.cons_append] at hs
      exact ⟨c, run ++ s.dropWhile (!isBlank ·), hs.symm, by simpa using hblank⟩
  · rintro ⟨c, rest, rfl, hc⟩
    have hrun : ((u ++ "-brand-").toList ++ c :: rest).takeWhile (!isBlank ·) =
        (u ++ "-brand-").toList ++ c :: rest.takeWhile (!isBlank ·) := by
      rw [List.takeWhile_append_of_pos, List.takeWhile_cons_of_pos]
      · simpa using hc
      · simpa using not_blank_of_front u hu
    rw [hrun]
    exact ⟨List.prefix_append .., by simp⟩

/-- The text ends with a word character; `inWord` says it of the empty text. -/
def endsInWord (inWord : Bool) (front : List Char) : Bool :=
  (front.getLast?.map isWordChar).getD inWord

theorem endsInWord_cons (inWord : Bool) (c : Char) (front : List Char) :
    endsInWord inWord (c :: front) = endsInWord (isWordChar c) front := by
  cases h : front.getLast? <;> simp [endsInWord, List.getLast?_cons, h]

theorem marginsIn_ne_nil_iff : marginsIn inWord s ≠ [] ↔
    ∃ front back, s = front ++ back ∧ endsInWord inWord front = false ∧ (margin? back).isSome := by
  induction s generalizing inWord with
  | nil =>
    have hnone : margin? [] = none := by decide
    rw [marginsIn]
    simp [hnone]
  | cons c r ih =>
    rw [marginsIn]
    split
    · rename_i hnone
      rw [ih]
      constructor
      · rintro ⟨front, back, rfl, hfront, hback⟩
        exact ⟨c :: front, back, rfl, by rw [endsInWord_cons, hfront], hback⟩
      · rintro ⟨front, back, hs, hfront, hback⟩
        cases front with
        | nil =>
          have hword : inWord = false := hfront
          rw [List.nil_append] at hs
          simp [hword, hs, Option.isSome_iff_ne_none.1 hback] at hnone
        | cons d front =>
          rw [List.cons_append, List.cons.injEq] at hs
          obtain ⟨rfl, rfl⟩ := hs
          exact ⟨front, back, rfl, by rw [← hfront, endsInWord_cons], hback⟩
    · rename_i m hm
      split at hm
      · cases hm
      · rename_i hword
        have hback : (margin? (c :: r)).isSome := by rw [hm]; rfl
        simp only [ne_eq, reduceCtorEq, not_false_eq_true, true_iff]
        exact ⟨[], c :: r, rfl, by simpa [endsInWord] using hword, hback⟩

theorem marginsIn_eq_nil (h : ∀ back ∈ s.tails, margin? back = none) : marginsIn inWord s = [] := by
  by_contra hmargins
  obtain ⟨front, back, rfl, -, hback⟩ := marginsIn_ne_nil_iff.1 hmargins
  rw [h back ((List.mem_tails ..).2 (List.suffix_append ..))] at hback
  cases hback

theorem findMargins_append (cs cs' : List String) :
    findMargins (cs ++ cs') = findMargins cs ++ findMargins cs' := List.flatMap_append

theorem findMargins_ne_nil_iff :
    findMargins classes ≠ [] ↔ ∃ c ∈ classes, marginsIn false c.toList ≠ [] := by
  simp [findMargins]

theorem classify_isViolation : (classify classes tag allowSection).isViolation ↔
    tag ∉ allowedTags allowSection ∧ findMargins classes ≠ [] := by
  unfold classify
  split
  · rename_i h
    simp_all [Verdict.isViolation]
  · split <;> simp_all [Verdict.isViolation]

end DesignTokens.Policy.Margin
