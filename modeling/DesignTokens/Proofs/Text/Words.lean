import DesignTokens.Proofs.Text.Blank
import Mathlib.Data.List.Basic

/-!
# Where words stand

A text is made of blanks and of words between them (`runsInduction`). `words` gives the words in
order, so a blank splits a text into two with words of their own (`words_append_blank`), and a word
is just what stands between blanks or the ends of the text (`mem_words`).
-/

namespace DesignTokens.Text

variable {front back s w : List Char}

/-- `w` stands as a word between `front` and `back`: no character of it is blank, and each side
has a blank or nothing next to it. -/
structure Isolates (front w back : List Char) : Prop where
  ne_nil : w ≠ []
  notBlank : ∀ c ∈ w, isBlank c = false
  front : front.getLast?.all isBlank
  back : back.head?.all isBlank

theorem words_blank {b : Char} (hb : isBlank b) (s : List Char) : words (b :: s) = words s := by
  rw [words, hb]

theorem words_run (hw : w ≠ []) (hblank : ∀ c ∈ w, isBlank c = false)
    (hs : s.head?.all isBlank) : words (w ++ s) = w :: words s := by
  induction w with
  | nil => exact absurd rfl hw
  | cons c w ih =>
    obtain ⟨hc, hblank⟩ := List.forall_mem_cons.1 hblank
    cases w with
    | nil =>
      show words (c :: s) = _
      rw [words, hc, hs]
    | cons d w =>
      have hd : isBlank d = false := hblank d List.mem_cons_self
      have hrest := ih (List.cons_ne_nil d w) hblank
      show words (c :: d :: (w ++ s)) = _
      rw [words, hc, List.head?_cons, Option.all_some, hd]
      rw [show d :: (w ++ s) = d :: w ++ s from rfl, hrest]

/-- A text is empty, begins with a blank, or begins with a run of other characters that ends at a
blank or with the text. -/
@[elab_as_elim]
theorem runsInduction {motive : List Char → Prop} (nil : motive [])
    (blank : ∀ b s, isBlank b → motive s → motive (b :: s))
    (run : ∀ w s, w ≠ [] → (∀ c ∈ w, isBlank c = false) → s.head?.all isBlank → motive s →
      motive (w ++ s)) (s : List Char) : motive s := by
  induction hn : s.length using Nat.strongRecOn generalizing s with
  | _ n ih =>
    cases s with
    | nil => exact nil
    | cons c s =>
      by_cases hc : isBlank c
      · exact blank c s hc (ih s.length (by simp [← hn]) s rfl)
      · have hsplit := List.takeWhile_append_dropWhile (p := (!isBlank ·)) (l := s)
        rw [← hsplit, ← List.cons_append]
        refine run _ _ (List.cons_ne_nil _ _) ?_ ?_ (ih _ ?_ _ rfl)
        · refine List.forall_mem_cons.2 ⟨by simpa using hc, fun d hd => ?_⟩
          simpa using List.all_eq_true.1 List.all_takeWhile d hd
        · have hhead := List.head?_dropWhile_not (p := (!isBlank ·)) s
          cases h : (s.dropWhile (!isBlank ·)).head? with
          | none => rfl
          | some d => simpa [h] using hhead
        · have hlength := (List.dropWhile_suffix (p := (!isBlank ·)) (l := s)).length_le
          rw [← hn, List.length_cons]
          omega

theorem words_append_blank {b : Char} (s : List Char) (hb : isBlank b) (t : List Char) :
    words (s ++ b :: t) = words s ++ words t := by
  induction s using runsInduction with
  | nil => exact words_blank hb t
  | blank b' s hb' ih =>
    rw [List.cons_append, words_blank hb', words_blank hb', ih]
  | run w s hw hblank hs ih =>
    have hst : (s ++ b :: t).head?.all isBlank := by
      cases s with
      | nil => exact hb
      | cons c s => exact hs
    rw [List.append_assoc, words_run hw hblank hst, words_run hw hblank hs, ih, List.cons_append]

theorem Isolates.mem_words (h : Isolates front w back) : w ∈ words (front ++ w ++ back) := by
  rcases List.eq_nil_or_concat front with rfl | ⟨s, b, rfl⟩
  · rw [List.nil_append, words_run h.ne_nil h.notBlank h.back]
    exact List.mem_cons_self
  · have hb : isBlank b := by simpa using h.front
    rw [List.concat_eq_append, List.append_assoc, List.append_assoc, List.singleton_append,
      words_append_blank s hb, words_run h.ne_nil h.notBlank h.back]
    exact List.mem_append_right _ List.mem_cons_self

theorem mem_words : w ∈ words s ↔ ∃ front back, s = front ++ w ++ back ∧ Isolates front w back := by
  refine ⟨fun hw => ?_, fun ⟨front, back, hs, h⟩ => hs ▸ h.mem_words⟩
  induction s using runsInduction with
  | nil => cases hw
  | blank b s hb ih =>
    rw [words_blank hb] at hw
    obtain ⟨front, back, rfl, h⟩ := ih hw
    refine ⟨b :: front, back, rfl, h.ne_nil, h.notBlank, ?_, h.back⟩
    cases front with
    | nil => exact hb
    | cons c front => exact h.front
  | run w' s hw' hblank hs ih =>
    rw [words_run hw' hblank hs] at hw
    rcases List.mem_cons.1 hw with rfl | hw
    · exact ⟨[], s, rfl, hw', hblank, rfl, hs⟩
    · obtain ⟨front, back, rfl, h⟩ := ih hw
      refine ⟨w' ++ front, back, by simp, h.ne_nil, h.notBlank, ?_, h.back⟩
      -- something stands before the word, for the text behind the first run begins with a blank
      cases front with
      | nil =>
        obtain ⟨c, w, rfl⟩ := List.exists_cons_of_ne_nil h.ne_nil
        have hc : isBlank c = false := h.notBlank c List.mem_cons_self
        simp [hc] at hs
      | cons c front =>
        rw [List.getLast?_append_cons]
        exact h.front

namespace Isolates

variable {l r before rest run : List Char}

end Isolates

end DesignTokens.Text
