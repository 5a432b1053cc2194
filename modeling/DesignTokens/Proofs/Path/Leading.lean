import DesignTokens.Proofs.Path.Glob
import DesignTokens.Proofs.Text.Blank

/-!
# Leading directories

A pattern without a root does not depend on where a path starts: what it matches it matches behind
further directories too, and what it exempts stays exempt (`matches_behind`). The exception are
patterns that begin with `**` while their first segment goes on, such as `**.tsx`: these count as
anchored, but their first segment stands for one directory only (`not_matches_behind`).
-/

namespace DesignTokens.Path

variable {d path pattern : String}

theorem isAnchored_iff {p : List Char} : isAnchored p ↔ ['/'] <+: p ∨ ['*', '*'] <+: p := by
  rw [isAnchored, Bool.or_eq_true, List.isPrefixOf_iff_prefix, List.isPrefixOf_iff_prefix]

theorem globMatches_anchored (h : isAnchored (spelled pattern)) : globMatches path pattern ↔
    Covers ((spelled pattern).splitOn '/') (path.toList.splitOn '/') := by
  simp only [globMatches, canonicalPattern_eq, segments, Text.splitOn_eq, h, Bool.not_true,
    Bool.false_and, Bool.or_false, matchesSegments_iff]

/-- The whole path is the last of its suffixes, so it needs no case of its own. -/
theorem globMatches_unanchored (h : ¬isAnchored (spelled pattern)) : globMatches path pattern ↔
    ∃ last, last <:+ path.toList.splitOn '/' ∧ Covers ((spelled pattern).splitOn '/') last := by
  rw [Bool.not_eq_true] at h
  simp only [globMatches, canonicalPattern_eq, segments, Text.splitOn_eq, h, Bool.not_false,
    Bool.true_and, Bool.or_eq_true, anySuffix_iff, matchesSegments_iff]
  constructor
  · rintro (hall | hlast)
    · exact ⟨_, List.suffix_refl _, hall⟩
    · exact hlast
  · exact .inr

theorem splitOn_behind (d path : String) :
    (d ++ "/" ++ path).toList.splitOn '/' = d.toList.splitOn '/' ++ path.toList.splitOn '/' := by
  rw [String.toList_append, String.toList_append, List.append_assoc]
  exact List.splitOn_append_cons_self ..

theorem Covers.behind {pattern path : List (List Char)} (front : List (List Char))
    (h : Covers (['*', '*'] :: pattern) path) :
    Covers (['*', '*'] :: pattern) (front ++ path) := by
  obtain ⟨rest, hrest, hcovers⟩ := Covers.anyRun_iff.1 h
  exact Covers.anyRun_iff.2 ⟨rest, hrest.trans (List.suffix_append front path), hcovers⟩

/-- Two stars at the front of the pattern are a segment of their own. -/
def StarsApart (p : List Char) : Prop :=
  ['*', '*'] <+: p → (p.splitOn '/').head? = some ['*', '*']

theorem globMatches_behind (hroot : ¬['/'] <+: spelled pattern)
    (hstars : StarsApart (spelled pattern)) (d : String) (h : globMatches path pattern) :
    globMatches (d ++ "/" ++ path) pattern := by
  by_cases hfront : ['*', '*'] <+: spelled pattern
  · have hanchored := isAnchored_iff.2 (.inr hfront)
    obtain ⟨rest, hsplit⟩ := List.head?_eq_some_iff.1 (hstars hfront)
    rw [globMatches_anchored hanchored, hsplit] at h ⊢
    rw [splitOn_behind]
    exact h.behind _
  · have hanchored : ¬isAnchored (spelled pattern) := by
      rw [isAnchored_iff]
      exact not_or.2 ⟨hroot, hfront⟩
    rw [globMatches_unanchored hanchored] at h ⊢
    obtain ⟨last, hlast, hcovers⟩ := h
    refine ⟨last, ?_, hcovers⟩
    rw [splitOn_behind]
    exact hlast.trans (List.suffix_append _ _)

/-- A first segment that two stars only begin stands for the first directory. -/
theorem first_of_globMatches_behind (hstars : ¬StarsApart (spelled pattern))
    (h : globMatches (d ++ "/" ++ path) pattern) :
    ∃ s ∈ (d.toList.splitOn '/').head?, ∃ p ∈ ((spelled pattern).splitOn '/').head?,
      segmentMatches s p := by
  rw [StarsApart, Classical.not_imp] at hstars
  obtain ⟨hfront, hfirst⟩ := hstars
  rw [globMatches_anchored (isAnchored_iff.2 (.inr hfront)), splitOn_behind] at h
  obtain ⟨p, ps, hp⟩ := List.exists_cons_of_ne_nil (List.splitOn_ne_nil '/' (spelled pattern))
  obtain ⟨s, ss, hs⟩ := List.exists_cons_of_ne_nil (List.splitOn_ne_nil '/' d.toList)
  rw [hp] at hfirst h ⊢
  rw [hs] at h ⊢
  have hne : p ≠ ['*', '*'] := fun hp => hfirst (congrArg some hp)
  obtain ⟨s', rest, hpath, hmatches, -⟩ := (Covers.one_iff hne).1 h
  obtain ⟨rfl, -⟩ := List.cons.inj hpath
  exact ⟨s, rfl, p, rfl, hmatches⟩

/-! ### Exempt files -/

theorem normalize_behind (d path : String) :
    normalize (d ++ "/" ++ path) = normalize d ++ "/" ++ normalize path := by
  rw [← String.toList_inj]
  simp [normalize]

theorem isExempt_iff {file : String} {patterns : List String} :
    isExempt (some file) patterns ↔
      isUnknown (some file) = false ∧ ∃ p ∈ patterns, globMatches (normalize file) p := by
  simp [isExempt, matchesAny]

/-- No placeholder has a slash. -/
theorem isUnknown_behind (d path : String) : isUnknown (some (d ++ "/" ++ path)) = false := by
  have hslash : '/' ∈ Text.trim (d ++ "/" ++ path).toList :=
    Text.mem_trim (by simp) (by decide)
  have hnone : ∀ f ∈ placeholders, '/' ∉ f.toList := by decide
  rw [← Bool.not_eq_true, isUnknown, Option.all_some, List.contains_iff_mem]
  intro hmem
  have hnot := hnone _ hmem
  rw [String.toList_ofList] at hnot
  exact hnot hslash

/-- A pattern without a root matches a path behind further directories, and exempts the file there,
if stars at its front are a segment of their own. Otherwise it matches there only if its first
segment matches the first of the directories. -/
theorem matches_behind (hroot : ¬['/'] <+: spelled pattern) (d : String) :
    (StarsApart (spelled pattern) →
      (∀ path, globMatches path pattern → globMatches (d ++ "/" ++ path) pattern) ∧
        ∀ file, isExempt (some file) [pattern] → isExempt (some (d ++ "/" ++ file)) [pattern]) ∧
    (¬StarsApart (spelled pattern) → ∀ path, globMatches (d ++ "/" ++ path) pattern →
      ∃ s ∈ (d.toList.splitOn '/').head?, ∃ p ∈ ((spelled pattern).splitOn '/').head?,
        segmentMatches s p) := by
  refine ⟨fun hstars => ⟨fun path => globMatches_behind hroot hstars d, fun file h => ?_⟩,
    fun hstars path => first_of_globMatches_behind hstars⟩
  obtain ⟨-, p, hp, hfile⟩ := isExempt_iff.1 h
  obtain rfl := List.mem_singleton.1 hp
  refine isExempt_iff.2 ⟨isUnknown_behind d file, p, hp, ?_⟩
  rw [normalize_behind]
  exact globMatches_behind hroot hstars _ hfile

theorem matches_behind_project : ¬['/'] <+: spelled "./src/**/*.tsx" ∧
    globMatches "src/app/page.tsx" "./src/**/*.tsx" ∧
    globMatches "/project/src/app/page.tsx" "./src/**/*.tsx" := by
  have hroot : ¬['/'] <+: spelled "./src/**/*.tsx" := by decide
  have hstars : StarsApart (spelled "./src/**/*.tsx") := by
    unfold StarsApart
    decide
  have h : globMatches "src/app/page.tsx" "./src/**/*.tsx" := by cbv
  have hjoin : "/project/src/app/page.tsx" = "/project" ++ "/" ++ "src/app/page.tsx" := by decide
  refine ⟨hroot, h, ?_⟩
  rw [hjoin]
  exact ((matches_behind hroot "/project").1 hstars).1 _ h

/-- The stars of `**.tsx` begin a segment, which stands for the file only. -/
theorem not_matches_behind : ¬∀ pattern path d : String, ¬['/'] <+: spelled pattern →
    globMatches path pattern → globMatches (d ++ "/" ++ path) pattern := by
  intro h
  have hroot : ¬['/'] <+: spelled "**.tsx" := by decide
  have hpath : globMatches "page.tsx" "**.tsx" := by cbv
  have hbehind : globMatches ("src" ++ "/" ++ "page.tsx") "**.tsx" = false := by cbv
  rw [h "**.tsx" "page.tsx" "src" hroot hpath] at hbehind
  cases hbehind

end DesignTokens.Path
