import DesignTokens.Path.Glob
import DesignTokens.Proofs.Text.Search

/-!
# What a path pattern means

A pattern covers the segments of a path if they fall into runs, one for each segment of the pattern:
any run for `**`, and for every other segment a single one that matches it (`Covers`). The matcher
tries the runs for `**` one by one, and finds the right ones if there are any
(`matchesSegments_iff`). So a pattern matches a path if it covers all of its segments or, unless it
says where a path begins, the last ones (`globMatches_covers`).
-/

namespace DesignTokens.Path

theorem anySuffix_iff {α : Type} {p : List α → Bool} {xs : List α} :
    anySuffix p xs ↔ ∃ ys, ys <:+ xs ∧ p ys := by
  induction xs with
  | nil => simp [anySuffix]
  | cons x xs ih =>
    rw [anySuffix, Bool.or_eq_true, ih]
    constructor
    · rintro (h | ⟨ys, hys, h⟩)
      · exact ⟨x :: xs, List.suffix_refl _, h⟩
      · exact ⟨ys, hys.trans (List.suffix_cons x xs), h⟩
    · rintro ⟨ys, hys, h⟩
      rcases List.suffix_cons_iff.1 hys with rfl | hys
      · exact .inl h
      · exact .inr ⟨ys, hys, h⟩

/-- The runs of segments that a segment of a pattern stands for. -/
inductive Takes : List Char → List (List Char) → Prop
  | anyRun (run : List (List Char)) : Takes ['*', '*'] run
  | one {p s : List Char} : p ≠ ['*', '*'] → segmentMatches s p → Takes p [s]

/-- The path falls into runs that the segments of the pattern stand for. -/
def Covers (pattern path : List (List Char)) : Prop :=
  ∃ runs, List.Forall₂ Takes pattern runs ∧ path = runs.flatten

namespace Covers

variable {p s : List Char} {pattern path : List (List Char)}

theorem nil_iff : Covers [] path ↔ path = [] := by
  constructor
  · rintro ⟨runs, hruns, rfl⟩
    cases hruns
    rfl
  · rintro rfl
    exact ⟨[], .nil, rfl⟩

theorem anyRun_iff :
    Covers (['*', '*'] :: pattern) path ↔ ∃ rest, rest <:+ path ∧ Covers pattern rest := by
  constructor
  · rintro ⟨runs, hruns, rfl⟩
    cases hruns with
    | @cons _ run _ runs _ hruns => exact ⟨runs.flatten, List.suffix_append .., runs, hruns, rfl⟩
  · rintro ⟨rest, ⟨run, rfl⟩, runs, hruns, rfl⟩
    exact ⟨run :: runs, .cons (.anyRun run) hruns, rfl⟩

theorem one_iff (hp : p ≠ ['*', '*']) : Covers (p :: pattern) path ↔
    ∃ s rest, path = s :: rest ∧ segmentMatches s p ∧ Covers pattern rest := by
  constructor
  · rintro ⟨runs, hruns, rfl⟩
    cases hruns with
    | @cons _ run _ runs hrun hruns =>
      cases hrun with
      | anyRun => exact absurd rfl hp
      | @one _ s _ hs => exact ⟨s, runs.flatten, rfl, hs, runs, hruns, rfl⟩
  · rintro ⟨s, rest, rfl, hs, runs, hruns, rfl⟩
    exact ⟨[s] :: runs, .cons (.one hp hs) hruns, rfl⟩

end Covers

theorem matchesSegments_iff {pattern path : List (List Char)} :
    matchesSegments pattern path ↔ Covers pattern path := by
  induction pattern generalizing path with
  | nil =>
    rw [matchesSegments, List.isEmpty_iff, Covers.nil_iff]
  | cons p pattern ih =>
    rw [matchesSegments.eq_def]
    dsimp only
    split
    · rename_i hp
      subst hp
      rw [anySuffix_iff, Covers.anyRun_iff]
      simp only [ih]
    · rename_i hp
      rw [Covers.one_iff hp]
      cases path with
      | nil => simp
      | cons s path => simp [ih]

/-- The text with slashes for its backslashes. -/
def slashed (s : List Char) : List Char := s.map fun c => if c = '\\' then '/' else c

/-- The pattern as it is compared with paths: slashes for backslashes, and one leading `./` does not
count. -/
def spelled (pattern : String) : List Char :=
  if ['.', '/'] <+: slashed pattern.toList then (slashed pattern.toList).drop 2
  else slashed pattern.toList

theorem canonicalPattern_eq (pattern : String) : canonicalPattern pattern = spelled pattern := by
  have hslashed : (normalize pattern).toList = slashed pattern.toList := by
    simp [normalize, slashed]
  unfold canonicalPattern spelled
  rw [hslashed]
  generalize slashed pattern.toList = s
  split
  · rename_i p
    have hdot : ['.', '/'] <+: '.' :: '/' :: p := List.prefix_append ['.', '/'] p
    rw [if_pos hdot]
    rfl
  · rename_i hdot
    rw [if_neg]
    rintro ⟨p, rfl⟩
    exact hdot p rfl

/-- A path matches a pattern just if the pattern covers the whole path or, where it begins with
neither a slash nor `**`, some of the last segments of the path, perhaps all or none of them. -/
theorem globMatches_covers (path pattern : String) : globMatches path pattern ↔
    Covers ((spelled pattern).splitOn '/') (path.toList.splitOn '/') ∨
      (¬['/'] <+: spelled pattern ∧ ¬['*', '*'] <+: spelled pattern ∧
        ∃ last, last <:+ path.toList.splitOn '/' ∧
          Covers ((spelled pattern).splitOn '/') last) := by
  have hanchored (p : List Char) :
      isAnchored p = false ↔ ¬['/'] <+: p ∧ ¬['*', '*'] <+: p := by
    rw [isAnchored, Bool.or_eq_false_iff, Bool.eq_false_iff, Bool.eq_false_iff, Ne, Ne,
      List.isPrefixOf_iff_prefix, List.isPrefixOf_iff_prefix]
  simp only [globMatches, canonicalPattern_eq, segments, Text.splitOn_eq, Bool.or_eq_true,
    Bool.and_eq_true, Bool.not_eq_true', anySuffix_iff, matchesSegments_iff, hanchored, and_assoc]

end DesignTokens.Path
