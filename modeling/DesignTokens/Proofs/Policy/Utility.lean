import DesignTokens.Policy.Utility
import DesignTokens.Proofs.Text.Search

/-!
# Class names with a critical utility

A class name has a critical utility if that is what stands before its first hyphen
(`criticalUtility?_eq_some_iff`), and a violation of the policy is such a class name without the
brand marker (`exists_of_isViolation`).
-/

namespace DesignTokens.Policy.Utility

variable {c p u rest : String}

theorem startsWith_iff : startsWith c p ↔ ∃ rest, c = p ++ rest := by
  rw [startsWith, List.isPrefixOf_iff_prefix]
  constructor
  · rintro ⟨rest, hrest⟩
    exact ⟨String.ofList rest, String.toList_inj.1 (by simp [hrest])⟩
  · rintro ⟨rest, rfl⟩
    exact ⟨rest.toList, by simp⟩

theorem hyphen_not_mem : ∀ u ∈ criticalUtilities, '-' ∉ u.toList := by decide

/-- A critical utility and what stands behind its hyphen are determined by the class name. -/
theorem utility_inj {u' rest' : String} (hu : '-' ∉ u.toList) (hu' : '-' ∉ u'.toList)
    (h : u ++ "-" ++ rest = u' ++ "-" ++ rest') : u' = u ∧ rest' = rest := by
  have hsplit : u.toList ++ '-' :: rest.toList = u'.toList ++ '-' :: rest'.toList := by
    simpa using congrArg String.toList h
  rcases Text.append_cons_inj hu hsplit with ⟨hu, hrest⟩ | ⟨middle, hmiddle, -⟩
  · exact ⟨String.toList_inj.1 hu, String.toList_inj.1 hrest⟩
  · exact absurd (hmiddle ▸ by simp) hu'

theorem of_criticalUtility? (h : criticalUtility? c = some u) :
    u ∈ criticalUtilities ∧ ∃ rest, c = u ++ "-" ++ rest := by
  have hstarts : startsWith c (u ++ "-") :=
    List.find?_some (p := fun u => startsWith c (u ++ "-")) h
  exact ⟨List.mem_of_find?_eq_some h, startsWith_iff.1 hstarts⟩

theorem criticalUtility?_eq_some_iff :
    criticalUtility? c = some u ↔ u ∈ criticalUtilities ∧ ∃ rest, c = u ++ "-" ++ rest := by
  constructor
  · exact of_criticalUtility?
  · rintro ⟨hu, rest, rfl⟩
    cases hfind : criticalUtility? (u ++ "-" ++ rest) with
    | none =>
      have hnone := List.find?_eq_none.1 hfind u hu
      exact absurd (startsWith_iff.2 ⟨rest, rfl⟩) hnone
    | some u' =>
      obtain ⟨hu', rest', hrest'⟩ := of_criticalUtility? hfind
      rw [(utility_inj (hyphen_not_mem u hu) (hyphen_not_mem u' hu') hrest').1]

theorem suggest_eq (hu : u ∈ criticalUtilities) (rest : String) :
    suggest (u ++ "-" ++ rest) = u ++ "-brand-" ++ rest := by
  rw [suggest, criticalUtility?_eq_some_iff.2 ⟨hu, rest, rfl⟩]
  simp [← String.length_toList]

/-- A violation of the policy always comes with a suggestion. -/
theorem suggestion_of_violation {reason : String} {suggestion : Option String}
    (h : classify c = .violation reason suggestion) : suggestion = some (suggest c) := by
  unfold classify at h
  split at h
  · cases h
  split at h
  · cases h
  split at h
  · cases h
    rfl
  · cases h

theorem isViolation_iff : (classify c).isViolation ↔
    hasBrandMarker c = false ∧ isStructural c = false ∧ (criticalUtility? c).isSome := by
  unfold classify
  split
  · simp_all [Verdict.isViolation]
  split
  · simp_all [Verdict.isViolation]
  split <;> simp_all [Verdict.isViolation]

theorem exists_of_isViolation (h : (classify c).isViolation) :
    ∃ u ∈ criticalUtilities, ∃ rest, c = u ++ "-" ++ rest ∧ hasBrandMarker c = false := by
  obtain ⟨hmarker, -, hutility⟩ := isViolation_iff.1 h
  obtain ⟨u, hu⟩ := Option.isSome_iff_exists.1 hutility
  obtain ⟨hmem, rest, rfl⟩ := of_criticalUtility? hu
  exact ⟨u, hmem, rest, rfl, hmarker⟩

end DesignTokens.Policy.Utility
