import DesignTokens.Proofs.Policy.Utility
import DesignTokens.Proofs.Text.Reading
import DesignTokens.Text.Blank

/-!
# What the utility policy forbids

A class name is forbidden if a critical utility stands before its first hyphen, unless it carries
the brand marker, is a text size, or begins like one of four names for layout (`Forbidden`). No
other beginning for layout can stand at the front of a critical utility (`shadowing_of_startsWith`),
so the three tests of the policy, one after the other, come to just this (`classify_decides`).
-/

namespace DesignTokens.Policy.Utility

variable {c p u rest : String}

/-! ### The first hyphen -/

/-- What stands before the first hyphen. -/
def stem (c : String) : String := String.ofList (c.toList.takeWhile (· ≠ '-'))

/-- What stands behind the first hyphen. -/
def behind (c : String) : String := String.ofList ((c.toList.dropWhile (· ≠ '-')).drop 1)

theorem split_hyphen (hu : '-' ∉ u.toList) (rest : String) :
    stem (u ++ "-" ++ rest) = u ∧ behind (u ++ "-" ++ rest) = rest := by
  have hpos : ∀ x ∈ u.toList, decide (x ≠ '-') := by
    intro x hx
    exact decide_eq_true (ne_of_mem_of_not_mem hx hu)
  have hchars : (u ++ "-" ++ rest).toList = u.toList ++ '-' :: rest.toList := by simp
  obtain ⟨htake, hdrop⟩ := takeWhile_append_of_head (s := '-' :: rest.toList) hpos rfl
  rw [stem, behind, hchars, htake, hdrop]
  exact ⟨String.ofList_toList, String.ofList_toList⟩

theorem stem_behind (h : '-' ∈ c.toList) : stem c ++ "-" ++ behind c = c := by
  obtain ⟨front, back, hc, hfront⟩ := List.eq_append_cons_of_mem h
  obtain rfl : c = String.ofList front ++ "-" ++ String.ofList back := by
    simp [← String.toList_inj, hc]
  have hfront : '-' ∉ (String.ofList front).toList := by simpa using hfront
  obtain ⟨hstem, hbehind⟩ := split_hyphen hfront (String.ofList back)
  rw [hstem, hbehind]

/-- A class name has a critical utility just if that is its stem. -/
theorem criticalUtility?_isSome_iff :
    (criticalUtility? c).isSome ↔ '-' ∈ c.toList ∧ stem c ∈ criticalUtilities := by
  rw [Option.isSome_iff_exists]
  simp only [criticalUtility?_eq_some_iff]
  constructor
  · rintro ⟨u, hu, rest, rfl⟩
    rw [(split_hyphen (hyphen_not_mem u hu) rest).1]
    exact ⟨by simp, hu⟩
  · rintro ⟨hc, hstem⟩
    exact ⟨stem c, hstem, behind c, (stem_behind hc).symm⟩

/-! ### Beginnings for layout -/

/-- The beginnings for layout that go on with what a critical utility begins. -/
def shadowing : List String := ["mx-auto", "my-auto", "text-ellipsis", "text-clip"]

/-- A beginning for layout and a critical utility with its hyphen go apart, or the first one is
among the four. -/
theorem shadowing_or_apart : ∀ p ∈ structuralBeginnings, ∀ u ∈ criticalUtilities,
    p ∈ shadowing ∨ ¬p.toList <+: (u ++ "-").toList ∧ ¬(u ++ "-").toList <+: p.toList := by
  decide +kernel

theorem shadowing_of_startsWith (hp : p ∈ structuralBeginnings) (hu : u ∈ criticalUtilities)
    (h : startsWith (u ++ "-" ++ rest) p) : p ∈ shadowing := by
  rcases shadowing_or_apart p hp u hu with hshadow | ⟨hlong, hshort⟩
  · exact hshadow
  · rw [startsWith, List.isPrefixOf_iff_prefix, String.toList_append] at h
    rcases List.prefix_or_prefix_of_prefix h (List.prefix_append _ _) with h | h
    · exact absurd h hlong
    · exact absurd h hshort

theorem structural_of_shadowing : ∀ p ∈ shadowing, p ∈ structuralBeginnings := by decide

theorem isTextSize_iff (hc : ∀ x ∈ c.toList, Text.isBlank x = false) :
    isTextSize c ↔ c ∈ textSizes := by
  rw [isTextSize, List.any_eq_true]
  constructor
  · rintro ⟨t, ht, h⟩
    rw [Bool.or_eq_true, beq_iff_eq, beq_iff_eq] at h
    rcases h with rfl | rfl
    · exact ht
    · -- a line feed is blank
      have hblank := hc '\n' (by simp)
      exact absurd hblank (by decide)
  · intro h
    exact ⟨c, h, by simp⟩

theorem isStructural_iff (hc : ∀ x ∈ c.toList, Text.isBlank x = false)
    (hhyphen : '-' ∈ c.toList) (hstem : stem c ∈ criticalUtilities) :
    isStructural c ↔ (∃ p ∈ shadowing, startsWith c p) ∨ c ∈ textSizes := by
  rw [isStructural, Bool.or_eq_true, isTextSize_iff hc, List.any_eq_true]
  refine or_congr_left ⟨?_, ?_⟩
  · rintro ⟨p, hp, h⟩
    rw [← stem_behind hhyphen] at h
    have hshadow := shadowing_of_startsWith hp hstem h
    rw [stem_behind hhyphen] at h
    exact ⟨p, hshadow, h⟩
  · rintro ⟨p, hp, h⟩
    exact ⟨p, structural_of_shadowing p hp, h⟩

/-! ### The verdict -/

/-- The class name begins with the brand, or has it between hyphens. -/
def Marked (c : String) : Prop :=
  (∃ rest, c = "brand-" ++ rest) ∨ ∃ front back, c = front ++ "-brand-" ++ back

theorem hasBrandMarker_iff : hasBrandMarker c ↔ Marked c := by
  rw [hasBrandMarker, Bool.or_eq_true, startsWith_iff, Text.contains_iff, or_comm]
  refine or_congr_right ⟨?_, ?_⟩
  · rintro ⟨front, back, h⟩
    refine ⟨String.ofList front, String.ofList back, ?_⟩
    simpa [← String.toList_inj] using h.symm
  · rintro ⟨front, back, rfl⟩
    exact ⟨front.toList, back.toList, by simp⟩

/-- The class name must be replaced by one with the brand marker. -/
structure Forbidden (c : String) : Prop where
  unmarked : ¬Marked c
  hyphen : '-' ∈ c.toList
  critical : stem c ∈ criticalUtilities
  layout : ∀ p ∈ ["mx-auto", "my-auto", "text-ellipsis", "text-clip"], ¬∃ rest, c = p ++ rest
  size : c ∉ textSizes

theorem isViolation_iff_forbidden (hc : ∀ x ∈ c.toList, Text.isBlank x = false) :
    (classify c).isViolation ↔ Forbidden c := by
  rw [isViolation_iff, Bool.eq_false_iff, Ne, hasBrandMarker_iff, criticalUtility?_isSome_iff,
    Bool.eq_false_iff, Ne]
  constructor
  · rintro ⟨hmarker, hstructural, hhyphen, hstem⟩
    rw [isStructural_iff hc hhyphen hstem, not_or] at hstructural
    obtain ⟨hlayout, hsize⟩ := hstructural
    refine ⟨hmarker, hhyphen, hstem, fun p hp hbegins => ?_, hsize⟩
    exact hlayout ⟨p, hp, startsWith_iff.2 hbegins⟩
  · rintro ⟨hmarker, hhyphen, hstem, hlayout, hsize⟩
    refine ⟨hmarker, ?_, hhyphen, hstem⟩
    rw [isStructural_iff hc hhyphen hstem]
    rintro (⟨p, hp, hbegins⟩ | h)
    · exact hlayout p hp (startsWith_iff.1 hbegins)
    · exact hsize h

theorem classify_eq_exempt_iff : classify c = .exempt ↔ Marked c := by
  rw [← hasBrandMarker_iff, classify]
  split
  · simp_all
  split
  · simp_all
  split <;> simp_all

theorem classify_eq_violation (h : (classify c).isViolation) :
    classify c = .violation forbiddenClass (some (stem c ++ "-brand-" ++ behind c)) := by
  obtain ⟨u, hu, rest, rfl, -⟩ := exists_of_isViolation h
  obtain ⟨hmarker, hstructural, hutility⟩ := isViolation_iff.1 h
  obtain ⟨hstem, hbehind⟩ := split_hyphen (hyphen_not_mem u hu) rest
  rw [classify, if_neg (by simp [hmarker]), if_neg (by simp [hstructural]), if_pos hutility,
    suggest_eq hu, hstem, hbehind]

/-- A class name without blanks is exempt if it is marked, a violation if it is forbidden, and
compliant otherwise. The suggestion has the brand marker behind the stem. -/
theorem classify_decides (hc : ∀ x ∈ c.toList, Text.isBlank x = false) :
    (classify c = .exempt ↔ Marked c) ∧
      ((classify c).isViolation ↔ Forbidden c) ∧
      (classify c = .compliant ↔ ¬Marked c ∧ ¬Forbidden c) ∧
      ((classify c).isViolation →
        classify c = .violation forbiddenClass (some (stem c ++ "-brand-" ++ behind c))) := by
  refine ⟨classify_eq_exempt_iff, isViolation_iff_forbidden hc, ?_, classify_eq_violation⟩
  rw [← classify_eq_exempt_iff, ← isViolation_iff_forbidden hc]
  cases classify c <;> simp [Verdict.isViolation]

/-- The brand is no marker where a name goes on with it. -/
theorem classify_decides_branded :
    (∀ x ∈ "from-brandish-2".toList, Text.isBlank x = false) ∧ Forbidden "from-brandish-2" ∧
      classify "from-brandish-2" = .violation forbiddenClass (some "from-brand-brandish-2") := by
  have hblank : ∀ x ∈ "from-brandish-2".toList, Text.isBlank x = false := by
    have hall : ("from-brandish-2".toList.all (!Text.isBlank ·)) = true := by decide
    simpa only [List.all_eq_true, Bool.not_eq_true'] using hall
  obtain ⟨-, hforbidden, -, hsuggestion⟩ := classify_decides hblank
  have hviolation : (classify "from-brandish-2").isViolation := by decide
  exact ⟨hblank, hforbidden.1 hviolation, hsuggestion hviolation⟩

end DesignTokens.Policy.Utility
