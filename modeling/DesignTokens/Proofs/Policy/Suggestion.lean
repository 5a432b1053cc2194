import DesignTokens.Proofs.Policy.Margin
import DesignTokens.Proofs.Policy.Utility

/-!
# Following suggestions

A suggestion puts the brand marker behind the critical utility of a class name. The marker stands
nowhere else in it (`marker_inj`), so a suggestion is a brand margin just if its utility is one
(`marginsIn_suggest_ne_nil_iff`), and a list of class names in which all suggestions are followed
has no violation of the utility policy left and these new margins only (`suggestions_resolve`).
-/

namespace DesignTokens.Policy

open Text (isBlank isWordChar)
open Utility (criticalUtilities hasBrandMarker suggest)
open Margin (marginUtilities marginsIn findMargins)

variable {c u rest : String}

/-- The class name, or what is suggested in its place if it violates the policy. -/
def Utility.follow (c : String) : String :=
  match classify c with
  | .violation _ (some suggestion) => suggestion
  | _ => c

theorem Utility.follow_eq (c : String) :
    follow c = if (classify c).isViolation then suggest c else c := by
  unfold follow
  cases h : classify c with
  | compliant => rfl
  | exempt => rfl
  | violation reason suggestion =>
    rw [suggestion_of_violation h]
    rfl

/-! ### The marker in a suggestion -/

theorem unmarked_of_hasBrandMarker (h : hasBrandMarker c = false) :
    ¬"-brand-".toList <:+: c.toList := by
  rw [hasBrandMarker, Bool.or_eq_false_iff] at h
  rw [← Text.contains_iff, h.1]
  exact Bool.false_ne_true

theorem hasBrandMarker_suggest (u rest : String) : hasBrandMarker (u ++ "-brand-" ++ rest) := by
  rw [hasBrandMarker, Bool.or_eq_true, Text.contains_iff]
  exact .inl ⟨u.toList, rest.toList, by simp⟩

/-- The marker stands in a suggestion only where it was put: elsewhere it would stand in the class
name too, also where it shares a hyphen with the one that was put. -/
theorem marker_inj {a b : List Char} (hu : '-' ∉ u.toList)
    (hunmarked : hasBrandMarker (u ++ "-" ++ rest) = false)
    (h : (u ++ "-brand-" ++ rest).toList = a ++ "-brand-".toList ++ b) :
    a = u.toList ∧ b = rest.toList := by
  have hinfix := unmarked_of_hasBrandMarker hunmarked
  have hname : (u ++ "-" ++ rest).toList = u.toList ++ '-' :: rest.toList := by simp
  have hsplit : u.toList ++ '-' :: ("brand-".toList ++ rest.toList) =
      a ++ '-' :: ("brand-".toList ++ b) := by simpa using h
  rcases Text.append_cons_inj hu hsplit with ⟨rfl, hrest⟩ | ⟨middle, -, hmiddle⟩
  · exact ⟨rfl, List.append_cancel_left hrest⟩
  have hsplit : "brand".toList ++ '-' :: rest.toList = middle ++ '-' :: ("brand-".toList ++ b) := by
    simpa using hmiddle
  rw [hname] at hinfix
  rcases Text.append_cons_inj (by decide) hsplit with ⟨-, hrest⟩ | ⟨middle', -, hrest⟩
  · exact absurd ⟨u.toList, b, by simp [← hrest]⟩ hinfix
  · exact absurd ⟨u.toList ++ '-' :: middle', b, by simp [hrest]⟩ hinfix

theorem marginsIn_eq_nil_of_unmarked (h : hasBrandMarker c = false) (inWord : Bool) :
    marginsIn inWord c.toList = [] := by
  by_contra hmargins
  obtain ⟨front, back, hc, -, hback⟩ := Margin.marginsIn_ne_nil_iff.1 hmargins
  obtain ⟨u, -, d, rest, rfl, -⟩ := Margin.margin?_isSome_iff.1 hback
  exact unmarked_of_hasBrandMarker h ⟨front ++ u.toList, d :: rest, by simp [hc]⟩

theorem isWordChar_of_mem : ∀ u ∈ criticalUtilities, ∀ c ∈ u.toList, isWordChar c := by
  have hall : (criticalUtilities.all fun u => u.toList.all isWordChar) = true := by decide
  simpa only [List.all_eq_true] using hall

theorem critical_of_margin : ∀ u ∈ marginUtilities, u ∈ criticalUtilities := by decide

/-- A suggestion is a brand margin if what it was made from is a margin. -/
theorem marginsIn_suggest_ne_nil_iff (hu : u ∈ criticalUtilities)
    (hunmarked : hasBrandMarker (u ++ "-" ++ rest) = false)
    (hrest : ∀ c ∈ rest.toList, isBlank c = false) :
    marginsIn false (u ++ "-brand-" ++ rest).toList ≠ [] ↔ u ∈ marginUtilities ∧ rest ≠ "" := by
  rw [Margin.marginsIn_ne_nil_iff]
  constructor
  · rintro ⟨front, back, hs, hfront, hback⟩
    obtain ⟨u', hu', d, rest', rfl, -⟩ := Margin.margin?_isSome_iff.1 hback
    have hmarker : (u ++ "-brand-" ++ rest).toList =
        front ++ u'.toList ++ "-brand-".toList ++ d :: rest' := by simpa using hs
    obtain ⟨hfu, hd⟩ := marker_inj (Utility.hyphen_not_mem u hu) hunmarked hmarker
    -- all of the utility are word characters, so the margin begins where the utility does
    cases hlast : front.getLast? with
    | some e =>
      have he : e ∈ u.toList := hfu ▸ List.mem_append_left _ (List.mem_of_getLast? hlast)
      simp [Margin.endsInWord, hlast, isWordChar_of_mem u hu e he] at hfront
    | none =>
      obtain rfl := List.getLast?_eq_none_iff.1 hlast
      obtain rfl := String.toList_inj.1 hfu
      refine ⟨hu', ?_⟩
      rintro rfl
      simp at hd
  · rintro ⟨hmargin, hne⟩
    cases hchars : rest.toList with
    | nil => exact absurd (String.toList_inj.1 hchars) hne
    | cons d rest' =>
      refine ⟨[], (u ++ "-brand-").toList ++ d :: rest', by simp [hchars], rfl, ?_⟩
      exact Margin.margin?_isSome_iff.2 ⟨u, hmargin, d, rest', rfl, hrest d (by simp [hchars])⟩

/-! ### All suggestions -/

/-- A violation whose suggestion is a brand margin. -/
def NewMargin (c : String) : Prop :=
  (Utility.classify c).isViolation ∧ ∃ u ∈ marginUtilities, ∃ rest, rest ≠ "" ∧ c = u ++ "-" ++ rest

theorem marginsIn_follow_ne_nil_iff (hblank : ∀ x ∈ c.toList, isBlank x = false) :
    marginsIn false (Utility.follow c).toList ≠ [] ↔
      marginsIn false c.toList ≠ [] ∨ NewMargin c := by
  rw [Utility.follow_eq]
  by_cases h : (Utility.classify c).isViolation
  · obtain ⟨u, hu, rest, rfl, hunmarked⟩ := Utility.exists_of_isViolation h
    have hrest : ∀ x ∈ rest.toList, isBlank x = false := fun x hx => hblank x (by simp [hx])
    rw [if_pos h, Utility.suggest_eq hu, marginsIn_suggest_ne_nil_iff hu hunmarked hrest,
      marginsIn_eq_nil_of_unmarked hunmarked]
    simp only [ne_eq, not_true_eq_false, false_or]
    constructor
    · rintro ⟨hmargin, hne⟩
      exact ⟨h, u, hmargin, rest, hne, rfl⟩
    · rintro ⟨-, u', hmargin, rest', hne, heq⟩
      have hu' := Utility.hyphen_not_mem u' (critical_of_margin u' hmargin)
      obtain ⟨rfl, rfl⟩ := Utility.utility_inj (Utility.hyphen_not_mem u hu) hu' heq
      exact ⟨hmargin, hne⟩
  · rw [if_neg h]
    exact ⟨.inl, fun hor => hor.resolve_right fun hnew => h hnew.1⟩

theorem classify_follow (h : (Utility.classify c).isViolation) :
    Utility.classify (Utility.follow c) = .exempt ∧
      Text.eraseFirst "-brand".toList (Utility.follow c).toList = c.toList := by
  obtain ⟨u, hu, rest, rfl, -⟩ := Utility.exists_of_isViolation h
  rw [Utility.follow_eq, if_pos h, Utility.suggest_eq hu]
  constructor
  · rw [Utility.classify, if_pos (hasBrandMarker_suggest u rest)]
  · have herase := Text.eraseFirst_append (Utility.hyphen_not_mem u hu) "brand".toList
      ('-' :: rest.toList)
    simpa using herase

theorem isViolation_follow (c : String) :
    (Utility.classify (Utility.follow c)).isViolation = false := by
  by_cases h : (Utility.classify c).isViolation
  · rw [(classify_follow h).1]
    rfl
  · rw [Utility.follow_eq, if_neg h]
    simpa using h

/-- Once all suggestions are followed, no class name violates the utility policy, each new one is
exempt, has the old one left when its marker is deleted, and none changes again. The margin policy
then finds the margins that were there and those that suggestions made. -/
theorem suggestions_resolve {cs : List String}
    (hcs : ∀ c ∈ cs, ∀ x ∈ c.toList, isBlank x = false) :
    (∀ c ∈ cs.map Utility.follow, (Utility.classify c).isViolation = false) ∧
      (∀ c ∈ cs, (Utility.classify c).isViolation →
        Utility.classify (Utility.follow c) = .exempt ∧
          Text.eraseFirst "-brand".toList (Utility.follow c).toList = c.toList) ∧
      (cs.map Utility.follow).map Utility.follow = cs.map Utility.follow ∧
      ∀ tag allowSection, tag ∉ Margin.allowedTags allowSection →
        ((Margin.classify (cs.map Utility.follow) tag allowSection).isViolation ↔
          findMargins cs ≠ [] ∨ ∃ c ∈ cs, NewMargin c) := by
  refine ⟨?_, fun c _ => classify_follow, ?_, fun tag allowSection htag => ?_⟩
  · simpa using fun c _ => isViolation_follow c
  · refine (List.map_congr_left fun c hc => ?_).trans (List.map_id _)
    obtain ⟨c, -, rfl⟩ := List.mem_map.1 hc
    rw [Utility.follow_eq, isViolation_follow]
    rfl
  · rw [Margin.classify_isViolation, Margin.findMargins_ne_nil_iff, Margin.findMargins_ne_nil_iff]
    simp only [htag, not_false_eq_true, true_and, List.mem_map, exists_exists_and_eq_and]
    constructor
    · rintro ⟨c, hc, hmargins⟩
      rcases (marginsIn_follow_ne_nil_iff (hcs c hc)).1 hmargins with h | h
      · exact .inl ⟨c, hc, h⟩
      · exact .inr ⟨c, hc, h⟩
    · rintro (⟨c, hc, h⟩ | ⟨c, hc, h⟩)
      · exact ⟨c, hc, (marginsIn_follow_ne_nil_iff (hcs c hc)).2 (.inl h)⟩
      · exact ⟨c, hc, (marginsIn_follow_ne_nil_iff (hcs c hc)).2 (.inr h)⟩

/-- `mt-4` and `m-` are replaced, and only the first of them becomes a margin. -/
theorem suggestions_resolve_margins :
    (∀ c ∈ ["mt-4", "m-", "mx-auto"], ∀ x ∈ c.toList, isBlank x = false) ∧
      ["mt-4", "m-", "mx-auto"].map Utility.follow = ["mt-brand-4", "m-brand-", "mx-auto"] ∧
      (Margin.classify (["mt-4", "m-", "mx-auto"].map Utility.follow) "div" true).isViolation := by
  have hblank : ∀ c ∈ ["mt-4", "m-", "mx-auto"], ∀ x ∈ c.toList, isBlank x = false := by
    have hall : (["mt-4", "m-", "mx-auto"].all fun c => c.toList.all (!isBlank ·)) = true := by
      decide
    simpa only [List.all_eq_true, Bool.not_eq_true'] using hall
  obtain ⟨-, -, -, hmargin⟩ := suggestions_resolve hblank
  refine ⟨hblank, by decide, (hmargin "div" true (by decide)).2 (.inr ?_)⟩
  exact ⟨"mt-4", List.mem_cons_self, by decide, "mt", by decide, "4", by decide, by decide⟩

end DesignTokens.Policy
