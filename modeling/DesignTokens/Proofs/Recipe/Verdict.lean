import DesignTokens.Proofs.ClassName.Template
import DesignTokens.Proofs.Policy.Margin
import DesignTokens.Proofs.Policy.Utility
import DesignTokens.Recipe.Button
import DesignTokens.Recipe.Card

/-!
# Verdicts on recipes

What the policies say of the class names of a component: nothing of its own, except that the
background of buttons without a fill is not a brand color (`recipes_judged`). The verdicts on the
extra class names stay what they are.
-/

namespace DesignTokens.Recipe

open Policy (Verdict)

variable {own own' : List String} {vs vs' : List (String × Verdict)}

/-- The class names that violate the utility policy, with the verdicts on them. -/
def violations (cs : List String) : List (String × Verdict) :=
  (cs.map fun c => (c, Policy.Utility.classify c)).filter (·.2.isViolation)

theorem violations_append (cs cs' : List String) :
    violations (cs ++ cs') = violations cs ++ violations cs' := by
  simp [violations]

theorem classWords_joined (cs : List String) : classWords (joined cs) = cs.flatMap classWords := by
  rw [joined, Script.classWords_intercalate]
  induction cs with
  | nil => rfl
  | cons c cs ih =>
    rw [List.filter_cons]
    split
    · rw [List.flatMap_cons, List.flatMap_cons, ih]
    · rename_i hempty
      have hc : c = "" := by simpa using hempty
      rw [List.flatMap_cons, ih, hc]
      rfl

/-- The texts hold class names with these violations and without margins. -/
structure Judged (own : List String) (vs : List (String × Verdict)) : Prop where
  violations : violations (own.flatMap classWords) = vs
  margins : Policy.Margin.findMargins (own.flatMap classWords) = []

/-- The class name uses the brand vocabulary or has no critical utility, and no margin begins in
it. -/
def harmless (c : String) : Bool :=
  (Policy.Utility.hasBrandMarker c || (Policy.Utility.criticalUtility? c).isNone) &&
    c.toList.tails.all fun s => (Policy.Margin.margin? s).isNone

theorem isViolation_of_harmless {c : String} (h : harmless c) :
    (Policy.Utility.classify c).isViolation = false := by
  rw [← Bool.not_eq_true, Policy.Utility.isViolation_iff]
  rintro ⟨hmarker, -, hutility⟩
  simp [harmless, hmarker, Option.isSome_iff_ne_none.1 hutility] at h

theorem marginsIn_of_harmless {c : String} (h : harmless c) :
    Policy.Margin.marginsIn false c.toList = [] := by
  rw [harmless, Bool.and_eq_true, List.all_eq_true] at h
  exact Policy.Margin.marginsIn_eq_nil fun s hs => Option.isNone_iff_eq_none.1 (h.2 s hs)

namespace Judged

theorem of_harmless (h : (own.flatMap classWords).all harmless) : Judged own [] := by
  rw [List.all_eq_true] at h
  constructor
  · rw [Recipe.violations, List.filter_eq_nil_iff, List.forall_mem_map]
    intro c hc
    rw [isViolation_of_harmless (h c hc)]
    exact Bool.false_ne_true
  · rw [Policy.Margin.findMargins, List.flatMap_eq_nil_iff]
    intro c hc
    rw [marginsIn_of_harmless (h c hc)]
    rfl

theorem append (h : Judged own vs) (h' : Judged own' vs') :
    Judged (own ++ own') (vs ++ vs') := by
  constructor
  · rw [List.flatMap_append, violations_append, h.violations, h'.violations]
  · rw [List.flatMap_append, Policy.Margin.findMargins_append, h.margins, h'.margins]
    rfl

/-- With extra class names only their verdicts are added. -/
theorem joined_extra (h : Judged own vs) (extra : Option String) :
    Recipe.violations (classWords (joined (own ++ extra.toList))) =
        vs ++ Recipe.violations (classWords (extra.getD "")) ∧
      ∀ tag allowSection,
        Policy.Margin.classify (classWords (joined (own ++ extra.toList))) tag allowSection =
          Policy.Margin.classify (classWords (extra.getD "")) tag allowSection := by
  have hextra : extra.toList.flatMap classWords = classWords (extra.getD "") := by
    cases extra with
    | none => rfl
    | some e => exact List.flatMap_singleton ..
  rw [classWords_joined, List.flatMap_append, hextra, violations_append, h.violations]
  refine ⟨rfl, fun tag allowSection => ?_⟩
  rw [Policy.Margin.classify, Policy.Margin.classify, Policy.Margin.findMargins_append, h.margins,
    List.nil_append]

end Judged

/-! ### The tables of classes -/

theorem judged_radius (r : Size) : Judged [r.radiusClass] [] := by
  cases r <;> exact .of_harmless (by decide)

namespace Button

theorem judged_base : Judged baseClasses [] := .of_harmless (by decide)

theorem judged_size (s : Size) : Judged (sizeClasses s) [] := by
  cases s <;> exact .of_harmless (by decide)

/-- A transparent background is not a brand color. -/
def transparent : String × Verdict :=
  ("bg-transparent", .violation Policy.Utility.forbiddenClass (some "bg-brand-transparent"))

theorem judged_transparent : Judged ["bg-transparent"] [transparent] where
  violations := by decide
  margins := by
    show Policy.Margin.findMargins ["bg-transparent"] = []
    rw [Policy.Margin.findMargins, List.flatMap_singleton, Policy.Margin.marginsIn_eq_nil]
    · rfl
    · decide

/-- The violations of a button's own classes. -/
def variantViolations : ButtonVariant → List (String × Verdict)
  | .solid => []
  | .outline | .ghost => [transparent]

theorem variantViolations_eq_nil_iff {v : ButtonVariant} : variantViolations v = [] ↔ v = .solid := by
  cases v <;> simp [variantViolations]

theorem judged_variant (v : ButtonVariant) (t : ButtonTone) :
    Judged (variantClasses v t) (variantViolations v) := by
  cases v with
  | solid => cases t <;> exact .of_harmless (by decide)
  | outline =>
    have hrest : Judged (variantClasses .outline t).tail [] := by
      cases t <;> exact .of_harmless (by decide)
    exact judged_transparent.append hrest
  | ghost =>
    have hrest : Judged (variantClasses .ghost t).tail [] := by
      cases t <;> exact .of_harmless (by decide)
    exact judged_transparent.append hrest

theorem judged_disabled (d : Bool) : Judged (if d then [disabledClasses] else []) [] := by
  cases d <;> exact .of_harmless (by decide)

theorem judged (b : Button) :
    violations (classWords b.classes) =
        variantViolations b.variant ++ violations (classWords (b.extra.getD "")) ∧
      ∀ tag allowSection, Policy.Margin.classify (classWords b.classes) tag allowSection =
        Policy.Margin.classify (classWords (b.extra.getD "")) tag allowSection := by
  have hown := (((judged_base.append (judged_size b.size)).append (judged_radius b.radius)).append
    (judged_variant b.variant b.tone)).append (judged_disabled b.disabled)
  rw [List.append_nil] at hown
  exact hown.joined_extra b.extra

end Button

namespace Card

theorem judged_surface (t : CardTone) :
    Judged [t.surfaceClass, "border", "border-brand-surface-0"] [] := by
  cases t <;> exact .of_harmless (by decide)

theorem judged_padding (p : CardPadding) : Judged [p.paddingClass] [] := by
  cases p <;> exact .of_harmless (by decide)

theorem judged (c : Card) :
    violations (classWords c.classes) = violations (classWords (c.extra.getD "")) ∧
      ∀ tag allowSection, Policy.Margin.classify (classWords c.classes) tag allowSection =
        Policy.Margin.classify (classWords (c.extra.getD "")) tag allowSection :=
  (((judged_surface c.tone).append (judged_padding c.padding)).append
    (judged_radius c.radius)).joined_extra c.extra

end Card

/-- Of the class names of a component only the extra ones and the background of a button without a
fill violate the utility policy, so just buttons with a fill and cards add no violation. The margin
policy says what it says of the extra ones. -/
theorem recipes_judged (b : Button) (c : Card) (tag : String) (allowSection : Bool) :
    (violations (classWords b.classes) =
        Button.variantViolations b.variant ++ violations (classWords (b.extra.getD "")) ∧
      (violations (classWords b.classes) = violations (classWords (b.extra.getD "")) ↔
        b.variant = .solid) ∧
      Policy.Margin.classify (classWords b.classes) tag allowSection =
        Policy.Margin.classify (classWords (b.extra.getD "")) tag allowSection) ∧
    violations (classWords c.classes) = violations (classWords (c.extra.getD "")) ∧
      Policy.Margin.classify (classWords c.classes) tag allowSection =
        Policy.Margin.classify (classWords (c.extra.getD "")) tag allowSection := by
  obtain ⟨hviolations, hmargins⟩ := b.judged
  refine ⟨⟨hviolations, ?_, hmargins tag allowSection⟩, c.judged.1, c.judged.2 tag allowSection⟩
  rw [hviolations, List.append_left_eq_self, Button.variantViolations_eq_nil_iff]

/-- The background of a button with an outline is a violation of its own. -/
theorem not_recipes_judged : ¬∀ b : Button,
    violations (classWords b.classes) = violations (classWords (b.extra.getD "")) := by
  intro h
  have houtline := h { Button.default with variant := .outline }
  rw [(Button.judged _).1] at houtline
  cases houtline

end DesignTokens.Recipe
