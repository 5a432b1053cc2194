import DesignTokens.Proofs.ClassName.Normal
import DesignTokens.Proofs.Lint.Source

/-!
# What linting can report

`Reported file d`: the diagnostic is about a class name that violates the utility policy, or about
brand margins on an element that may not carry them. Linting reports nothing else
(`reported_of_lintSource`), so what holds of both kinds holds of every diagnostic.
-/

namespace DesignTokens

namespace Lint

open Policy

/-! ### The two kinds of reports -/

variable {file : String} {source : List Char} {rules : List ResolvedRule} {ds : List Diagnostic}
  {d : Diagnostic}

/-- The report of a rule at a place. -/
def Rule.reportAt (rule : Rule) (file : String) (severity : Severity) (l : Location)
    (data : List (String × Value)) : Diagnostic :=
  report file rule.id rule.messageId rule.messageTemplate severity l data

inductive Reported (file : String) : Diagnostic → Prop
  | className {severity : Severity} {l : Location} {c : String} :
    (Utility.classify c).isViolation → (∀ x ∈ c.toList, Text.isBlank x = false) →
    Reported file (Rule.brandClassnamesOnly.reportAt file severity l
      [("className", .text c), ("suggestion", .text (Utility.suggest c))])
  | margins {severity : Severity} {l : Location} (allowSection : Bool) :
    Reported file (Rule.brandMarginPolicy.reportAt file severity l
      [("allowed", .text (", ".intercalate (Margin.allowedTags allowSection)))])

theorem ActiveRule.reported_of_mem {r : ActiveRule} {e : Jsx.Element}
    (h : d ∈ r.elementReports file source e) : Reported file d := by
  unfold elementReports at h
  obtain ⟨rule, severity, options⟩ := r
  cases rule with
  | brandClassnamesOnly =>
    obtain ⟨a, -, hd⟩ := List.mem_flatMap.1 h
    obtain ⟨c, hc, rfl⟩ := List.mem_map.1 hd
    obtain ⟨hc, hviolation⟩ := List.mem_filter.1 hc
    have hname := Script.isClassName_of_mem_valueClassNames a.value c hc
    exact .className hviolation hname.notBlank
  | brandMarginPolicy =>
    dsimp only [marginReports] at h
    split at h
    · split at h
      · rw [List.mem_singleton.1 h]
        exact .margins options.allowSection
      · cases h
    · cases h

theorem reported_of_lintSource (h : lintSource source file rules = .ok ds) (hd : d ∈ ds) :
    Reported file d := by
  obtain ⟨active, hactive, ⟨rfl, rfl⟩ | ⟨es, hscan, -⟩⟩ := lintSource_cases h
  · cases hd
  · have howed := (accounts_of_lintSource h hscan).complete.subset hd
    obtain ⟨r, -, o, e, -, hd⟩ := of_mem_owed howed
    exact ActiveRule.reported_of_mem hd

end Lint

end DesignTokens
