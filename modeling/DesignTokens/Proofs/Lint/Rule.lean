import DesignTokens.Lint.Source
import DesignTokens.Proofs.Policy.Margin
import DesignTokens.Proofs.Policy.Utility
import DesignTokens.Proofs.Text.Reading
import Mathlib.Data.List.Basic

/-!
# What the rules owe

`owed` lists what the rules owe on the elements of a text, rule by rule: the utility rule one report
for each violating class name of each class attribute, the margin rule at most one report for each
element. Checking an element gives just that (`ActiveRule.check_contexts`), and the rules that are
used on a file owe what all rules owe (`owed_eq_of_activateAll`).
-/

namespace DesignTokens.Lint

open Jsx (Attribute Element)
open Script (valueClassNames)

/-! ### Reports -/

def classAttributes (e : Element) : List Attribute := e.attributes.filter (·.name == classAttribute)

namespace ActiveRule

variable (r : ActiveRule) (file : String) (source : List Char)

/-- The reports on a class attribute: one for each class name in it that violates the policy. -/
def classReports (a : Attribute) : List Diagnostic :=
  ((valueClassNames a.value).filter fun c => (Policy.Utility.classify c).isViolation).map fun c =>
    r.report file (.ofOffset source a.offset)
      [("className", .text c), ("suggestion", .text (Policy.Utility.suggest c))]

/-- The report on an element whose first class attribute holds brand margins, where they are not
allowed. -/
def marginReports (e : Element) : List Diagnostic :=
  let allowed := Policy.Margin.allowedTags r.options.allowSection
  match classAttributes e with
  | ⟨_, offset, some v⟩ :: _ =>
    if e.tag ∉ allowed ∧ Policy.Margin.findMargins v.classNames ≠ [] then
      [r.report file (.ofOffset source offset) [("allowed", .text (", ".intercalate allowed))]]
    else []
  | _ => []

def elementReports (e : Element) : List Diagnostic :=
  match r.rule with
  | .brandClassnamesOnly => (classAttributes e).flatMap (r.classReports file source)
  | .brandMarginPolicy => r.marginReports file source e

end ActiveRule

namespace ResolvedRule

def Accepted (r : ResolvedRule) : Prop := ∃ o, Options.read r.rule r.options = .ok o

def Exempts (file : String) (r : ResolvedRule) : Prop :=
  ∃ o, Options.read r.rule r.options = .ok o ∧ Path.isExempt (some file) o.ignorePaths

/-- What the rule owes on the elements of a text, element by element. -/
def owed (file : String) (source : List Char) (es : List Element) (r : ResolvedRule) :
    List Diagnostic :=
  match Options.read r.rule r.options with
  | .error _ => []
  | .ok o =>
    if Path.isExempt (some file) o.ignorePaths then []
    else es.flatMap (ActiveRule.elementReports ⟨r.rule, r.severity, o⟩ file source)

end ResolvedRule

/-- What the rules owe on the elements of a text, rule by rule. -/
def owed (file : String) (source : List Char) (es : List Element) (rules : List ResolvedRule) :
    List Diagnostic :=
  rules.flatMap (·.owed file source es)

/-! ### The rules report what they owe -/

namespace ActiveRule

variable {r : ActiveRule} {file : String} {source : List Char} {e : Element} {a : Attribute}
  {d : Diagnostic}

theorem checkClass_eq (l : Location) (c : String) : r.checkClass file l c =
    if (Policy.Utility.classify c).isViolation then
      some (r.report file l
        [("className", .text c), ("suggestion", .text (Policy.Utility.suggest c))])
    else none := by
  unfold checkClass
  cases h : Policy.Utility.classify c with
  | compliant => rfl
  | exempt => rfl
  | violation reason suggestion =>
    rw [Policy.Utility.suggestion_of_violation h]
    rfl

theorem filterMap_checkClass (l : Location) (cs : List String) :
    cs.filterMap (r.checkClass file l) =
      (cs.filter fun c => (Policy.Utility.classify c).isViolation).map fun c =>
        r.report file l
          [("className", .text c), ("suggestion", .text (Policy.Utility.suggest c))] := by
  induction cs with
  | nil => rfl
  | cons c cs ih =>
    rw [List.filterMap_cons, checkClass_eq, List.filter_cons]
    by_cases h : (Policy.Utility.classify c).isViolation
    · rw [if_pos h, if_pos h, ih]
      rfl
    · rw [if_neg h, if_neg h, ih]

/-- Checking the contexts of an element gives what the rule owes on it. -/
theorem check_contexts (r : ActiveRule) (file : String) (source : List Char) (e : Element) :
    r.check file e.tag (e.contexts source classAttribute) = r.elementReports file source e := by
  unfold check elementReports
  cases r.rule with
  | brandClassnamesOnly =>
    dsimp only
    rw [Element.contexts, List.flatMap_map]
    exact List.flatMap_congr fun a _ => filterMap_checkClass ..
  | brandMarginPolicy =>
    dsimp only
    unfold marginReports Element.contexts
    rw [show e.attributes.filter (·.name == classAttribute) = classAttributes e from rfl]
    rcases classAttributes e with _ | ⟨⟨name, offset, _ | v⟩, as⟩
    · rfl
    · exact if_neg fun h => (Policy.Margin.classify_isViolation.1 h).2 rfl
    · simp only [List.map_cons, Policy.Margin.classify_isViolation]
      rfl

/-- A report on an element is about one of its class attributes. -/
theorem of_mem_elementReports (h : d ∈ r.elementReports file source e) :
    ∃ a ∈ classAttributes e, ∃ data, d = r.report file (.ofOffset source a.offset) data ∧
      (r.rule = .brandClassnamesOnly →
        ∃ c ∈ valueClassNames a.value, data.lookup "className" = some (.text c)) := by
  unfold elementReports at h
  cases hr : r.rule with
  | brandClassnamesOnly =>
    rw [hr] at h
    obtain ⟨a, ha, hd⟩ := List.mem_flatMap.1 h
    obtain ⟨c, hc, rfl⟩ := List.mem_map.1 hd
    exact ⟨a, ha, _, rfl, fun _ => ⟨c, (List.mem_filter.1 hc).1, rfl⟩⟩
  | brandMarginPolicy =>
    rw [hr] at h
    dsimp only [marginReports] at h
    split at h
    · rename_i name offset v as hattributes
      split at h
      · rw [List.mem_singleton] at h
        exact ⟨_, hattributes ▸ List.mem_cons_self, _, h, nofun⟩
      · cases h
    · cases h

end ActiveRule

section

variable {file : String} {source : List Char} {es : List Element} {r : ResolvedRule}
  {rules : List ResolvedRule} {active : List ActiveRule} {d : Diagnostic}

theorem activateAll_cons (file : Option String) (r : ResolvedRule) (rules : List ResolvedRule) :
    activateAll file (r :: rules) = (do
      let o ← r.rule.activate file r.options r.severity
      return o.toList ++ (← activateAll file rules)) := by
  unfold activateAll
  rw [List.mapM_cons]
  cases r.rule.activate file r.options r.severity with
  | error f => rfl
  | ok o =>
    cases rules.mapM fun r => r.rule.activate file r.options r.severity with
    | error f => rfl
    | ok os => cases o <;> rfl

theorem activate_of_read {o : Options} (h : Options.read r.rule r.options = .ok o) :
    r.rule.activate (some file) r.options r.severity =
      .ok (if Path.isExempt (some file) o.ignorePaths then none
        else some ⟨r.rule, r.severity, o⟩) := by
  show (Options.read r.rule r.options >>= _) = _
  rw [h]
  show ite _ _ _ = _
  split <;> rfl

theorem accepted_of_activate {o : Option ActiveRule}
    (h : r.rule.activate (some file) r.options r.severity = .ok o) : r.Accepted := by
  obtain ⟨options, hread, -⟩ := ok_of_bind h
  exact ⟨options, hread⟩

theorem activateAll_ok (h : ∀ r ∈ rules, r.Accepted) :
    ∃ active, activateAll (some file) rules = .ok active := by
  induction rules with
  | nil => exact ⟨[], rfl⟩
  | cons r rules ih =>
    obtain ⟨hr, hrules⟩ := List.forall_mem_cons.1 h
    obtain ⟨o, ho⟩ := hr
    obtain ⟨active, hactive⟩ := ih hrules
    rw [activateAll_cons, activate_of_read ho, hactive]
    exact ⟨_, rfl⟩

/-- The rules that are used owe what all rules owe. -/
theorem owed_eq_of_activateAll (h : activateAll (some file) rules = .ok active) :
    owed file source es rules =
      active.flatMap fun r => es.flatMap (r.elementReports file source) := by
  induction rules generalizing active with
  | nil =>
    cases h
    rfl
  | cons r rules ih =>
    rw [activateAll_cons] at h
    obtain ⟨used, hused, h⟩ := ok_of_bind h
    obtain ⟨rest, hrest, h⟩ := ok_of_bind h
    cases h
    obtain ⟨o, ho⟩ := accepted_of_activate hused
    rw [activate_of_read ho] at hused
    cases hused
    rw [List.flatMap_append, ← ih hrest]
    refine congrArg (· ++ owed file source es rules) ?_
    show r.owed file source es = _
    unfold ResolvedRule.owed
    rw [ho]
    dsimp only
    split
    · rfl
    · exact (List.append_nil _).symm

theorem exempts_of_activateAll (h : activateAll (some file) rules = .ok []) (hr : r ∈ rules) :
    r.Exempts file := by
  induction rules with
  | nil => cases hr
  | cons r' rules ih =>
    rw [activateAll_cons] at h
    obtain ⟨used, hused, h⟩ := ok_of_bind h
    obtain ⟨rest, hrest, h⟩ := ok_of_bind h
    have hnil : used.toList ++ rest = [] := Except.ok.inj h
    rw [List.append_eq_nil_iff, Option.toList_eq_nil_iff] at hnil
    obtain ⟨rfl, rfl⟩ := hnil
    rcases List.mem_cons.1 hr with rfl | hr
    · obtain ⟨o, ho⟩ := accepted_of_activate hused
      rw [activate_of_read ho] at hused
      refine ⟨o, ho, ?_⟩
      split at hused
      · assumption
      · cases hused
    · exact ih hrest hr

theorem of_mem_owed (h : d ∈ owed file source es rules) :
    ∃ r ∈ rules, ∃ o, ∃ e ∈ es,
      d ∈ ActiveRule.elementReports ⟨r.rule, r.severity, o⟩ file source e := by
  obtain ⟨r, hr, h⟩ := List.mem_flatMap.1 h
  unfold ResolvedRule.owed at h
  split at h
  · cases h
  · rename_i o ho
    split at h
    · cases h
    · obtain ⟨e, he, h⟩ := List.mem_flatMap.1 h
      exact ⟨r, hr, o, e, he, h⟩

end

end DesignTokens.Lint
