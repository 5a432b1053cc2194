import DesignTokens.Lint.Config
import DesignTokens.Proofs.Text.Reading
import DesignTokens.Proofs.Value.Table

/-!
# Resolved rules

A configuration gives every rule a setting, its own or the recommended one. It resolves if all
names in it are names of rules and all severities are known, and then to the rules in their order,
each with its setting, without those that are off (`resolve_eq_ok_iff`).
-/

namespace DesignTokens

namespace Lint

variable {rule rule' : Rule} {config : Config} {rules : List ResolvedRule} {r : ResolvedRule}
  {t : RuleTable}

namespace Rule

theorem mem_all (rule : Rule) : rule ∈ all := by cases rule <;> decide

theorem ofId?_id (rule : Rule) : ofId? rule.id = .ok rule := by cases rule <;> rfl

theorem id_inj (h : rule.id = rule'.id) : rule = rule' := by
  have hrule := rule.ofId?_id
  rw [h, rule'.ofId?_id] at hrule
  exact (Except.ok.inj hrule).symm

end Rule

namespace RuleTable

/-- The setting of a rule, configured or recommended. -/
def setting (t : RuleTable) (rule : Rule) : RuleConfig :=
  (t.get? rule.id).getD ⟨.text rule.recommendedSeverity.text, []⟩

/-- All names in the table are names of rules. -/
def Known (t : RuleTable) : Prop := ∀ e ∈ t, ∃ rule, Rule.ofId? e.1 = .ok rule

theorem setting_insert_self (rule : Rule) (c : RuleConfig) (t : RuleTable) :
    setting (Table.insert rule.id c t) rule = c := by
  rw [setting, Table.get?_insert_self]
  rfl

theorem setting_insert_of_ne (h : rule' ≠ rule) (c : RuleConfig) (t : RuleTable) :
    setting (Table.insert rule.id c t) rule' = t.setting rule' := by
  rw [setting, Table.get?_insert_of_ne fun hid => h (Rule.id_inj hid)]
  rfl

theorem Known.insert (h : t.Known) (rule : Rule) (c : RuleConfig) :
    Known (Table.insert rule.id c t) := by
  intro e he
  rcases Table.mem_insert he with rfl | he
  · exact ⟨rule, rule.ofId?_id⟩
  · exact h e he

theorem resolve_eq_ok_iff : t.resolve rule = .ok r ↔ r.rule = rule ∧
    readSeverity rule (t.setting rule).severity = .ok r.severity ∧
      r.options = (t.setting rule).options := by
  have hresolve : t.resolve rule = (readSeverity rule (t.setting rule).severity).map fun s =>
      ⟨rule, s, (t.setting rule).options⟩ := by
    unfold resolve setting
    cases t.get? rule.id with
    | none => cases rule <;> rfl
    | some c => rfl
  rw [hresolve]
  cases readSeverity rule (t.setting rule).severity with
  | error f => exact ⟨nofun, fun h => nomatch h.2.1⟩
  | ok s =>
    constructor
    · intro h
      cases h
      exact ⟨rfl, rfl, rfl⟩
    · rintro ⟨rfl, hs, hoptions⟩
      cases hs
      rw [Except.map, ← hoptions]

end RuleTable

theorem Config.resolve_eq_ok_iff : config.resolve = .ok rules ↔ config.rules.Known ∧
    ∃ resolved, List.Forall₂ (fun rule r => config.rules.resolve rule = .ok r) Rule.all resolved ∧
      rules = resolved.filter (·.severity ≠ .off) := by
  unfold Config.resolve
  constructor
  · intro h
    obtain ⟨ids, hids, h⟩ := ok_of_bind h
    obtain ⟨resolved, hresolved, h⟩ := ok_of_bind h
    cases h
    refine ⟨fun e he => ?_, resolved, mapM_eq_ok_iff.1 hresolved, rfl⟩
    obtain ⟨rule, -, hrule⟩ := exists_of_forall₂ (mapM_eq_ok_iff.1 hids) e he
    exact ⟨rule, hrule⟩
  · rintro ⟨hknown, resolved, hresolved, rfl⟩
    obtain ⟨ids, hids⟩ := exists_forall₂ hknown
    rw [mapM_eq_ok_iff.2 hids, mapM_eq_ok_iff.2 hresolved]
    rfl

/-- Every rule is resolved at most once. -/
theorem Config.nodup_of_resolve (h : config.resolve = .ok rules) : (rules.map (·.rule)).Nodup := by
  obtain ⟨-, resolved, hresolved, rfl⟩ := resolve_eq_ok_iff.1 h
  have hall : resolved.map (·.rule) = Rule.all := by
    have heq : List.Forall₂ (fun r rule => r.rule = rule) resolved Rule.all :=
      (hresolved.imp fun rule r hr => (RuleTable.resolve_eq_ok_iff.1 hr).1).flip
    rwa [← List.forall₂_map_left_iff (R := (· = ·)), List.forall₂_eq_eq_eq] at heq
  have hsublist := (List.filter_sublist (p := fun r => decide (r.severity ≠ .off))
    (l := resolved)).map (·.rule)
  exact (hall ▸ hsublist).nodup (by decide)

end Lint

end DesignTokens
