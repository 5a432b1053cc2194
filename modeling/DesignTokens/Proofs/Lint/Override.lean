import DesignTokens.Proofs.Lint.OverrideOptions
import DesignTokens.Proofs.Lint.Resolve
import DesignTokens.Proofs.Lint.Rule
import Mathlib.Data.List.Nodup

/-!
# Overridden configurations

Overrides are laid over the settings of all rules, one rule after another, before any option is
checked. So they resolve to the same rules with the same severities (`exists_resolve`), and what
they do to the options of one rule decides whether these are accepted.

They do what they should unless they meet an option under its other name, or ignored paths that
nothing can be taken from at a rule that is off (`override_extends`). They keep a fault from being
found if all it is about is an option that they replace or take for a list (`override_rejects`).
-/

namespace DesignTokens.Lint

open Options

variable {config config' : Config} {rules : List ResolvedRule} {r r' : ResolvedRule} {rule : Rule}
  {t t' : RuleTable} {paths : List String} {allowSection : Bool} {issues : List OptionIssue}
  {rs : List Rule}

/-! ### All settings -/

namespace RuleTable

/-- The overrides are laid over the setting of one rule. -/
def override (paths : List String) (allowSection : Bool) (t : RuleTable) (rule : Rule) :
    Except NotIterable RuleTable := do
  let old := t.setting rule
  return Table.insert rule.id
    ⟨old.severity, ← overrideOptions rule paths allowSection old.options⟩ t

/-- The setting of the rule in `t'` is that in `t` with the overrides laid over it. -/
structure Overridden (paths : List String) (allowSection : Bool) (t t' : RuleTable) (rule : Rule) :
    Prop where
  severity : (t'.setting rule).severity = (t.setting rule).severity
  options : overrideOptions rule paths allowSection (t.setting rule).options =
    .ok (t'.setting rule).options

theorem override_eq (t : RuleTable) (rule : Rule) : t.override paths allowSection rule =
    (overrideOptions rule paths allowSection (t.setting rule).options >>= fun options =>
      pure (Table.insert rule.id ⟨(t.setting rule).severity, options⟩ t)) :=
  rfl

/-- One step sets one rule and leaves the others alone. -/
theorem override_cases (h : t.override paths allowSection rule = .ok t') :
    Overridden paths allowSection t t' rule ∧ (∀ rule' ≠ rule, t'.setting rule' = t.setting rule') ∧
      (t.Known → t'.Known) := by
  obtain ⟨options, hoptions, h⟩ := ok_of_bind h
  cases h
  refine ⟨⟨?_, ?_⟩, fun rule' hne => setting_insert_of_ne hne _ t, fun hknown => hknown.insert _ _⟩
  · rw [setting_insert_self]
  · rw [setting_insert_self, hoptions]

theorem override_ok_iff : (∃ t', t.override paths allowSection rule = .ok t') ↔
    ∃ options, overrideOptions rule paths allowSection (t.setting rule).options = .ok options := by
  rw [override_eq]
  cases overrideOptions rule paths allowSection (t.setting rule).options with
  | error e => exact ⟨nofun, nofun⟩
  | ok options => exact ⟨fun _ => ⟨options, rfl⟩, fun _ => ⟨_, rfl⟩⟩

theorem overrideAll_cases (hrs : rs.Nodup)
    (h : rs.foldlM (override paths allowSection) t = .ok t') :
    (∀ rule ∈ rs, Overridden paths allowSection t t' rule) ∧
      (∀ rule ∉ rs, t'.setting rule = t.setting rule) ∧ (t.Known → t'.Known) := by
  induction rs generalizing t with
  | nil =>
    cases h
    exact ⟨List.forall_mem_nil _, fun _ _ => rfl, id⟩
  | cons rule rs ih =>
    rw [List.foldlM_cons] at h
    obtain ⟨t₁, hstep, h⟩ := ok_of_bind h
    obtain ⟨hrule, hrs⟩ := List.nodup_cons.1 hrs
    obtain ⟨hfirst, hothers, hknown⟩ := override_cases hstep
    obtain ⟨hrest, hsame, hknown'⟩ := ih hrs h
    refine ⟨List.forall_mem_cons.2 ⟨⟨?_, ?_⟩, fun rule' hrule' => ?_⟩, fun rule' hrule' => ?_,
      fun ht => hknown' (hknown ht)⟩
    · rw [hsame rule hrule, hfirst.severity]
    · rw [hsame rule hrule, hfirst.options]
    · -- a later step starts from the setting that was there at first
      have hne : rule' ≠ rule := fun heq => hrule (heq ▸ hrule')
      obtain ⟨hseverity, hoptions⟩ := hrest rule' hrule'
      rw [hothers rule' hne] at hseverity hoptions
      exact ⟨hseverity, hoptions⟩
    · rw [List.mem_cons, not_or] at hrule'
      rw [hsame rule' hrule'.2, hothers rule' hrule'.1]

theorem overrideAll_ok_iff (hrs : rs.Nodup) :
    (∃ t', rs.foldlM (override paths allowSection) t = .ok t') ↔ ∀ rule ∈ rs, ∃ options,
      overrideOptions rule paths allowSection (t.setting rule).options = .ok options := by
  constructor
  · rintro ⟨t', h⟩ rule hrule
    exact ⟨_, ((overrideAll_cases hrs h).1 rule hrule).options⟩
  · intro h
    induction rs generalizing t with
    | nil => exact ⟨t, rfl⟩
    | cons rule rs ih =>
      obtain ⟨hrule, hrs⟩ := List.nodup_cons.1 hrs
      obtain ⟨hfirst, hrest⟩ := List.forall_mem_cons.1 h
      obtain ⟨t₁, hstep⟩ := override_ok_iff.2 hfirst
      obtain ⟨t', h⟩ := ih hrs (t := t₁) fun rule' hrule' => by
        rw [(override_cases hstep).2.1 rule' fun heq => hrule (heq ▸ hrule')]
        exact hrest rule' hrule'
      refine ⟨t', ?_⟩
      rw [List.foldlM_cons, hstep]
      exact h

end RuleTable

theorem Config.override_eq (config : Config) (paths : List String) (allowSection : Bool) :
    config.override paths allowSection = if paths.isEmpty && !allowSection then .ok config else do
      return { config with
        rules := ← Rule.all.foldlM (RuleTable.override paths allowSection) config.rules } :=
  rfl

theorem Config.override_cases (h : config.override paths allowSection = .ok config') :
    (config'.included = config.included ∧ config'.excluded = config.excluded) ∧
      (∀ rule, RuleTable.Overridden paths allowSection config.rules config'.rules rule) ∧
      (config.rules.Known → config'.rules.Known) := by
  rw [override_eq] at h
  split at h
  · rename_i hnone
    rw [Bool.and_eq_true, List.isEmpty_iff, Bool.not_eq_true'] at hnone
    obtain ⟨rfl, rfl⟩ := hnone
    cases h
    exact ⟨⟨rfl, rfl⟩, fun rule => ⟨rfl, overrideOptions_nil ..⟩, id⟩
  · obtain ⟨t', ht', h⟩ := ok_of_bind h
    cases h
    obtain ⟨hall, -, hknown⟩ := RuleTable.overrideAll_cases (by decide) ht'
    exact ⟨⟨rfl, rfl⟩, fun rule => hall rule rule.mem_all, hknown⟩

/-- Items can be taken from what every rule, also one that is off, has under `ignorePaths`, if
anything is added to it. -/
def Config.Extendable (paths : List String) (config : Config) : Prop :=
  paths = [] ∨ ∀ rule, ∃ old, items (givenPaths (config.rules.setting rule).options) = .ok old

theorem Config.override_ok_iff :
    (∃ config', config.override paths allowSection = .ok config') ↔ config.Extendable paths := by
  have hrules : (∃ t', Rule.all.foldlM (RuleTable.override paths allowSection) config.rules =
      .ok t') ↔ config.Extendable paths := by
    rw [RuleTable.overrideAll_ok_iff (by decide)]
    simp only [overrideOptions_ok_iff, Rule.mem_all, true_imp_iff]
    exact forall_or_left
  rw [← hrules, override_eq]
  split
  · rename_i hnone
    rw [Bool.and_eq_true, List.isEmpty_iff, Bool.not_eq_true'] at hnone
    obtain ⟨rfl, rfl⟩ := hnone
    exact ⟨fun _ => hrules.2 (.inl rfl), fun _ => ⟨config, rfl⟩⟩
  · cases Rule.all.foldlM (RuleTable.override paths allowSection) config.rules with
    | error e => exact ⟨nofun, nofun⟩
    | ok t' => exact ⟨fun _ => ⟨t', rfl⟩, fun _ => ⟨_, rfl⟩⟩

/-! ### Resolved rules -/

/-- `r'` is `r` with its options overridden. -/
structure ResolvedRule.Overrides (paths : List String) (allowSection : Bool)
    (r r' : ResolvedRule) : Prop where
  rule : r'.rule = r.rule
  severity : r'.severity = r.severity
  options : overrideOptions r.rule paths allowSection r.options = .ok r'.options

/-- An overridden configuration resolves to the same rules, with their options overridden. -/
theorem exists_resolve (hresolve : config.resolve = .ok rules)
    (h : config.override paths allowSection = .ok config') :
    ∃ rules', config'.resolve = .ok rules' ∧
      List.Forall₂ (ResolvedRule.Overrides paths allowSection) rules rules' := by
  obtain ⟨-, hoverridden, hknown⟩ := Config.override_cases h
  obtain ⟨hnames, resolved, hresolved, rfl⟩ := Config.resolve_eq_ok_iff.1 hresolve
  have htransfer : ∀ rule r, config.rules.resolve rule = .ok r →
      ∃ r', config'.rules.resolve rule = .ok r' ∧
        ResolvedRule.Overrides paths allowSection r r' := by
    intro rule r hr
    obtain ⟨rfl, hseverity, hoptions⟩ := RuleTable.resolve_eq_ok_iff.1 hr
    refine ⟨⟨r.rule, r.severity, (config'.rules.setting r.rule).options⟩,
      RuleTable.resolve_eq_ok_iff.2 ⟨rfl, ?_, rfl⟩, rfl, rfl, ?_⟩
    · rw [(hoverridden r.rule).severity, hseverity]
    · rw [hoptions, (hoverridden r.rule).options]
  obtain ⟨resolved', hresolved', hrules⟩ := forall₂_transfer hresolved htransfer
  refine ⟨_, Config.resolve_eq_ok_iff.2 ⟨hknown hnames, resolved', hresolved', rfl⟩,
    List.rel_filter (fun r r' hr => ?_) hrules⟩
  show _ ↔ decide (r'.severity ≠ .off) = true
  rw [hr.severity]

/-! ### Accepted options -/

/-- The options of `r'` are accepted, and are those of `r` with `paths` after its ignored paths and,
for the margin rule, with its permission for sections or the one that is added. -/
structure ResolvedRule.Extends (paths : List String) (allowSection : Bool)
    (r r' : ResolvedRule) : Prop where
  rule : r'.rule = r.rule
  severity : r'.severity = r.severity
  options : ∃ o, Options.read r.rule r.options = .ok o ∧
    Options.read r'.rule r'.options = .ok ⟨o.ignorePaths ++ paths,
      o.allowSection || (allowSection && r.rule == .brandMarginPolicy)⟩

theorem ResolvedRule.Overrides.extends_iff (h : r.Overrides paths allowSection r')
    (haccepted : r.Accepted) :
    r.Extends paths allowSection r' ↔ ¬Respells paths allowSection r.rule r.options := by
  obtain ⟨o, ho⟩ := haccepted
  obtain ⟨hissues, rfl⟩ := read_eq_ok_iff.1 ho
  constructor
  · rintro ⟨-, -, o', -, hread⟩
    rw [h.rule] at hread
    exact ((issues_overrideOptions h.options).1 (read_eq_ok_iff.1 hread).1).1
  · intro hrespells
    refine ⟨h.rule, h.severity, _, ho, ?_⟩
    rw [h.rule]
    refine read_eq_ok_iff.2 ⟨(issues_overrideOptions h.options).2 ⟨hrespells, ?_⟩,
      value_overrideOptions h.options hissues hrespells⟩
    rw [hissues]
    exact List.forall_mem_nil _

/-- The overrides can be laid over the configuration, with just the effect that they name. -/
def Config.OverrideExtends (paths : List String) (allowSection : Bool) (config : Config)
    (rules : List ResolvedRule) : Prop :=
  ∃ config', config.override paths allowSection = .ok config' ∧
    config'.included = config.included ∧ config'.excluded = config.excluded ∧
    ∃ rules', config'.resolve = .ok rules' ∧
      List.Forall₂ (ResolvedRule.Extends paths allowSection) rules rules'

/-- Overrides keep accepted options accepted and have just the effect that they name, unless they
give a value to an option that is given under its other name, or there is a rule, possibly one that
is off, whose ignored paths are nothing that items can be taken from. -/
theorem override_extends (hresolve : config.resolve = .ok rules)
    (haccepted : ∀ r ∈ rules, r.Accepted) :
    config.OverrideExtends paths allowSection rules ↔ config.Extendable paths ∧
      ∀ r ∈ rules, ¬Respells paths allowSection r.rule r.options := by
  have hextends {rules' : List ResolvedRule}
      (hrules : List.Forall₂ (ResolvedRule.Overrides paths allowSection) rules rules') :
      List.Forall₂ (ResolvedRule.Extends paths allowSection) rules rules' ↔
        ∀ r ∈ rules, ¬Respells paths allowSection r.rule r.options :=
    forall₂_iff_forall hrules fun r hr r' h => h.extends_iff (haccepted r hr)
  constructor
  · rintro ⟨config', hconfig, -, -, rules', hrules', h⟩
    obtain ⟨rules'', hrules'', hoverrides⟩ := exists_resolve hresolve hconfig
    obtain rfl : rules'' = rules' := Except.ok.inj (hrules''.symm.trans hrules')
    exact ⟨Config.override_ok_iff.1 ⟨config', hconfig⟩, (hextends hoverrides).1 h⟩
  · rintro ⟨hextendable, hrespells⟩
    obtain ⟨config', hconfig⟩ := Config.override_ok_iff.2 hextendable
    obtain ⟨⟨hincluded, hexcluded⟩, -⟩ := Config.override_cases hconfig
    obtain ⟨rules', hrules', hoverrides⟩ := exists_resolve hresolve hconfig
    exact ⟨config', hconfig, hincluded, hexcluded, rules', hrules',
      (hextends hoverrides).2 hrespells⟩

/-- A configuration that sets the options of one rule. -/
def configured (rule : Rule) (options : Entries) : Config :=
  { Config.default with rules := [(rule.id, ⟨.text "warn", options⟩)] }

theorem override_extends_listed :
    (configured .brandMarginPolicy [(.text "ignorePaths", .list [.text "a/**"])]).OverrideExtends
      ["b/**"] true [⟨.brandClassnamesOnly, .error, []⟩,
        ⟨.brandMarginPolicy, .warn, [(.text "ignorePaths", .list [.text "a/**"])]⟩] := by
  refine (override_extends rfl ?_).2 ⟨.inr ?_, ?_⟩
  · exact List.forall_mem_cons.2 ⟨⟨_, rfl⟩, List.forall_mem_singleton.2 ⟨_, rfl⟩⟩
  · rintro (_ | _) <;> exact ⟨_, rfl⟩
  · refine List.forall_mem_cons.2 ⟨?_, List.forall_mem_singleton.2 ?_⟩
    all_goals exact not_respells_iff.2 ⟨fun _ => rfl, fun _ => rfl⟩

/-- Ignored paths that are given under the other name are not accepted with paths added to them. -/
theorem not_override_extends : ¬∀ (config : Config) (rules : List ResolvedRule)
    (paths : List String) (allowSection : Bool), config.resolve = .ok rules →
      (∀ r ∈ rules, r.Accepted) → config.OverrideExtends paths allowSection rules := by
  intro h
  obtain ⟨config', hconfig, -, -, rules', hrules', hextends⟩ :=
    h (configured .brandClassnamesOnly [(.text "ignore_paths", .list [.text "a/**"])]) _
      ["b/**"] false rfl
      (List.forall_mem_cons.2 ⟨⟨_, rfl⟩, List.forall_mem_singleton.2 ⟨_, rfl⟩⟩)
  cases hconfig
  cases hrules'
  obtain ⟨-, -, o, -, hread⟩ := (List.forall₂_cons.1 hextends).1
  cases hread

/-! ### Options that are not accepted -/

/-- The overrides can be laid over the configuration, and the options of the rule are not accepted
then. -/
def Config.OverrideRejects (paths : List String) (allowSection : Bool) (config : Config)
    (rule : Rule) : Prop :=
  ∃ config', config.override paths allowSection = .ok config' ∧
    ∃ rules', config'.resolve = .ok rules' ∧ ∃ r' ∈ rules', r'.rule = rule ∧
      ∃ issues, Options.read rule r'.options = .error (.invalidOptions rule issues)

theorem ResolvedRule.Overrides.read_eq_error_iff (h : r.Overrides paths allowSection r') :
    (∃ issues, Options.read r.rule r'.options = .error (.invalidOptions r.rule issues)) ↔
      Respells paths allowSection r.rule r.options ∨ ∃ issue ∈ Options.issues r.rule r.options,
        ¬Hides paths allowSection r.rule r.options issue := by
  have hissues : (∃ issues, Options.read r.rule r'.options =
      .error (.invalidOptions r.rule issues)) ↔ Options.issues r.rule r'.options ≠ [] := by
    simp [Options.read_eq_error_iff]
  rw [hissues, Ne, issues_overrideOptions h.options, not_and_or, not_not, not_forall₂]
  simp only [exists_prop]

/-- What an overridden rule was before is said by its name. -/
theorem overrides_of_rule {rules' : List ResolvedRule} (hnodup : (rules.map (·.rule)).Nodup)
    (h : List.Forall₂ (ResolvedRule.Overrides paths allowSection) rules rules') (hr : r ∈ rules)
    (hr' : r' ∈ rules') (hrule : r'.rule = r.rule) : r.Overrides paths allowSection r' := by
  obtain ⟨r₀, hr₀, hoverrides⟩ := exists_of_forall₂ h.flip r' hr'
  obtain rfl := List.inj_on_of_nodup_map hnodup hr₀ hr (hoverrides.rule.symm.trans hrule)
  exact hoverrides

/-- Options that are not accepted are not accepted with overrides either, unless there is a rule
whose ignored paths are nothing that items can be taken from, or the overrides hide all that is
wrong with the options. -/
theorem override_rejects (hresolve : config.resolve = .ok rules) (hr : r ∈ rules)
    (hread : Options.read r.rule r.options = .error (.invalidOptions r.rule issues)) :
    config.OverrideRejects paths allowSection r.rule ↔ config.Extendable paths ∧
      (Respells paths allowSection r.rule r.options ∨
        ∃ issue ∈ issues, ¬Hides paths allowSection r.rule r.options issue) := by
  obtain ⟨-, hfault⟩ := Options.read_eq_error_iff.1 hread
  cases hfault
  constructor
  · rintro ⟨config', hconfig, rules', hrules', r', hr', hrule, hread'⟩
    obtain ⟨rules'', hrules'', hoverrides⟩ := exists_resolve hresolve hconfig
    obtain rfl : rules'' = rules' := Except.ok.inj (hrules''.symm.trans hrules')
    have h := overrides_of_rule (Config.nodup_of_resolve hresolve) hoverrides hr hr' hrule
    exact ⟨Config.override_ok_iff.1 ⟨config', hconfig⟩, h.read_eq_error_iff.1 hread'⟩
  · rintro ⟨hextendable, hissues⟩
    obtain ⟨config', hconfig⟩ := Config.override_ok_iff.2 hextendable
    obtain ⟨rules', hrules', hoverrides⟩ := exists_resolve hresolve hconfig
    obtain ⟨r', hr', h⟩ := exists_of_forall₂ hoverrides r hr
    exact ⟨config', hconfig, rules', hrules', r', hr', h.rule, h.read_eq_error_iff.2 hissues⟩

/-- A list with an item that is no text is found with a path added to it. -/
theorem override_rejects_number :
    (configured .brandClassnamesOnly [(.text "ignorePaths", .list [.int 5])]).OverrideRejects
      ["b/**"] false .brandClassnamesOnly := by
  have hread : Options.read .brandClassnamesOnly [(.text "ignorePaths", .list [.int 5])] =
      .error (.invalidOptions .brandClassnamesOnly
        [⟨.textExpected, .text "ignorePaths", some 0⟩]) := rfl
  refine (override_rejects (r := ⟨_, .warn, _⟩) rfl List.mem_cons_self hread).2
    ⟨.inr ?_, .inr ⟨_, List.mem_cons_self, ?_⟩⟩
  · rintro (_ | _) <;> exact ⟨_, rfl⟩
  · rintro (⟨-, hissue, -⟩ | ⟨hallow, -⟩)
    · cases hissue
    · cases hallow

/-- A text instead of a list of paths is accepted as its characters once a path is added. -/
theorem not_override_rejects : ¬∀ (config : Config) (rules : List ResolvedRule)
    (r : ResolvedRule) (issues : List OptionIssue) (paths : List String) (allowSection : Bool),
      config.resolve = .ok rules → r ∈ rules →
        Options.read r.rule r.options = .error (.invalidOptions r.rule issues) →
          config.OverrideRejects paths allowSection r.rule := by
  intro h
  obtain ⟨config', hconfig, rules', hrules', r', hr', hrule, issues, hread⟩ :=
    h (configured .brandClassnamesOnly [(.text "ignorePaths", .text "**/ui/**")]) _ _ _
      ["b/**"] false rfl List.mem_cons_self rfl
  cases hconfig
  cases hrules'
  rcases List.mem_pair.1 hr' with rfl | rfl
  · cases hread
  · cases hrule

end DesignTokens.Lint
