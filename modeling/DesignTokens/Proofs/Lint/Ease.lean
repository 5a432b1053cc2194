import DesignTokens.Proofs.Lint.Compose
import DesignTokens.Proofs.Lint.Source

/-!
# Eased rules

A rule is eased by being set from `error` to `warn`, or to `off`. A configuration that eases a rule
still does so with overrides laid over it (`Config.Eases.override`), and resolves to rules that ask
for less (`Config.Eases.resolve`). Such rules lint what was linted before, and what they report as
errors was reported before (`lintSource_eased`).
-/

namespace DesignTokens.Lint

variable {file : String} {source : List Char} {es : List Jsx.Element} {rule : Rule}
  {r r' : ResolvedRule} {rules rules' : List ResolvedRule} {active : List ActiveRule}
  {d : Diagnostic} {ds : List Diagnostic}

/-! ### Rules that are used on a file -/

theorem ResolvedRule.accepted_or_refused (r : ResolvedRule) :
    r.Accepted ∨ ∃ f, Options.read r.rule r.options = .error f := by
  cases h : Options.read r.rule r.options with
  | ok o => exact .inl ⟨o, h⟩
  | error f => exact .inr ⟨f, rfl⟩

theorem accepted_of_activateAll (h : activateAll (some file) rules = .ok active) (hr : r ∈ rules) :
    r.Accepted := by
  obtain ⟨used, hused, -⟩ := ok_of_bind h
  obtain ⟨o, -, ho⟩ := exists_of_forall₂ (mapM_eq_ok_iff.1 hused) r hr
  exact accepted_of_activate ho

/-- Linting is refused exactly if the options of a rule are. -/
theorem lintSource_config_iff : (∃ f, lintSource source file rules = .error (.config f)) ↔
    ∃ r ∈ rules, ∃ f, Options.read r.rule r.options = .error f := by
  constructor
  · rintro ⟨f, hf⟩
    by_contra hnone
    have haccepted : ∀ r ∈ rules, r.Accepted := fun r hr =>
      r.accepted_or_refused.resolve_right fun hrefused => hnone ⟨r, hr, hrefused⟩
    rcases lintSource_ok_or_symbolicDigit haccepted with ⟨ds, h⟩ | ⟨d, h, -⟩
    · exact nomatch h.symm.trans hf
    · exact nomatch h.symm.trans hf
  · rintro ⟨r, hr, f, hf⟩
    cases hactive : activateAll (some file) rules with
    | ok active =>
      obtain ⟨o, ho⟩ := accepted_of_activateAll hactive hr
      exact nomatch ho.symm.trans hf
    | error f' =>
      refine ⟨f', ?_⟩
      rw [lintSource, hactive]
      rfl

inductive Severity.Eases : Severity → Severity → Prop
  | toWarn : Eases .error .warn
  | toOff {s : Severity} : s ≠ .off → Eases s .off

theorem Severity.Eases.ne_error {s s' : Severity} (h : s.Eases s') : s' ≠ .error := by
  cases h <;> decide

theorem Severity.Eases.ne_off {s s' : Severity} (h : s.Eases s') : s ≠ .off := by
  cases h with
  | toWarn => decide
  | toOff hs => exact hs

/-- The two are one rule, or the second one is the first one eased. -/
def ResolvedRule.MayEase (r r' : ResolvedRule) : Prop :=
  r' = r ∨ r'.rule = r.rule ∧ r'.options = r.options ∧ r.severity.Eases r'.severity

/-- Each rule was there before, with its severity or a stronger one. -/
def Eased (rules rules' : List ResolvedRule) : Prop := ∀ r' ∈ rules', ∃ r ∈ rules, r.MayEase r'

theorem ResolvedRule.MayEase.read (h : r.MayEase r') :
    Options.read r'.rule r'.options = Options.read r.rule r.options := by
  rcases h with rfl | ⟨hrule, hoptions, -⟩
  · rfl
  · rw [hrule, hoptions]

/-- A rule that reports errors is as it was. -/
theorem Eased.mem (h : Eased rules rules') (hr : r ∈ rules') (herror : r.severity = .error) :
    r ∈ rules := by
  obtain ⟨r₁, hr₁, rfl | ⟨-, -, hease⟩⟩ := h r hr
  · exact hr₁
  · exact absurd herror hease.ne_error

section

variable {paths : List String} {allowSection : Bool} {s s' : Severity}
  {config config' merged merged' : Config}

/-- One rule is eased from `s` to `s'`, in its own entry or in a new one, and nothing else is
changed. -/
structure Config.Eases (rule : Rule) (s s' : Severity) (config config' : Config) : Prop where
  eases : s.Eases s'
  included : config'.included = config.included
  excluded : config'.excluded = config.excluded
  /-- Nothing else is named. -/
  names : ∀ n ∈ config'.rules.map (·.1), n = rule.id ∨ n ∈ config.rules.map (·.1)
  before : (config.rules.setting rule).severity = .text s.text
  after : (config'.rules.setting rule).severity = .text s'.text
  options : (config'.rules.setting rule).options = (config.rules.setting rule).options
  others : ∀ other ≠ rule, config'.rules.setting other = config.rules.setting other

theorem RuleTable.mem_names_setAll {f : Rule → RuleConfig} {rs : List Rule} {t : RuleTable}
    {n : String} : n ∈ (setAll f rs t).map (·.1) ↔
      (∃ rule ∈ rs, n = rule.id) ∨ n ∈ t.map (·.1) := by
  induction rs generalizing t with
  | nil => simp [setAll]
  | cons rule rs ih =>
    show n ∈ (setAll f rs (Table.insert rule.id (f rule) t)).map (·.1) ↔ _
    rw [ih, Table.mem_names_insert]
    simp only [List.mem_cons, exists_eq_or_imp]
    rw [or_left_comm, or_assoc]

/-- Overrides name every rule, unless they change nothing. -/
theorem Config.mem_names_override (h : config.override paths allowSection = .ok merged)
    (n : String) : n ∈ merged.rules.map (·.1) ↔
      (¬(paths = [] ∧ allowSection = false) ∧ ∃ rule ∈ Rule.all, n = rule.id) ∨
        n ∈ config.rules.map (·.1) := by
  by_cases hnone : paths = [] ∧ allowSection = false
  · obtain ⟨rfl, rfl⟩ := hnone
    cases h
    simp
  · rw [rules_override hnone h, RuleTable.mem_names_setAll, and_iff_right hnone]

theorem readSeverity_text (rule : Rule) (s : Severity) :
    readSeverity rule (.text s.text) = .ok s := by
  cases s <;> rfl

namespace Config.Eases

theorem same_options (h : config.Eases rule s s' config') (other : Rule) :
    (config'.rules.setting other).options = (config.rules.setting other).options := by
  by_cases hother : other = rule
  · rw [hother, h.options]
  · rw [h.others other hother]

/-- With overrides laid over both configurations the rule is still eased. -/
theorem override (h : config.Eases rule s s' config')
    (hmerged : config.override paths allowSection = .ok merged) :
    ∃ merged', config'.override paths allowSection = .ok merged' ∧
      merged.Eases rule s s' merged' := by
  obtain ⟨merged', hmerged'⟩ : ∃ merged', config'.override paths allowSection = .ok merged' := by
    rw [override_ok_iff_options]
    intro other
    rw [h.same_options]
    exact override_ok_iff_options.1 ⟨merged, hmerged⟩ other
  obtain ⟨⟨hincluded, hexcluded⟩, hrules, -⟩ := override_cases hmerged
  obtain ⟨⟨hincluded', hexcluded'⟩, hrules', -⟩ := override_cases hmerged'
  have hoptions (other : Rule) :
      (merged'.rules.setting other).options = (merged.rules.setting other).options := by
    have hsame := (hrules' other).options
    rw [h.same_options, (hrules other).options] at hsame
    exact (Except.ok.inj hsame).symm
  refine ⟨merged', hmerged', h.eases, ?_, ?_, fun n hn => ?_, ?_, ?_, hoptions rule,
    fun other hother => ?_⟩
  · rw [hincluded', h.included, hincluded]
  · rw [hexcluded', h.excluded, hexcluded]
  · rw [mem_names_override hmerged'] at hn
    rw [mem_names_override hmerged, or_left_comm]
    exact hn.imp_right (h.names n)
  · rw [(hrules rule).severity, h.before]
  · rw [(hrules' rule).severity, h.after]
  · have hseverity : (merged'.rules.setting other).severity =
        (merged.rules.setting other).severity := by
      rw [(hrules' other).severity, (hrules other).severity, h.others other hother]
    exact RuleConfig.mk.injEq .. ▸ ⟨hseverity, hoptions other⟩

/-- The rules that a configuration resolves to are eased with it. -/
theorem resolve (h : config.Eases rule s s' config') (hrules : config.resolve = .ok rules) :
    ∃ rules', config'.resolve = .ok rules' ∧ Eased rules rules' := by
  obtain ⟨hknown, resolved, hresolved, rfl⟩ := resolve_eq_ok_iff.1 hrules
  have hknown' : config'.rules.Known := by
    intro e he
    rcases h.names e.1 (List.mem_map_of_mem he) with hid | hmem
    · exact ⟨rule, hid ▸ rule.ofId?_id⟩
    · obtain ⟨e', he', hid⟩ := List.mem_map.1 hmem
      exact hid ▸ hknown e' he'
  have htransfer (other : Rule) (r : ResolvedRule) (hr : config.rules.resolve other = .ok r) :
      ∃ r', config'.rules.resolve other = .ok r' ∧ r.MayEase r' := by
    obtain ⟨rfl, hseverity, hoptions⟩ := RuleTable.resolve_eq_ok_iff.1 hr
    by_cases hother : r.rule = rule
    · obtain rfl := hother
      have hs : r.severity = s := by
        rw [h.before, readSeverity_text] at hseverity
        exact (Except.ok.inj hseverity).symm
      refine ⟨⟨r.rule, s', r.options⟩, RuleTable.resolve_eq_ok_iff.2 ⟨rfl, ?_, ?_⟩,
        .inr ⟨rfl, rfl, hs ▸ h.eases⟩⟩
      · rw [h.after, readSeverity_text]
      · rw [h.options, hoptions]
    · refine ⟨r, RuleTable.resolve_eq_ok_iff.2 ⟨rfl, ?_, ?_⟩, .inl rfl⟩
      · rw [h.others _ hother, hseverity]
      · rw [h.others _ hother, hoptions]
  obtain ⟨resolved', hresolved', hmay⟩ := forall₂_transfer hresolved htransfer
  refine ⟨_, resolve_eq_ok_iff.2 ⟨hknown', resolved', hresolved', rfl⟩, fun r' hr' => ?_⟩
  obtain ⟨hr', hon⟩ := List.mem_filter.1 hr'
  obtain ⟨r, hr, hease⟩ := exists_of_forall₂ hmay.flip r' hr'
  refine ⟨r, List.mem_filter.2 ⟨hr, ?_⟩, hease⟩
  rcases hease with rfl | ⟨-, -, hease⟩
  · exact hon
  · exact decide_eq_true hease.ne_off

end Config.Eases

end

end DesignTokens.Lint
