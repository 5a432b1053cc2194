import DesignTokens.Proofs.Lint.Override

/-!
# Overrides laid over each other

Two overrides, one laid over the other, come to a single one that adds the paths of both and allows
sections if one of them does (`override_override`). The law holds at three levels. The options of a
rule get the same values, but the two keys that an override sets may come in either order
(`overrideOptions_append`). The settings of the first run have their places before the second, which
replaces each where it is (`setAll_setAll`). And a configuration can be overridden twice if it can
be overridden once, as the second run finds a list of paths wherever the first put one.
-/

namespace DesignTokens.Lint

variable {rule : Rule} {rules : List Rule} {a b : List String} {s t : Bool} {raw : Entries}
  {table table' : RuleTable} {f g : Rule → RuleConfig} {config config' : Config}

/-- Both ways fail, or they come to what is the same. -/
inductive Agree {α : Type} (Same : α → α → Prop) :
    Except NotIterable α → Except NotIterable α → Prop
  | ok {x y : α} (h : Same x y) : Agree Same (.ok x) (.ok y)
  | error (e e' : NotIterable) : Agree Same (.error e) (.error e')

theorem Agree.ok_iff {α : Type} {Same : α → α → Prop} {x y : Except NotIterable α}
    (h : Agree Same x y) : (∃ z, x = .ok z) ↔ ∃ z, y = .ok z := by
  cases h with
  | ok h => exact ⟨fun _ => ⟨_, rfl⟩, fun _ => ⟨_, rfl⟩⟩
  | error e e' => exact ⟨nofun, nofun⟩

theorem Agree.of_eq {α : Type} {Same : α → α → Prop} {x y : Except NotIterable α}
    (hrefl : ∀ x, Same x x) (h : x = y) : Agree Same x y := by
  subst h
  cases x with
  | error e => exact .error e e
  | ok x => exact .ok (hrefl x)

/-! ### Options -/

theorem addPaths_append (a b : List String) (raw : Entries) :
    addPaths a raw >>= addPaths b = addPaths (a ++ b) raw := by
  by_cases ha : a = []
  · rw [ha]
    rfl
  · by_cases hb : b = []
    · rw [hb, List.append_nil]
      cases addPaths a raw <;> rfl
    · rw [addPaths, addPaths, if_neg ha, if_neg fun h => ha (List.append_eq_nil_iff.1 h).1]
      cases items (givenPaths raw) with
      | error e => rfl
      | ok old =>
        have hgiven : givenPaths (raw.insert (.text "ignorePaths")
            (.list (old ++ a.map .text))) = .list (old ++ a.map .text) := by
          rw [givenPaths, Entries.getText?_insert_self]
          rfl
        show addPaths b (raw.insert _ _) = .ok _
        rw [addPaths, if_neg hb, hgiven]
        show Except.ok (Entries.insert _ _ (raw.insert _ _)) = _
        rw [Entries.insert_insert_self, List.append_assoc, List.map_append]

/-- Paths are added and sections are allowed in either order. -/
theorem addPaths_insert_section (b : List String) (raw : Entries) :
    Agree List.Perm (addPaths b (raw.insert (.text "allowSection") (.bool true)))
      ((addPaths b raw).map (·.insert (.text "allowSection") (.bool true))) := by
  have hgiven : givenPaths (raw.insert (.text "allowSection") (.bool true)) = givenPaths raw := by
    rw [givenPaths, Entries.getText?_insert_of_ne (by decide)]
    rfl
  rw [addPaths, addPaths, hgiven]
  split
  · exact .ok (.refl _)
  · cases items (givenPaths raw) with
    | error e => exact .error e e
    | ok old => exact .ok (Entries.insert_insert_perm (by decide) ..)

theorem permitSections_of_allowed (rule : Rule) (t : Bool)
    (h : raw.getText? "allowSection" = some (.bool true)) : permitSections rule t raw = raw := by
  rcases permitSections_cases rule t raw with ⟨-, heq⟩ | ⟨-, -, heq⟩
  · exact heq
  · rw [heq, Entries.insert_of_getText? h]

/-- The overridden options of a rule are overridden again as if they were overridden once. -/
theorem overrideOptions_append (rule : Rule) (a b : List String) (s t : Bool) (raw : Entries) :
    Agree List.Perm (overrideOptions rule a s raw >>= overrideOptions rule b t)
      (overrideOptions rule (a ++ b) (s || t) raw) := by
  rw [overrideOptions_eq, overrideOptions_eq, ← addPaths_append]
  cases addPaths a raw with
  | error e => exact .error e e
  | ok mid =>
    show Agree _ (overrideOptions rule b t (permitSections rule s mid))
      ((addPaths b mid).map (permitSections rule (s || t)))
    rw [overrideOptions_eq]
    by_cases hs : s ∧ rule = .brandMarginPolicy
    · -- sections are allowed by the first override, and the second has nothing to add to that
      obtain ⟨rfl, rfl⟩ := hs
      show Agree _ ((addPaths b (mid.insert (.text "allowSection") (.bool true))).map _)
        ((addPaths b mid).map (·.insert (.text "allowSection") (.bool true)))
      have hallowed : (addPaths b (mid.insert (.text "allowSection") (.bool true))).map
          (permitSections .brandMarginPolicy t) =
          addPaths b (mid.insert (.text "allowSection") (.bool true)) := by
        cases hb : addPaths b (mid.insert (.text "allowSection") (.bool true)) with
        | error e => rfl
        | ok last =>
          refine congrArg Except.ok (permitSections_of_allowed _ t ?_)
          obtain ⟨-, rfl⟩ | ⟨-, old, -, rfl⟩ := addPaths_cases hb
          · exact Entries.getText?_insert_self ..
          · rw [Entries.getText?_insert_of_ne (by decide), Entries.getText?_insert_self]
      rw [hallowed]
      exact addPaths_insert_section b mid
    · have hmid : permitSections rule s mid = mid := if_neg hs
      have ht : permitSections rule (s || t) = permitSections rule t := by
        funext raw
        unfold permitSections
        refine if_congr ?_ rfl rfl
        rw [Bool.or_eq_true, or_and_right]
        exact or_iff_right hs
      rw [hmid, ht]
      exact .of_eq .refl rfl

theorem overrideOptions_append_ok_iff :
    (∃ raw', overrideOptions rule (a ++ b) (s || t) raw = .ok raw') ↔
      ∃ mid, overrideOptions rule a s raw = .ok mid ∧
        ∃ raw', overrideOptions rule b t mid = .ok raw' := by
  rw [← (overrideOptions_append rule a b s t raw).ok_iff]
  constructor
  · rintro ⟨raw', h⟩
    obtain ⟨mid, hmid, h⟩ := ok_of_bind h
    exact ⟨mid, hmid, raw', h⟩
  · rintro ⟨mid, hmid, h⟩
    rw [bind_of_ok hmid]
    exact h

/-! ### Settings of all rules -/

namespace RuleTable

/-- The rules are given the settings of `f`. -/
def setAll (f : Rule → RuleConfig) (rules : List Rule) (table : RuleTable) : RuleTable :=
  rules.foldl (fun u rule => Table.insert rule.id (f rule) u) table

theorem insert_setAll {c : RuleConfig} (hrule : rule ∉ rules)
    (hmem : rule.id ∈ table.map (·.1)) : Table.insert rule.id c (setAll f rules table) =
      setAll f rules (Table.insert rule.id c table) := by
  induction rules generalizing table with
  | nil => rfl
  | cons rule' rules ih =>
    obtain ⟨hne, hrules⟩ := not_or.1 fun h => hrule (List.mem_cons.2 h)
    show Table.insert _ _ (setAll f rules (Table.insert rule'.id _ table)) =
      setAll f rules (Table.insert rule'.id _ (Table.insert rule.id _ table))
    rw [ih hrules (Table.mem_names_insert.2 (.inr hmem)),
      Table.insert_insert_of_mem (fun hid => hne (Rule.id_inj hid)) hmem]

/-- Only the settings that are given last count, also for the places of the rules. -/
theorem setAll_setAll (hrules : rules.Nodup) (f g : Rule → RuleConfig) (table : RuleTable) :
    setAll f rules (setAll g rules table) = setAll f rules table := by
  induction rules generalizing table with
  | nil => rfl
  | cons rule rules ih =>
    obtain ⟨hrule, hrules⟩ := List.nodup_cons.1 hrules
    show setAll f rules (Table.insert rule.id _ (setAll g rules (Table.insert rule.id _ table))) =
      setAll f rules (Table.insert rule.id _ table)
    rw [insert_setAll hrule (Table.mem_names_insert.2 (.inl rfl)), ih hrules,
      Table.insert_insert_self]

theorem overrideAll_eq (hrules : rules.Nodup)
    (h : rules.foldlM (override a s) table = .ok table') :
    table' = setAll table'.setting rules table := by
  induction rules generalizing table with
  | nil =>
    cases h
    rfl
  | cons rule rules ih =>
    rw [List.foldlM_cons] at h
    obtain ⟨mid, hstep, h⟩ := ok_of_bind h
    obtain ⟨hrule, hrules⟩ := List.nodup_cons.1 hrules
    obtain ⟨options, -, hmid⟩ := ok_of_bind hstep
    cases hmid
    have hsetting : table'.setting rule = ⟨(table.setting rule).severity, options⟩ := by
      rw [(overrideAll_cases hrules h).2.1 rule hrule, setting_insert_self]
    show table' = setAll _ rules (Table.insert rule.id (table'.setting rule) table)
    rw [hsetting]
    exact ih hrules h

end RuleTable

/-! ### Configurations -/

/-- The severity is one, and the options have the same values, in any order. -/
structure RuleConfig.Same (c c' : RuleConfig) : Prop where
  severity : c.severity = c'.severity
  options : c.options.Perm c'.options

/-- The same rules are set, in the same order and the same way. -/
def RuleTable.Same (table table' : RuleTable) : Prop :=
  List.Forall₂ (fun e e' => e.1 = e'.1 ∧ e.2.Same e'.2) table table'

/-- The same files are linted with the same rules. -/
structure Config.Same (config config' : Config) : Prop where
  included : config.included = config'.included
  excluded : config.excluded = config'.excluded
  rules : config.rules.Same config'.rules

theorem RuleTable.Same.refl (table : RuleTable) : table.Same table :=
  List.forall₂_same.2 fun _ _ => ⟨rfl, rfl, .refl _⟩

theorem Config.Same.refl (config : Config) : config.Same config := ⟨rfl, rfl, .refl _⟩

theorem RuleTable.Same.setAll (hsame : table.Same table')
    (h : ∀ rule ∈ rules, (f rule).Same (g rule)) :
    RuleTable.Same (setAll f rules table) (setAll g rules table') := by
  induction rules generalizing table table' with
  | nil => exact hsame
  | cons rule rules ih =>
    obtain ⟨hfirst, hrest⟩ := List.forall_mem_cons.1 h
    exact ih (Table.forall₂_insert hfirst hsame) hrest

/-- A configuration can be overridden if the options of every rule can. -/
theorem Config.override_ok_iff_options : (∃ config', config.override a s = .ok config') ↔
    ∀ rule, ∃ raw, overrideOptions rule a s (config.rules.setting rule).options = .ok raw := by
  rw [override_ok_iff, Extendable, ← forall_or_left]
  exact forall_congr' fun rule => overrideOptions_ok_iff.symm

/-- An override that does something sets every rule. -/
theorem Config.rules_override (hsome : ¬(a = [] ∧ s = false))
    (h : config.override a s = .ok config') :
    config'.rules = RuleTable.setAll config'.rules.setting Rule.all config.rules := by
  rw [override_eq, if_neg (by simpa using hsome)] at h
  obtain ⟨table', htable, h⟩ := ok_of_bind h
  cases h
  exact RuleTable.overrideAll_eq (by decide) htable

/-- A configuration can be overridden twice if it can be overridden once. -/
theorem Config.exists_override_iff : (∃ once, config.override (a ++ b) (s || t) = .ok once) ↔
    ∃ mid, config.override a s = .ok mid ∧ ∃ last, mid.override b t = .ok last := by
  rw [override_ok_iff_options]
  constructor
  · intro h
    obtain ⟨mid, hmid⟩ := override_ok_iff_options.2 fun rule =>
      (overrideOptions_append_ok_iff.1 (h rule)).imp fun _ => And.left
    refine ⟨mid, hmid, override_ok_iff_options.2 fun rule => ?_⟩
    obtain ⟨raw, hraw, hlast⟩ := overrideOptions_append_ok_iff.1 (h rule)
    rw [((override_cases hmid).2.1 rule).options] at hraw
    cases hraw
    exact hlast
  · rintro ⟨mid, hmid, hlast⟩ rule
    exact overrideOptions_append_ok_iff.2
      ⟨_, ((override_cases hmid).2.1 rule).options, override_ok_iff_options.1 hlast rule⟩

/-- A rule is set the same way by two overrides and by the one that does what they do. -/
theorem Config.same_setting {mid last once : Config} (hmid : config.override a s = .ok mid)
    (hlast : mid.override b t = .ok last) (honce : config.override (a ++ b) (s || t) = .ok once)
    (rule : Rule) : (last.rules.setting rule).Same (once.rules.setting rule) := by
  have h₁ := (override_cases hmid).2.1 rule
  have h₂ := (override_cases hlast).2.1 rule
  have h := (override_cases honce).2.1 rule
  have hagree := overrideOptions_append rule a b s t (config.rules.setting rule).options
  rw [bind_of_ok h₁.options, h₂.options, h.options] at hagree
  refine ⟨?_, ?_⟩
  · rw [h₂.severity, h₁.severity, h.severity]
  · cases hagree with
    | ok hperm => exact hperm

/-- Overrides that are laid over each other are one override, with the paths of both and with
sections allowed if either allows them: both ways fail, or they come to the same configuration, up
to the order of the options of a rule. -/
theorem override_override (config : Config) (a b : List String) (s t : Bool) :
    Agree Config.Same (config.override a s >>= fun mid => mid.override b t)
      (config.override (a ++ b) (s || t)) := by
  by_cases hfirst : a = [] ∧ s = false
  · obtain ⟨rfl, rfl⟩ := hfirst
    exact .of_eq .refl rfl
  by_cases hsecond : b = [] ∧ t = false
  · obtain ⟨rfl, rfl⟩ := hsecond
    rw [List.append_nil, Bool.or_false]
    refine .of_eq .refl ?_
    cases config.override a s <;> rfl
  cases honce : config.override (a ++ b) (s || t) with
  | error e =>
    cases htwice : config.override a s >>= fun mid => mid.override b t with
    | error e' => exact .error e' e
    | ok last =>
      obtain ⟨mid, hmid, hlast⟩ := ok_of_bind htwice
      obtain ⟨once, h⟩ := Config.exists_override_iff.2 ⟨mid, hmid, last, hlast⟩
      rw [honce] at h
      cases h
  | ok once =>
    obtain ⟨mid, hmid, last, hlast⟩ := Config.exists_override_iff.1 ⟨once, honce⟩
    obtain ⟨⟨hincluded₁, hexcluded₁⟩, -⟩ := Config.override_cases hmid
    obtain ⟨⟨hincluded₂, hexcluded₂⟩, -⟩ := Config.override_cases hlast
    obtain ⟨⟨hincluded, hexcluded⟩, -⟩ := Config.override_cases honce
    rw [bind_of_ok hmid, hlast]
    refine .ok ⟨?_, ?_, ?_⟩
    · rw [hincluded₂, hincluded₁, hincluded]
    · rw [hexcluded₂, hexcluded₁, hexcluded]
    · have hboth : ¬(a ++ b = [] ∧ (s || t) = false) := fun h =>
        hfirst ⟨(List.append_eq_nil_iff.1 h.1).1, (Bool.or_eq_false_iff.1 h.2).1⟩
      rw [Config.rules_override hsecond hlast, Config.rules_override hfirst hmid,
        RuleTable.setAll_setAll (by decide), Config.rules_override hboth honce]
      exact .setAll (.refl _) fun rule _ => Config.same_setting hmid hlast honce rule

end DesignTokens.Lint
