import DesignTokens.Lint.Rule
import DesignTokens.Value.Table

/-! # Lint configurations

Which files to lint and how each rule is set. A rule that is not configured has its recommended
severity. Options given on the command line are laid over a configuration. -/

namespace DesignTokens.Lint

/-- The setting of a rule, as it was given. -/
structure RuleConfig where
  severity : Value
  options : Entries
  deriving Inhabited

def RuleConfig.default : RuleConfig := ⟨.text Severity.error.text, []⟩

/-- The settings of rules by their ids. -/
abbrev RuleTable := Table RuleConfig

structure Config where
  /-- Patterns of the files that are linted, unless a pattern of `excluded` matches them too. -/
  included : List String
  excluded : List String
  rules : RuleTable

def defaultIncluded : List String := ["**/*.tsx", "**/*.jsx"]

def defaultExcluded : List String := ["node_modules/**", ".next/**", "dist/**", "build/**"]

def Config.default : Config := ⟨defaultIncluded, defaultExcluded, []⟩

/-- A rule with its severity and its options as they were given. -/
structure ResolvedRule where
  rule : Rule
  severity : Severity
  options : Entries

def readSeverity (rule : Rule) (v : Value) : Except ConfigFault Severity :=
  match v with
  | .text s => (Severity.ofText? s).elim (.error (.invalidSeverity rule.id v)) .ok
  | _ => .error (.invalidSeverity rule.id v)

/-- The setting of a rule in a table. -/
def RuleTable.resolve (t : RuleTable) (rule : Rule) : Except ConfigFault ResolvedRule :=
  match t.get? rule.id with
  | none => .ok ⟨rule, rule.recommendedSeverity, []⟩
  | some c => do return ⟨rule, ← readSeverity rule c.severity, c.options⟩

/-- The rules that are not switched off. -/
def Config.resolve (config : Config) : Except ConfigFault (List ResolvedRule) := do
  let _ ← config.rules.mapM fun e => Rule.ofId? e.1
  let resolved ← Rule.all.mapM config.rules.resolve
  return resolved.filter (·.severity ≠ .off)

/-! ### Overrides -/

/-- The configured value is nothing that items could be taken from. -/
structure NotIterable where
  value : Value

/-- The items of a value: of a text its characters, of a map its keys. -/
def items : Value → Except NotIterable (List Value)
  | .text s => .ok (s.toList.map fun c => .text (String.singleton c))
  | .bytes bs => .ok (bs.map fun b => .int b.toNat)
  | .list xs | .set xs => .ok xs
  | .map es => .ok (es.map (·.1))
  | v => .error ⟨v⟩

/-- The options with `paths` added to those that are ignored, and with sections allowed. -/
def overrideOptions (rule : Rule) (paths : List String) (allowSection : Bool) (options : Entries) :
    Except NotIterable Entries := do
  let options ← if paths.isEmpty then pure options else do
    let old ← items ((options.getText? "ignorePaths").getD (.list []))
    pure (options.insert (.text "ignorePaths") (.list (old ++ paths.map .text)))
  if allowSection && rule == .brandMarginPolicy then
    return options.insert (.text "allowSection") (.bool true)
  else return options

/-- Adds ignored paths to every rule, and allows brand margins on sections. -/
def Config.override (config : Config) (paths : List String) (allowSection : Bool) :
    Except NotIterable Config := do
  if paths.isEmpty && !allowSection then return config
  let set (t : RuleTable) (rule : Rule) : Except NotIterable RuleTable := do
    let old := (t.get? rule.id).getD ⟨.text rule.recommendedSeverity.text, []⟩
    return Table.insert rule.id ⟨old.severity, ← overrideOptions rule paths allowSection old.options⟩ t
  return { config with rules := ← Rule.all.foldlM set config.rules }

end DesignTokens.Lint
