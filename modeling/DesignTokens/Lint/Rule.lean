import DesignTokens.ClassName.Extract
import DesignTokens.Jsx.Element
import DesignTokens.Lint.Diagnostic
import DesignTokens.Path.Glob
import DesignTokens.Policy.Margin
import DesignTokens.Policy.Utility

/-! # Rules

A rule applies a policy to the class attributes of elements. Its options are checked before it is
used on a file: unknown options and values of the wrong type are refused, and a file that the
options exempt is not checked at all. -/

namespace DesignTokens.Lint

open Script (Expr valueClassNames)

inductive Rule
  | brandClassnamesOnly
  | brandMarginPolicy
  deriving DecidableEq, Repr

namespace Rule

/-- The rules, in the order in which they run. -/
def all : List Rule := [brandClassnamesOnly, brandMarginPolicy]

def id : Rule → String
  | brandClassnamesOnly => "brand-classnames-only"
  | brandMarginPolicy => "brand-margin-policy"

def description : Rule → String
  | brandClassnamesOnly =>
    "Enforce brand-prefixed utilities for design-critical properties " ++
    "and allow layout utilities only"
  | brandMarginPolicy => "Enforce margin utilities only on semantic layout elements"

/-- The reason for which the rule reports. -/
def messageId : Rule → String
  | brandClassnamesOnly => Policy.Utility.forbiddenClass
  | brandMarginPolicy => Policy.Margin.marginOnNonSemanticElement

def messageTemplate : Rule → String
  | brandClassnamesOnly =>
    "Non-brand utility \"\x7bclassName\x7d\" is not allowed. Use brand-prefixed " ++
    "utilities (e.g., \x7bsuggestion\x7d) or layout utilities only."
  | brandMarginPolicy =>
    "BrandPlan margin utilities are only allowed on semantic layout elements " ++
    "(\x7ballowed\x7d). Consider using gap-brand-* or padding instead."

/-- The severity of a rule that is not configured. -/
def recommendedSeverity : Rule → Severity
  | brandClassnamesOnly | brandMarginPolicy => .error

end Rule

/-! ### Faults of a configuration -/

/-- What is wrong with one option. -/
inductive OptionProblem
  | listExpected
  | textExpected
  | truthExpected
  | unknownOption
  | keyNotText
  deriving DecidableEq, Repr

def OptionProblem.message : OptionProblem → String
  | listExpected => "Input should be a valid list"
  | textExpected => "Input should be a valid string"
  | truthExpected => "Input should be a valid boolean"
  | unknownOption => "Extra inputs are not permitted"
  | keyNotText => "Keys should be strings"

/-- A problem with the option under `key`, or with one item of its list. -/
structure OptionIssue where
  problem : OptionProblem
  key : Value
  item : Option Nat

inductive ConfigFault
  | unknownRule (id : String)
  | invalidSeverity (rule : String) (value : Value)
  | invalidOptions (rule : Rule) (issues : List OptionIssue)

namespace ConfigFault

def rule : ConfigFault → String
  | unknownRule id => id
  | invalidSeverity rule _ => rule
  | invalidOptions rule _ => rule.id

def message : ConfigFault → String
  | unknownRule id =>
    let known := ", ".intercalate ((Rule.all.map Rule.id).mergeSort (· ≤ ·))
    "Unknown rule '" ++ id ++ "' (known rules: " ++ known ++ ")"
  | invalidSeverity rule value =>
    let allowed := ", ".intercalate (Severity.all.map Severity.text)
    "Invalid severity '" ++ value.shown ++ "' for " ++ rule ++ " (expected one of: " ++ allowed ++
      ")"
  | invalidOptions rule _ => "Invalid options for " ++ rule.id

end ConfigFault

namespace Rule

def ofId? (id : String) : Except ConfigFault Rule :=
  match all.find? (·.id == id) with
  | some r => .ok r
  | none => .error (.unknownRule id)

end Rule

/-! ### Options -/

/-- The checked options of a rule. Only the margin rule has `allowSection`. -/
structure Options where
  ignorePaths : List String
  allowSection : Bool
  deriving DecidableEq, Repr

namespace Options

/-- The names under which an option may be given; the first one counts if both are. -/
def pathNames : List String := ["ignorePaths", "ignore_paths"]

def sectionNames : List String := ["allowSection", "allow_section"]

/-- The option under the first of its names that is given. -/
def given? (raw : Entries) (names : List String) : Option (String × Value) :=
  names.findSome? fun n => (raw.getText? n).map (n, ·)

/-- The texts of a list, and the issues with its other items. -/
def readPaths (key : String) : Value → List String × List OptionIssue
  | .list items =>
    let read (entry : Value × Nat) : Except OptionIssue String :=
      match entry.1 with
      | .text s => .ok s
      | _ => .error ⟨.textExpected, .text key, some entry.2⟩
    let results := items.zipIdx.map read
    (results.filterMap (·.toOption),
      results.filterMap fun r => match r with | .error e => some e | .ok _ => none)
  | _ => ([], [⟨.listExpected, .text key, none⟩])

def readTruth (key : String) : Value → Bool × List OptionIssue
  | .bool b => (b, [])
  | _ => (false, [⟨.truthExpected, .text key, none⟩])

/-- The issue with an option that none of the names of the rule's options counts for. -/
def unknownIssue? (counted : List String) (key : Value) : Option OptionIssue :=
  match key with
  | .text s => if counted.contains s then none else some ⟨.unknownOption, key, none⟩
  | _ => some ⟨.keyNotText, key, none⟩

/-- Checks the options of a rule: first the known ones, then the unknown ones as they come. -/
def read (rule : Rule) (raw : Entries) : Except ConfigFault Options :=
  let paths := given? raw pathNames
  let section? := if rule = .brandMarginPolicy then given? raw sectionNames else none
  let (ignorePaths, pathIssues) := (paths.map fun p => readPaths p.1 p.2).getD ([], [])
  let (allowSection, sectionIssues) := (section?.map fun p => readTruth p.1 p.2).getD (false, [])
  let counted := paths.toList.map (·.1) ++ section?.toList.map (·.1)
  let issues := pathIssues ++ sectionIssues ++ raw.filterMap fun e => unknownIssue? counted e.1
  if issues.isEmpty then .ok ⟨ignorePaths, allowSection⟩ else .error (.invalidOptions rule issues)

end Options

/-! ### Checking -/

/-- A rule that is used on a file. -/
structure ActiveRule where
  rule : Rule
  severity : Severity
  options : Options
  deriving DecidableEq, Repr

/-- The rule as it is used on a file; none if the file is exempt. -/
def Rule.activate (rule : Rule) (file : Option String) (raw : Entries) (severity : Severity) :
    Except ConfigFault (Option ActiveRule) := do
  let options ← Options.read rule raw
  if Path.isExempt file options.ignorePaths then return none
  else return some ⟨rule, severity, options⟩

/-- The diagnostic of a message about an attribute. -/
def report (file rule messageId template : String) (severity : Severity) (location : Location)
    (data : List (String × Value)) : Diagnostic :=
  ⟨rule, messageId, renderMessage template data, data, file, location, severity⟩

namespace ActiveRule

def report (r : ActiveRule) (file : String) (location : Location)
    (data : List (String × Value)) : Diagnostic :=
  Lint.report file r.rule.id r.rule.messageId r.rule.messageTemplate r.severity location data

/-- The reports on one class name. -/
def checkClass (r : ActiveRule) (file : String) (location : Location) (c : String) :
    Option Diagnostic :=
  match Policy.Utility.classify c with
  | .violation _ suggestion =>
    some (r.report file location
      [("className", .text c), ("suggestion", (suggestion.map Value.text).getD .null)])
  | _ => none

/-- The reports on an element, given its class attributes. The margin rule considers the first
attribute only. -/
def check (r : ActiveRule) (file tag : String) (contexts : List Jsx.Context) : List Diagnostic :=
  match r.rule with
  | .brandClassnamesOnly =>
    contexts.flatMap fun c => (valueClassNames c.value).filterMap (r.checkClass file c.location)
  | .brandMarginPolicy =>
    match contexts with
    | [] => []
    | c :: _ =>
      let allowSection := r.options.allowSection
      if (Policy.Margin.classify (valueClassNames c.value) tag allowSection).isViolation then
        let allowed := ", ".intercalate (Policy.Margin.allowedTags allowSection)
        [r.report file c.location [("allowed", .text allowed)]]
      else []

end ActiveRule

end DesignTokens.Lint
