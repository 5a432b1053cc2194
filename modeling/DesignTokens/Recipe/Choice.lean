import DesignTokens.Value.Basic

/-! # Properties of components

Components take their properties by name. A property is one of a few choices, a truth value, or
extra class names. -/

namespace DesignTokens.Recipe

/-- What is wrong with a property. -/
inductive PropFault
  | unknownProp (key : Value)
  | notAChoice (choice : String) (value : Value)
  | notClassNames (value : Value)

namespace PropFault

def message : PropFault → String
  | unknownProp k => "Unknown property " ++ k.quoted
  | notAChoice choice v => v.quoted ++ " is not a valid " ++ choice
  | notClassNames v => "Class names must be a text, not " ++ v.typeName

end PropFault

/-- A named set of choices. -/
structure Choice (α : Type) where
  name : String
  options : List (String × α)

def Choice.read {α : Type} (c : Choice α) (v : Value) : Except PropFault α :=
  match v with
  | .text s => (c.options.find? (·.1 == s)).elim (.error (.notAChoice c.name v)) (.ok ·.2)
  | _ => .error (.notAChoice c.name v)

/-- The value of a property, if it is given. -/
def readOr {α : Type} (c : Choice α) (props : Entries) (key : String) (absent : α) :
    Except PropFault α :=
  (props.getText? key).elim (.ok absent) c.read

/-- Extra class names; a value that counts as false gives none. -/
def readClassNames (props : Entries) : Except PropFault (Option String) :=
  match props.getText? "class_name" with
  | none => .ok none
  | some (.text s) => .ok (some s)
  | some v => if v.isTruthy then .error (.notClassNames v) else .ok none

/-- Refuses properties that are not among the known ones. -/
def checkNames (known : List String) (props : Entries) : Except PropFault Unit :=
  match props.find? fun e => !known.any fun k => e.1.same (.text k) with
  | some e => .error (.unknownProp e.1)
  | none => .ok ()

/-- The class names with spaces between them, without empty ones. -/
def joined (classes : List String) : String := " ".intercalate (classes.filter (!·.isEmpty))

/-! ### Choices of more than one component -/

inductive Size
  | sm
  | md
  | lg
  deriving DecidableEq, Repr

def Size.choice : Choice Size := ⟨"Size", [("sm", sm), ("md", md), ("lg", lg)]⟩

/-- The class for rounded corners. -/
def Size.radiusClass : Size → String
  | sm => "rounded-brand-sm"
  | md => "rounded-brand-md"
  | lg => "rounded-brand-lg"

end DesignTokens.Recipe
