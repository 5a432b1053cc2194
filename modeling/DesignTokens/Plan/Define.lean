import DesignTokens.Decimal.Numeral
import DesignTokens.Plan.Basic
import DesignTokens.Text.Blank
import DesignTokens.Text.Search

/-! # Defining plans

Data of any shape is checked field by field, and the first problem found is reported under the
path of the field. Keys become texts, so a number may name a token, unless it is an integer with
more digits than are written. -/

namespace DesignTokens

inductive PlanProblem
  | notAPlan
  | unknownGroup (key : String)
  | missingGroup (group : String)
  | notATokenTable
  | notAColorTable
  | notAColorPair
  | missingSide (side : String)
  | notAText (typeName : String)
  | blankInLength (value : String)
  | notALength (value : String)
  | notAHexColor (value : String)
  deriving DecidableEq, Repr

def PlanProblem.message : PlanProblem → String
  | notAPlan => "Expected an object with space, radius, and color properties"
  | unknownGroup k =>
    "Unknown top-level key \"" ++ k ++ "\". Only space, radius, and color are allowed."
  | missingGroup g => "Missing required property: " ++ g
  | notATokenTable => "expected an object with token names as keys"
  | notAColorTable => "expected an object with color groups as keys"
  | notAColorPair => "expected an object with 'dark' and 'light' properties"
  | missingSide s => "missing '" ++ s ++ "' property"
  | notAText t => "expected a non-empty string, got " ++ t
  | blankInLength v =>
    "\"" ++ v ++ "\" contains whitespace (must be a valid CSS length like 0.5rem, not \"0.5 rem\")"
  | notALength v =>
    "\"" ++ v ++ "\" is not a valid CSS length (expected 0 or a value like 1rem, 8px, 50%, etc.)"
  | notAHexColor v => "\"" ++ v ++ "\" is not a valid hex color (expected #RGB or #RRGGBB)"

/-- A problem of a whole plan, of its groups, or of the field with a path. A key without a text is
none of these: it stops the check instead of being reported. -/
inductive PlanError
  | plan (problem : PlanProblem)
  | group (name : String) (problem : PlanProblem)
  | field (path : String) (problem : PlanProblem)
  | key (fault : Decimal.NumberFault)
  deriving DecidableEq, Repr

namespace PlanError

/-- The path of the field that is wrong. -/
def path? : PlanError → Option String
  | plan _ => none
  | group name _ => some name
  | field path _ => some path
  | key _ => none

def message : PlanError → String
  | plan p => p.message
  | group _ p => p.message
  | field path p => path ++ ": " ++ p.message
  | key f => f.message

end PlanError

namespace Plan

/-! ### Lengths and colors -/

/-- The units of lengths. -/
def units : List String := ["px", "rem", "em", "%", "vh", "vw", "vmin", "vmax", "ch", "ex"]

/-- What stands after the digits of a length is a unit, perhaps after decimal places. -/
def endsLength (s : List Char) : Bool :=
  match s with
  | '.' :: f =>
    f.head?.any Text.isAsciiDigit &&
      units.contains (String.ofList (f.dropWhile Text.isAsciiDigit))
  | _ => units.contains (String.ofList s)

/-- The text is zero, or a decimal number without a sign with a unit. -/
def isLength (s : List Char) : Bool :=
  s == ['0'] ||
    (s.head?.any Text.isAsciiDigit && endsLength (s.dropWhile Text.isAsciiDigit))

/-- The text is a hash mark with three or six hexadecimal digits; a line feed may follow. -/
def isHexColor (s : List Char) : Bool :=
  match Text.withoutFinalNewline s with
  | '#' :: ds => (ds.length == 3 || ds.length == 6) && ds.all Text.isHexDigit
  | _ => false

def checkText (v : Value) (path : String) : Except PlanError String :=
  match v with
  | .text s => if s.isEmpty then .error (.field path (.notAText v.typeName)) else .ok s
  | _ => .error (.field path (.notAText v.typeName))

def checkLength (v : Value) (path : String) : Except PlanError String := do
  let s ← checkText v path
  if s.toList.any Text.isBlank then .error (.field path (.blankInLength s))
  else if isLength s.toList then .ok s
  else .error (.field path (.notALength s))

def checkHexColor (v : Value) (path : String) : Except PlanError String := do
  let s ← checkText v path
  if isHexColor s.toList then .ok s else .error (.field path (.notAHexColor s))

/-! ### Keys -/

/-- The text of a key. -/
def keyText (k : Value) : Except PlanError String :=
  match k with
  | .int n => if Decimal.digitBound ≤ n.natAbs then .error (.key .tooLong) else .ok k.shown
  | _ => .ok k.shown

/-! ### Groups -/

/-- The checked values under the texts of their keys. -/
def checkEntries {α : Type} (check : String → Value → Except PlanError α) (es : Entries) :
    Except PlanError (Table α) := do
  let checked ← es.mapM fun e => do
    let key ← keyText e.1
    return (key, ← check key e.2)
  return Table.ofList checked

def checkLengths (group : String) (v : Value) : Except PlanError (Table String) :=
  match v with
  | .map es => checkEntries (fun key w => checkLength w (group ++ "." ++ key)) es
  | _ => .error (.field group .notATokenTable)

def checkColorPair (path : String) (v : Value) : Except PlanError ColorPair :=
  match v with
  | .map es =>
    match Entries.getText? es "dark", Entries.getText? es "light" with
    | none, _ => .error (.field path (.missingSide "dark"))
    | some _, none => .error (.field path (.missingSide "light"))
    | some dark, some light => do
      return ⟨← checkHexColor dark (path ++ ".dark"), ← checkHexColor light (path ++ ".light")⟩
  | _ => .error (.field path .notAColorPair)

def checkColorTokens (path : String) (v : Value) : Except PlanError (Table ColorPair) :=
  match v with
  | .map es => checkEntries (fun key w => checkColorPair (path ++ "." ++ key) w) es
  | _ => .error (.field path .notATokenTable)

def checkColors (v : Value) : Except PlanError (Table (Table ColorPair)) :=
  match v with
  | .map es => checkEntries (fun group w => checkColorTokens ("color." ++ group) w) es
  | _ => .error (.field "color" .notAColorTable)

/-! ### Plans -/

/-- The levels of collections in the data of a plan: groups, tokens or groups of colors, tokens of
colors, and themes. -/
def levels : Nat := 4

/-- The key is the name of a group. -/
def isGroup (k : Value) : Bool := groups.any fun g => k.same (.text g)

/-- The value of a group that every plan must have. -/
def requireGroup (es : Entries) (group : String) : Except PlanError Value :=
  match Entries.getText? es group with
  | some v => .ok v
  | none => .error (.group group (.missingGroup group))

/-- The plan that the data is. -/
def define (v : Value) : Except PlanError Plan :=
  match v with
  | .map es => do
    if let some e := es.find? fun e => !isGroup e.1 then
      let key ← keyText e.1
      throw (.group key (.unknownGroup key))
    let space ← requireGroup es "space"
    let radius ← requireGroup es "radius"
    let color ← requireGroup es "color"
    return ⟨← checkLengths "space" space, ← checkLengths "radius" radius, ← checkColors color⟩
  | _ => .error (.plan .notAPlan)

end Plan

end DesignTokens
