import DesignTokens.Json.Tree
import DesignTokens.Value.Basic
import DesignTokens.Value.Table

/-! # Values as JSON documents

The format has no number that is not finite, so such a number is nothing. The keys of a map become
texts; where two of them have the same text, the later value stands in the place of the first. -/

namespace DesignTokens.Value

def isFinite (x : Float) : Bool :=
  match (Decimal.classify x).2 with
  | .nan | .infinite => false
  | .zero | .finite _ => true

/-- The text that a key has as the name of a field. -/
def fieldName : Value → String
  | bool b => if b then "true" else "false"
  | float x => if isFinite x then Decimal.floatText x else null.shown
  | v => v.shown

mutual

def toJson : Value → Json.Tree
  | null => .null
  | bool b => .bool b
  | int n => .number (toString n)
  | float x => if isFinite x then .number (Decimal.floatText x) else .null
  | text s => .text s
  | moment m => .text m.text
  | bytes bs => .text (String.ofList (bs.map fun b => Char.ofNat b.toNat))
  | list items => .array (itemsToJson items)
  | map entries => .object (Table.ofList (entriesToJson entries))
  | set items => .array (itemsToJson items)
termination_by structural v => v

def itemsToJson : List Value → List Json.Tree
  | [] => []
  | v :: vs => v.toJson :: itemsToJson vs
termination_by structural vs => vs

def entriesToJson : List (Value × Value) → List (String × Json.Tree)
  | [] => []
  | e :: es => entryToJson e :: entriesToJson es
termination_by structural es => es

def entryToJson : Value × Value → String × Json.Tree
  | (k, v) => (k.fieldName, v.toJson)
termination_by structural e => e

end

end DesignTokens.Value
