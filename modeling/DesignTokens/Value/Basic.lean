import DesignTokens.Decimal.Shortest
import DesignTokens.Text.Quoted
import DesignTokens.Value.Moment

/-! # Values of any shape

What a plan, a rule's options or a loaded document can hold. A map keeps the order in which its
keys were first inserted. Keys are compared by `Value.same`, for which a truth value is the number
it counts as and an integer equals the floating-point number of the same size. -/

namespace DesignTokens

inductive Value
  | null
  | bool (b : Bool)
  | int (n : Int)
  | float (x : Float)
  | text (s : String)
  | moment (m : Moment)
  | bytes (bs : List UInt8)
  | list (items : List Value)
  | map (entries : List (Value × Value))
  | set (items : List Value)
  deriving Inhabited

namespace Value

/-! ### Text -/

/-- One byte inside quotes of the given kind. -/
def quotedByte (quote : Char) (b : UInt8) : List Char :=
  let c := Char.ofNat b.toNat
  if c = '\\' ∨ c = quote then ['\\', c]
  else if c = '\n' then ['\\', 'n']
  else if c = '\r' then ['\\', 'r']
  else if c = '\t' then ['\\', 't']
  else if 0x20 ≤ b.toNat ∧ b.toNat < 0x7F then [c]
  else '\\' :: 'x' :: Text.hexDigits 2 b.toNat

def bytesText (bs : List UInt8) : String :=
  let q := Text.quoteFor (bs.map fun b => Char.ofNat b.toNat)
  String.ofList ('b' :: q :: bs.flatMap (quotedByte q) ++ [q])

def boolText (b : Bool) : String := if b then "True" else "False"

mutual

/-- The text of a value inside another one, where texts are quoted. -/
def quoted : Value → String
  | null => "None"
  | bool b => boolText b
  | int n => toString n
  | float x => Decimal.floatText x
  | text s => Text.quoted s
  | moment m => m.constructorText
  | bytes bs => bytesText bs
  | list items => "[" ++ ", ".intercalate (quotedItems items) ++ "]"
  | map entries => "\x7b" ++ ", ".intercalate (quotedEntries entries) ++ "\x7d"
  | set [] => "set()"
  | set (x :: xs) => "\x7b" ++ ", ".intercalate (x.quoted :: quotedItems xs) ++ "\x7d"
termination_by structural v => v

def quotedItems : List Value → List String
  | [] => []
  | v :: vs => v.quoted :: quotedItems vs
termination_by structural vs => vs

def quotedEntries : List (Value × Value) → List String
  | [] => []
  | e :: es => quotedEntry e :: quotedEntries es
termination_by structural es => es

def quotedEntry : Value × Value → String
  | (k, v) => k.quoted ++ ": " ++ v.quoted
termination_by structural e => e

end

/-- The text of a value that stands alone. -/
def shown : Value → String
  | text s => s
  | moment m => m.text
  | v => v.quoted

def typeName : Value → String
  | null => "null"
  | bool _ => "bool"
  | int _ => "int"
  | float _ => "float"
  | text _ => "str"
  | moment m => m.typeName
  | bytes _ => "bytes"
  | list _ => "list"
  | map _ => "dict"
  | set _ => "set"

/-! ### Equality and truth -/

/-- The integer that a number is, if it is one. -/
def asInt? : Value → Option Int
  | bool b => some (if b then 1 else 0)
  | int n => some n
  | float x => Decimal.floatInt? x
  | _ => none

/-- Two values are the same key. Only values that can be keys are compared. -/
def same : Value → Value → Bool
  | null, null => true
  | text s, text t => s == t
  | moment m, moment n => m.same n
  | bytes s, bytes t => s == t
  | float x, float y => x == y
  | v, w =>
    match v.asInt?, w.asInt? with
    | some m, some n => m == n
    | _, _ => false

/-- A value counts as true unless it is nothing, zero or empty. -/
def isTruthy : Value → Bool
  | null => false
  | bool b => b
  | int n => n != 0
  | float x => x != 0.0
  | text s => !s.isEmpty
  | moment _ => true
  | bytes bs => !bs.isEmpty
  | list items => !items.isEmpty
  | map entries => !entries.isEmpty
  | set items => !items.isEmpty

end Value

/-! ### Maps -/

/-- The entries of a map, in the order in which their keys were first inserted. -/
abbrev Entries := List (Value × Value)

namespace Entries

def get? (es : Entries) (k : Value) : Option Value :=
  (es.find? fun e => e.1.same k).map (·.2)

def getText? (es : Entries) (k : String) : Option Value := get? es (.text k)

/-- Gives the key a value; a known key keeps its place and its spelling. -/
def insert (k v : Value) : Entries → Entries
  | [] => [(k, v)]
  | e :: es => if e.1.same k then (e.1, v) :: es else e :: insert k v es

/-- The entries with later values of repeated keys in the place of the first. -/
def ofList (es : List (Value × Value)) : Entries :=
  es.foldl (fun acc e => insert e.1 e.2 acc) []

def eraseText (es : Entries) (k : String) : Entries := es.filter fun e => !e.1.same (.text k)

end Entries

end DesignTokens
