import DesignTokens.Text.Quoted

/-! # Documents in the JSON format

A document is written in ASCII: every other character, and the delete character, is written by its
UTF-16 units. Nested documents are indented by two spaces. -/

namespace DesignTokens.Json

inductive Tree
  | null
  | bool (b : Bool)
  | number (text : String)
  | text (s : String)
  | array (items : List Tree)
  | object (fields : List (String × Tree))
  deriving Inhabited, Repr

def unitEscape (u : Nat) : List Char := '\\' :: 'u' :: Text.hexDigits 4 u

/-- A character inside quotes. -/
def escapedChar (c : Char) : List Char :=
  if c = '"' ∨ c = '\\' then ['\\', c]
  else if c = '\n' then ['\\', 'n']
  else if c = '\r' then ['\\', 'r']
  else if c = '\t' then ['\\', 't']
  else if c = '\x08' then ['\\', 'b']
  else if c = '\x0c' then ['\\', 'f']
  else if 0x20 ≤ c.toNat ∧ c.toNat ≤ 0x7E then [c]
  else if c.toNat ≤ 0xFFFF then unitEscape c.toNat
  else
    let n := c.toNat - 0x10000
    unitEscape (0xD800 + n / 0x400) ++ unitEscape (0xDC00 + n % 0x400)

def quoted (s : String) : List Char := '"' :: s.toList.flatMap escapedChar ++ ['"']

/-- A new line at the given depth. -/
def newline (depth : Nat) : List Char := '\n' :: List.replicate (2 * depth) ' '

/-- Written members between brackets, each on its own line; no members leave no lines. -/
def bracketed (opening closing : Char) (depth : Nat) (members : List (List Char)) : List Char :=
  if members.isEmpty then [opening, closing]
  else
    let lines := members.map (newline (depth + 1) ++ ·)
    opening :: (lines.intersperse [',']).flatten ++ newline depth ++ [closing]

mutual

/-- The characters of a document that stands at the given depth. -/
def Tree.chars (depth : Nat) : Tree → List Char
  | .null => "null".toList
  | .bool b => (if b then "true" else "false").toList
  | .number s => s.toList
  | .text s => quoted s
  | .array items => bracketed '[' ']' depth (itemChars (depth + 1) items)
  | .object fields => bracketed '\x7b' '\x7d' depth (fieldsChars (depth + 1) fields)
termination_by structural t => t

def itemChars (depth : Nat) : List Tree → List (List Char)
  | [] => []
  | t :: ts => t.chars depth :: itemChars depth ts
termination_by structural ts => ts

def fieldsChars (depth : Nat) : List (String × Tree) → List (List Char)
  | [] => []
  | f :: fs => fieldChars depth f :: fieldsChars depth fs
termination_by structural fs => fs

def fieldChars (depth : Nat) : String × Tree → List Char
  | (k, t) => quoted k ++ ':' :: ' ' :: t.chars depth
termination_by structural f => f

end

def Tree.render (t : Tree) : String := String.ofList (t.chars 0)

end DesignTokens.Json
