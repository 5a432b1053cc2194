import DesignTokens.Decimal.Numeral
import DesignTokens.Text.Location

/-! # Faults of a TOML document -/

namespace DesignTokens.Toml

/-- The names that lead to a value from the top of a document. -/
abbrev Key := List String

/-- The names in parentheses; a comma follows a single one. -/
def keyText : Key → String
  | [k] => "(" ++ Text.quoted k ++ ",)"
  | ks => "(" ++ ", ".intercalate (ks.map Text.quoted) ++ ")"

inductive Cause
  | statementExpected
  | statementEndExpected
  | equalsExpected
  | keyExpected
  | valueExpected
  | tableEndExpected
  | tablesEndExpected
  | unclosedLiteral (closer : String)
  | unclosedString
  | unclosedArray
  | unclosedInlineTable
  | controlInString (c : Char)
  | controlOutside (c : Char)
  | strayBackslash
  | hexDigitsExpected
  | noScalarValue
  | noSuchDate
  | valueOverwritten
  | nameRepeated (name : String)
  | tableRepeated (key : Key)
  | tableReopened (key : Key)
  | frozen (key : Key)
  | number (f : Decimal.NumberFault)
  deriving DecidableEq, Repr

def Cause.message : Cause → String
  | statementExpected => "Invalid statement"
  | statementEndExpected => "Expected newline or end of document after a statement"
  | equalsExpected => "Expected '=' after a key in a key/value pair"
  | keyExpected => "Invalid initial character for a key part"
  | valueExpected => "Invalid value"
  | tableEndExpected => "Expected ']' at the end of a table declaration"
  | tablesEndExpected => "Expected ']]' at the end of an array declaration"
  | unclosedLiteral closer => "Expected " ++ Text.quoted closer
  | unclosedString => "Unterminated string"
  | unclosedArray => "Unclosed array"
  | unclosedInlineTable => "Unclosed inline table"
  | controlInString c => "Illegal character " ++ Text.quoted (String.singleton c)
  | controlOutside c => "Found invalid character " ++ Text.quoted (String.singleton c)
  | strayBackslash => "Unescaped '\\' in a string"
  | hexDigitsExpected => "Invalid hex value"
  | noScalarValue => "Escaped character is not a Unicode scalar value"
  | noSuchDate => "Invalid date or datetime"
  | valueOverwritten => "Cannot overwrite a value"
  | nameRepeated name => "Duplicate inline table key " ++ Text.quoted name
  | tableRepeated key => "Cannot declare " ++ keyText key ++ " twice"
  | tableReopened key => "Cannot redefine namespace " ++ keyText key
  | frozen key => "Cannot mutate immutable namespace " ++ keyText key
  | number f => f.message

/-- A fault where `left` characters of the document are left. -/
structure Fault where
  cause : Cause
  left : Nat
  deriving DecidableEq, Repr

/-- The cause with its place in the document. -/
def Fault.message (f : Fault) (source : List Char) : String :=
  let l := Location.ofOffset source (source.length - f.left)
  let place := if f.left = 0 then "end of document"
    else "line " ++ toString l.line ++ ", column " ++ toString l.column
  f.cause.message ++ " (at " ++ place ++ ")"

end DesignTokens.Toml
