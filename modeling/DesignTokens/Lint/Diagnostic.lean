import DesignTokens.Text.Location
import DesignTokens.Text.Search
import DesignTokens.Value.Json

/-! # Diagnostics

What a rule reports, the order in which reports are shown, and the two forms in which they are
printed: one line each, or one array of records. -/

namespace DesignTokens.Lint

inductive Severity
  | off
  | warn
  | error
  deriving DecidableEq, Repr

namespace Severity

def text : Severity → String
  | off => "off"
  | warn => "warn"
  | error => "error"

/-- The severities from weak to strong. -/
def all : List Severity := [off, warn, error]

def ofText? (s : String) : Option Severity := all.find? (·.text == s)

end Severity

structure Diagnostic where
  rule : String
  messageId : String
  message : String
  /-- What the message was made from. -/
  data : List (String × Value)
  file : String
  location : Location
  severity : Severity

/-- The template with each `{key}` replaced by the text of the key's value, one entry after
another; what no key names is left as it is. -/
def renderMessage (template : String) (data : List (String × Value)) : String :=
  let fill (s : List Char) (entry : String × Value) : List Char :=
    Text.replaceAll ('\x7b' :: entry.1.toList ++ ['\x7d']) entry.2.shown.toList s
  String.ofList (data.foldl fill template.toList)

namespace Diagnostic

/-- By file, then by line and column. -/
def le (a b : Diagnostic) : Bool :=
  if a.file ≠ b.file then decide (a.file < b.file)
  else if a.location.line ≠ b.location.line then a.location.line < b.location.line
  else a.location.column ≤ b.location.column

/-- Diagnostics in order of place; those at one place stay as they were. -/
def sort (ds : List Diagnostic) : List Diagnostic := ds.mergeSort le

/-- The line `file:line:column: severity: message [rule]`. -/
def line (d : Diagnostic) : String :=
  d.file ++ ":" ++ d.location.text ++ ": " ++ d.severity.text ++ ": " ++ d.message ++
    " [" ++ d.rule ++ "]"

def toJson (d : Diagnostic) : Json.Tree :=
  .object [
    ("rule_id", .text d.rule),
    ("message_id", .text d.messageId),
    ("message", .text d.message),
    ("data", .object (d.data.map fun e => (e.1, e.2.toJson))),
    ("file", .text d.file),
    ("line", .number (toString d.location.line)),
    ("column", .number (toString d.location.column)),
    ("severity", .text d.severity.text)]

/-- One line for each diagnostic, in order of place. -/
def formatHuman (ds : List Diagnostic) : String := "\n".intercalate ((sort ds).map line)

/-- An array of records, in order of place. -/
def formatJson (ds : List Diagnostic) : String :=
  (Json.Tree.array ((sort ds).map toJson)).render

def count (s : Severity) (ds : List Diagnostic) : Nat := ds.countP (·.severity == s)

end Diagnostic

end DesignTokens.Lint
