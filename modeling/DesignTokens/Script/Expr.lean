import DesignTokens.Text.Search

/-! # Expressions that can carry class names

A closed set of shapes: texts, templates, calls, arrays, short-circuit operators and conditionals.
Everything else is `other`, with a label and its source. `Expr.text` writes an expression with
every operator in parentheses, in a form that reads back. -/

namespace DesignTokens.Script

/-- The short-circuit operators. -/
inductive LogicalOp
  | and
  | or
  | nullish
  deriving DecidableEq, Repr

def LogicalOp.text : LogicalOp → String
  | and => "&&"
  | or => "||"
  | nullish => "??"

inductive Expr
  | string (value : String)
  /-- The static pieces of a template, and what is interpolated between them. -/
  | template (quasis : List String) (expressions : List Expr)
  | call (callee : String) (args : List Expr)
  /-- An array; a member that is `none` is a hole. -/
  | array (elements : List (Option Expr))
  | logical (op : LogicalOp) (left right : Expr)
  | conditional (test consequent alternate : Expr)
  /-- An expression that is not looked into; `source` may be unknown. -/
  | other (kind source : String)
  deriving Inhabited, Repr

namespace Expr

mutual

def chars : Expr → List Char
  | string v => '"' :: v.toList ++ ['"']
  | template qs es => '`' :: (qs.head?.elim [] String.toList ++ interpolated es qs.tail) ++ ['`']
  | call f args => f.toList ++ '(' :: Text.joinWith [',', ' '] (argumentChars args) ++ [')']
  | array es => '[' :: Text.joinWith [',', ' '] (memberChars es) ++ [']']
  | logical op l r => '(' :: l.chars ++ ' ' :: op.text.toList ++ ' ' :: r.chars ++ [')']
  | conditional t c a =>
    '(' :: t.chars ++ [' ', '?', ' '] ++ c.chars ++ [' ', ':', ' '] ++ a.chars ++ [')']
  | other kind source =>
    if source.isEmpty then '<' :: kind.toList ++ ['>'] else source.toList
termination_by structural e => e

/-- Interpolations, each with the static piece that follows it; the shorter list ends both. -/
def interpolated : List Expr → List String → List Char
  | e :: es, q :: qs => '$' :: '\x7b' :: e.chars ++ '\x7d' :: q.toList ++ interpolated es qs
  | _, _ => []
termination_by structural es => es

def argumentChars : List Expr → List (List Char)
  | [] => []
  | e :: es => e.chars :: argumentChars es
termination_by structural es => es

def memberChars : List (Option Expr) → List (List Char)
  | [] => []
  | e :: es => holeChars e :: memberChars es
termination_by structural es => es

/-- A member of an array; a hole is written as nothing. -/
def holeChars : Option Expr → List Char
  | none => []
  | some e => e.chars
termination_by structural e => e

end

/-- The written expression. -/
def text (e : Expr) : String := String.ofList e.chars

end Expr

end DesignTokens.Script
