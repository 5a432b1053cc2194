import DesignTokens.Script.Expr
import DesignTokens.Text.Blank

/-! # Class names of an expression

Every class name that stands in static text and could be rendered. Both outcomes of a short
circuit or a conditional count, interpolations and shapes that are not looked into give nothing: a
missed class name is preferable to a guessed one. -/

namespace DesignTokens

def classWords (s : String) : List String := (Text.words s.toList).map String.ofList

namespace Script

mutual

/-- The class names in an expression, with repetitions. The right side of a short circuit comes
before its left side. -/
def Expr.classNames : Expr → List String
  | .string v => classWords v
  | .template qs _ => qs.flatMap classWords
  | .call _ args => argumentClassNames args
  | .array es => memberClassNames es
  | .logical _ l r => r.classNames ++ l.classNames
  | .conditional _ c a => c.classNames ++ a.classNames
  | .other _ _ => []
termination_by structural e => e

def argumentClassNames : List Expr → List String
  | [] => []
  | e :: es => e.classNames ++ argumentClassNames es
termination_by structural es => es

def memberClassNames : List (Option Expr) → List String
  | [] => []
  | e :: es => valueClassNames e ++ memberClassNames es
termination_by structural es => es

def valueClassNames : Option Expr → List String
  | none => []
  | some e => e.classNames
termination_by structural e => e

end

end Script

end DesignTokens
