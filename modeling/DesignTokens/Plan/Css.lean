import DesignTokens.Plan.Basic

/-! # Plans as style sheets

The dark values stand in the root block, where lengths have their only value; the light values of
colors override them in a block of their own. -/

namespace DesignTokens.Plan

def declaration (name value : String) : String := "  " ++ name ++ ": " ++ value ++ ";"

/-- The declarations of the root block. -/
def darkDeclarations (vs : List Variable) : List String := vs.map fun v => declaration v.name v.dark

def lightDeclarations (vs : List Variable) : List String :=
  vs.filterMap fun v => v.light.map (declaration v.name)

/-- A block with a color scheme and declarations; without any an empty line stands for them. -/
def block (selector scheme : String) (declarations : List String) : String :=
  selector ++ " \x7b\n  color-scheme: " ++ scheme ++ ";\n" ++ "\n".intercalate declarations ++
    "\n\x7d\n"

/-- The style sheet of a plan. -/
def css (p : Plan) : String :=
  "@import \"tailwindcss\";\n\n" ++
    block ":root" "dark" (darkDeclarations p.customProperties) ++ "\n" ++
    block "[data-theme=\"light\"]" "light" (lightDeclarations p.customProperties)

/-- The comment at the top of a style sheet file. -/
def cssHeader : String :=
  "/**\n" ++
  " * BrandPlan Generated CSS\n" ++
  " *\n" ++
  " * This file is auto-generated from brandplan.yaml\n" ++
  " * DO NOT EDIT MANUALLY - changes will be overwritten\n" ++
  " *\n" ++
  " * To regenerate: brandplan build\n" ++
  " */\n" ++
  "\n"

/-- The text of a style sheet file. -/
def cssFile (p : Plan) : String := cssHeader ++ p.css

end DesignTokens.Plan
