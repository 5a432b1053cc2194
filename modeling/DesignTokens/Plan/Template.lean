/-! # The plan of a new project -/

namespace DesignTokens.Plan

/-- The text of the plan file that a new project starts with. -/
def template : String :=
  "# BrandPlan tokens\n" ++
  "# These tokens are used by the Button and Card class recipes.\n" ++
  "# Rebuild CSS after editing: brandplan build\n" ++
  "\n" ++
  "space:\n" ++
  "  \"2\": 0.5rem\n" ++
  "  \"4\": 1rem\n" ++
  "  \"6\": 1.5rem\n" ++
  "\n" ++
  "radius:\n" ++
  "  sm: 0.25rem\n" ++
  "  md: 0.5rem\n" ++
  "  lg: 1rem\n" ++
  "\n" ++
  "color:\n" ++
  "  # Brand colors\n" ++
  "  brand:\n" ++
  "    primary: \x7b dark: \"#3b82f6\", light: \"#2563eb\" \x7d\n" ++
  "    accent: \x7b dark: \"#8b5cf6\", light: \"#7c3aed\" \x7d\n" ++
  "  # Surface colors\n" ++
  "  surface:\n" ++
  "    \"0\": \x7b dark: \"#0b0f17\", light: \"#ffffff\" \x7d\n" ++
  "    \"1\": \x7b dark: \"#111827\", light: \"#f9fafb\" \x7d\n" ++
  "  # Text colors\n" ++
  "  text:\n" ++
  "    primary: \x7b dark: \"#f9fafb\", light: \"#111827\" \x7d\n" ++
  "    secondary: \x7b dark: \"#9ca3af\", light: \"#6b7280\" \x7d\n"

end DesignTokens.Plan
