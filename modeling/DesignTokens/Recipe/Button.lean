import DesignTokens.Recipe.Choice

/-! # Buttons -/

namespace DesignTokens.Recipe

inductive ButtonVariant
  | solid
  | outline
  | ghost
  deriving DecidableEq, Repr

def ButtonVariant.choice : Choice ButtonVariant :=
  ⟨"ButtonVariant", [("solid", solid), ("outline", outline), ("ghost", ghost)]⟩

inductive ButtonTone
  | primary
  | accent
  deriving DecidableEq, Repr

def ButtonTone.choice : Choice ButtonTone :=
  ⟨"ButtonTone", [("primary", primary), ("accent", accent)]⟩

/-- The token of the tone's color. -/
def ButtonTone.color : ButtonTone → String
  | primary => "brand-primary"
  | accent => "brand-accent"

structure Button where
  variant : ButtonVariant
  tone : ButtonTone
  size : Size
  radius : Size
  disabled : Bool
  extra : Option String
  deriving DecidableEq, Repr

namespace Button

def default : Button := ⟨.solid, .primary, .md, .md, false, none⟩

def baseClasses : List String := [
  "inline-flex", "items-center", "justify-center", "font-medium", "transition-colors",
  "focus-visible:outline", "focus-visible:outline-2", "focus-visible:outline-offset-2",
  "focus-visible:outline-brand-brand-primary"]

def sizeClasses : Size → List String
  | .sm => ["px-brand-2", "py-brand-1", "text-brand-sm"]
  | .md => ["px-brand-4", "py-brand-2", "text-brand-md"]
  | .lg => ["px-brand-6", "py-brand-4", "text-brand-lg"]

def disabledClasses : String := "opacity-50 cursor-not-allowed"

def variantClasses (variant : ButtonVariant) (tone : ButtonTone) : List String :=
  let color := tone.color
  match variant with
  | .solid => [
    "bg-brand-" ++ color, "text-brand-surface-0", "hover:bg-brand-" ++ color, "hover:opacity-90",
    "active:bg-brand-" ++ color, "active:opacity-80"]
  | .outline => [
    "bg-transparent", "text-brand-" ++ color, "border", "border-brand-" ++ color,
    "hover:bg-brand-" ++ color, "hover:text-brand-surface-0", "hover:opacity-90"]
  | .ghost => [
    "bg-transparent", "text-brand-" ++ color, "hover:bg-brand-" ++ color,
    "hover:text-brand-surface-0", "hover:opacity-20"]

/-- The class names of a button, its extra ones last. -/
def classes (b : Button) : String :=
  joined (baseClasses ++ sizeClasses b.size ++ [b.radius.radiusClass] ++
    variantClasses b.variant b.tone ++ (if b.disabled then [disabledClasses] else []) ++
    b.extra.toList)

def propNames : List String := ["variant", "tone", "size", "radius", "disabled", "class_name"]

/-- The button with the given properties; any value can say whether it is disabled. -/
def ofProps (props : Entries) : Except PropFault Button := do
  checkNames propNames props
  let variant ← readOr ButtonVariant.choice props "variant" default.variant
  let tone ← readOr ButtonTone.choice props "tone" default.tone
  let size ← readOr Size.choice props "size" default.size
  let radius ← readOr Size.choice props "radius" default.radius
  let disabled := (props.getText? "disabled").elim default.disabled Value.isTruthy
  return ⟨variant, tone, size, radius, disabled, ← readClassNames props⟩

end Button

end DesignTokens.Recipe
