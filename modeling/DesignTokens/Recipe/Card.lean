import DesignTokens.Recipe.Choice

/-! # Cards -/

namespace DesignTokens.Recipe

inductive CardTone
  | default
  | muted
  deriving DecidableEq, Repr

def CardTone.choice : Choice CardTone := ⟨"CardTone", [("default", default), ("muted", muted)]⟩

def CardTone.surfaceClass : CardTone → String
  | default => "bg-brand-surface-1"
  | muted => "bg-brand-surface-0"

inductive CardPadding
  | none
  | sm
  | md
  | lg
  deriving DecidableEq, Repr

def CardPadding.choice : Choice CardPadding :=
  ⟨"CardPadding", [("none", none), ("sm", sm), ("md", md), ("lg", lg)]⟩

def CardPadding.paddingClass : CardPadding → String
  | none => "p-brand-0"
  | sm => "p-brand-2"
  | md => "p-brand-4"
  | lg => "p-brand-6"

structure Card where
  tone : CardTone
  padding : CardPadding
  radius : Size
  extra : Option String
  deriving DecidableEq, Repr

namespace Card

def default : Card := ⟨.default, .md, .md, none⟩

/-- The class names of a card, its extra ones last. -/
def classes (c : Card) : String :=
  joined ([c.tone.surfaceClass, "border", "border-brand-surface-0", c.padding.paddingClass,
    c.radius.radiusClass] ++ c.extra.toList)

def propNames : List String := ["tone", "padding", "radius", "class_name"]

def ofProps (props : Entries) : Except PropFault Card := do
  checkNames propNames props
  let tone ← readOr CardTone.choice props "tone" default.tone
  let padding ← readOr CardPadding.choice props "padding" default.padding
  let radius ← readOr Size.choice props "radius" default.radius
  return ⟨tone, padding, radius, ← readClassNames props⟩

end Card

end DesignTokens.Recipe
