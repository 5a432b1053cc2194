import DesignTokens.Value.Basic
import DesignTokens.Value.Table

/-! # Brand plans

A brand plan names lengths for spacing and for radii, and colors in groups. Only colors vary by
theme. Every token becomes a custom property, named after its group and its key. -/

namespace DesignTokens

/-- A color in the dark theme, which is the default, and in the light one. -/
structure ColorPair where
  dark : String
  light : String
  deriving DecidableEq, Repr

structure Plan where
  space : Table String
  radius : Table String
  color : Table (Table ColorPair)
  deriving DecidableEq, Repr

/-- A custom property; only colors have a light value. -/
structure Variable where
  name : String
  dark : String
  light : Option String
  deriving DecidableEq, Repr

namespace Plan

/-- The groups of a plan, all of which it must have. -/
def groups : List String := ["space", "radius", "color"]

def lengthName (group key : String) : String := "--brand-" ++ group ++ "-" ++ key

def colorName (group key : String) : String := "--brand-color-" ++ group ++ "-" ++ key

def lengthVariables (group : String) (t : Table String) : List Variable :=
  t.sorted.map fun e => ⟨lengthName group e.1, e.2, none⟩

def colorVariables (t : Table (Table ColorPair)) : List Variable :=
  t.sorted.flatMap fun g =>
    g.2.sorted.map fun e => ⟨colorName g.1 e.1, e.2.dark, some e.2.light⟩

/-- The custom properties: group after group, in the order of the keys. -/
def customProperties (p : Plan) : List Variable :=
  lengthVariables "space" p.space ++ lengthVariables "radius" p.radius ++ colorVariables p.color

/-- The names of the tokens, in the same order. -/
def tokenNames (p : Plan) : List String :=
  p.space.sorted.map (lengthName "space" ·.1) ++ p.radius.sorted.map (lengthName "radius" ·.1) ++
    p.color.sorted.flatMap fun g => g.2.sorted.map (colorName g.1 ·.1)

/-! ### Plans as data -/

def lengthsValue (t : Table String) : Value := .map (t.map fun e => (.text e.1, .text e.2))

def ColorPair.toValue (c : ColorPair) : Value :=
  .map [(.text "dark", .text c.dark), (.text "light", .text c.light)]

/-- The plan as data from which it can be defined. -/
def toValue (p : Plan) : Value :=
  .map [
    (.text "space", lengthsValue p.space),
    (.text "radius", lengthsValue p.radius),
    (.text "color", .map (p.color.map fun g =>
      (.text g.1, .map (g.2.map fun e => (.text e.1, ColorPair.toValue e.2)))))]

end Plan

end DesignTokens
