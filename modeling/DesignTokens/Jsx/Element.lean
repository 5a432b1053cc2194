import DesignTokens.Script.Expr
import DesignTokens.Text.Location

/-! # Elements of marked-up script -/

namespace DesignTokens.Jsx

open Script (Expr)

/-- An attribute of an opening tag; one without a value has `none`. -/
structure Attribute where
  name : String
  offset : Nat
  value : Option Expr
  deriving Repr

/-- An opening tag, self-closing or not. -/
structure Element where
  tag : String
  offset : Nat
  attributes : List Attribute
  deriving Repr

/-- The element with all offsets sent through `f`. -/
def Element.mapOffset (f : Nat → Nat) (e : Element) : Element :=
  { e with
    offset := f e.offset
    attributes := e.attributes.map fun a => { a with offset := f a.offset } }

/-- An attribute together with what a policy needs to know about where it stands. -/
structure Context where
  tag : String
  name : String
  location : Location
  value : Option Expr
  deriving Repr

/-- The contexts of an element's attributes of one name. -/
def Element.contexts (source : List Char) (e : Element) (name : String) : List Context :=
  (e.attributes.filter (·.name == name)).map fun a =>
    ⟨e.tag, a.name, .ofOffset source a.offset, a.value⟩

end DesignTokens.Jsx
