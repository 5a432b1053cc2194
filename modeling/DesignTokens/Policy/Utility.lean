import DesignTokens.Policy.Verdict
import DesignTokens.Text.Search

/-! # The utility policy: critical utilities use brand tokens

A class name that carries the brand marker is exempt. Otherwise layout utilities and text sizes
are compliant, utilities for spacing, colour, borders and shadows are violations, and everything
else is compliant. -/

namespace DesignTokens.Policy.Utility

/-- Beginnings of class names for layout. -/
def structuralBeginnings : List String := [
  "flex", "grid", "block", "inline", "hidden", "visible", "invisible",
  "w-", "h-", "max-w-", "max-h-", "min-w-", "min-h-", "size-",
  "static", "fixed", "absolute", "relative", "sticky", "top-", "right-", "bottom-", "left-",
  "inset-", "z-",
  "items-", "justify-", "content-", "self-", "place-", "flex-", "grow", "shrink", "basis-",
  "order-", "col-", "row-", "grid-cols-", "grid-rows-", "auto-cols-", "auto-rows-",
  "container", "mx-auto", "my-auto",
  "overflow-", "overscroll-", "truncate", "text-ellipsis", "text-clip",
  "whitespace-", "break-",
  "cursor-", "pointer-events-",
  "transition", "duration-", "ease-", "delay-",
  "opacity-"]

def textSizes : List String := [
  "text-xs", "text-sm", "text-base", "text-lg", "text-xl", "text-2xl", "text-3xl", "text-4xl",
  "text-5xl", "text-6xl", "text-7xl", "text-8xl", "text-9xl"]

/-- What stands before the first hyphen of utilities that must use brand tokens. -/
def criticalUtilities : List String := [
  "p", "px", "py", "pt", "pb", "pl", "pr",
  "m", "mx", "my", "mt", "mb", "ml", "mr",
  "gap", "space", "rounded", "bg", "text", "border", "ring", "shadow", "from", "via", "to"]

/-- The reason of a violation. -/
def forbiddenClass : String := "forbiddenClass"

def startsWith (c p : String) : Bool := p.toList.isPrefixOf c.toList

/-- The class name uses the brand vocabulary. -/
def hasBrandMarker (c : String) : Bool :=
  Text.contains "-brand-".toList c.toList || startsWith c "brand-"

/-- The class name is a text size; a line feed may follow it. -/
def isTextSize (c : String) : Bool := textSizes.any fun t => c == t || c == t ++ "\n"

def isStructural (c : String) : Bool := structuralBeginnings.any (startsWith c) || isTextSize c

/-- The critical utility that the class name is an instance of. -/
def criticalUtility? (c : String) : Option String :=
  criticalUtilities.find? fun u => startsWith c (u ++ "-")

/-- The class name with the brand marker after its critical utility, if it has one. -/
def suggest (c : String) : String :=
  match criticalUtility? c with
  | none => c
  | some u => u ++ "-brand-" ++ String.ofList (c.toList.drop (u.length + 1))

def classify (c : String) : Verdict :=
  if hasBrandMarker c then .exempt
  else if isStructural c then .compliant
  else if (criticalUtility? c).isSome then .violation forbiddenClass (some (suggest c))
  else .compliant

end DesignTokens.Policy.Utility
