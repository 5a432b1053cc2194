/-! # Wildcards within one path segment

`*` stands for any text, `?` for one character, and a bracketed class for one character in it or,
after `!`, for one that is not. A bracket that is never closed stands for itself.

In a class a hyphen between two characters makes a range. A closing bracket at the front, a hyphen
at either end, and a hyphen that follows the end of a range are plain characters. A range whose
ends are out of order is dropped together with both ends. -/

namespace DesignTokens.Path

/-- A part of a character class. -/
inductive ClassPart
  | char (c : Char)
  /-- The hyphen of a range. -/
  | upTo
  deriving DecidableEq, Repr

/-- One element of a pattern. -/
inductive Wildcard
  | anyText
  | anyChar
  | char (c : Char)
  | oneOf (parts : List ClassPart)
  | noneOf (parts : List ClassPart)
  deriving DecidableEq, Repr

namespace Wildcard

/-! ### Reading classes -/

/-- The class that opens before `s`, and what follows its closing bracket. -/
def classBody? (s : List Char) : Option (List Char × List Char) :=
  let mark := if s.head? = some '!' then s.take 1 else []
  let first := if (s.drop mark.length).head? = some ']' then [']'] else []
  let s := s.drop (mark.length + first.length)
  match s.dropWhile (· != ']') with
  | [] => none
  | _ :: rest => some (mark ++ first ++ s.takeWhile (· != ']'), rest)

theorem length_of_classBody? {s body rest : List Char} (h : classBody? s = some (body, rest)) :
    rest.length < s.length := by
  unfold classBody? at h
  simp only at h
  split at h
  · cases h
  · rename_i x _ hd
    cases h
    have suffix : x :: rest <:+ s :=
      (hd ▸ List.dropWhile_suffix _ : x :: rest <:+ _).trans (List.drop_suffix ..)
    exact suffix.length_le

/-- The pieces of a class between the hyphens of its ranges. The first `skip` characters hold no
such hyphen. -/
def rangePieces (skip : Nat) (s : List Char) : List (List Char) :=
  match h : (s.drop skip).dropWhile (· != '-') with
  | [] => [s]
  | _ :: rest =>
    let piece := s.take skip ++ (s.drop skip).takeWhile (· != '-')
    if rest = [] then [piece ++ ['-']]
    else
      have : rest.length < s.length :=
        ((h ▸ List.dropWhile_suffix _ : _ :: rest <:+ _).trans (List.drop_suffix ..)).length_le
      piece :: rangePieces 2 rest
termination_by s.length

/-- Drops ranges whose ends are out of order. -/
def joinEmptyRanges : List (List Char) → List (List Char)
  | [] => []
  | c :: cs =>
    match joinEmptyRanges cs with
    | [] => [c]
    | d :: ds =>
      match c.getLast?, d.head? with
      | some low, some high =>
        if high < low then (c.dropLast ++ d.tail) :: ds else c :: d :: ds
      | _, _ => c :: d :: ds

/-- The parts of a class with the given text. -/
def classParts (s : List Char) : List ClassPart :=
  let pieces := joinEmptyRanges (rangePieces (if s.head? = some '!' then 2 else 1) s)
  ((pieces.map (·.map ClassPart.char)).intersperse [ClassPart.upTo]).flatten

/-- The element that a class with the given text is. -/
def ofClass (s : List Char) : Wildcard :=
  match classParts s with
  | [.char '!'] => anyChar
  | .char '!' :: parts => noneOf parts
  | parts => oneOf parts

/-- The character is in the class; a hyphen that has no character on a side is a plain one. -/
def inClass (c : Char) : List ClassPart → Bool
  | [] => false
  | .char low :: .upTo :: .char high :: parts => (low ≤ c && c ≤ high) || inClass c parts
  | .char d :: parts => c == d || inClass c parts
  | .upTo :: parts => c == '-' || inClass c parts

/-! ### Patterns -/

/-- The elements of a pattern. -/
def parse (s : List Char) : List Wildcard :=
  match s with
  | [] => []
  | '*' :: r => anyText :: parse r
  | '?' :: r => anyChar :: parse r
  | '[' :: r =>
    match h : classBody? r with
    | none => char '[' :: parse r
    | some (body, rest) =>
      have := length_of_classBody? h
      ofClass body :: parse rest
  | c :: r => char c :: parse r
termination_by s.length

def matchesChar (c : Char) : Wildcard → Bool
  | anyText => false
  | anyChar => true
  | char d => c == d
  | oneOf parts => inClass c parts
  | noneOf parts => !inClass c parts

end Wildcard

/-- Some suffix of the list, perhaps the list itself or the empty one, satisfies `p`. -/
def anySuffix {α : Type} (p : List α → Bool) : List α → Bool
  | [] => p []
  | x :: xs => p (x :: xs) || anySuffix p xs

/-- The pattern matches the whole text. -/
def matchesText : List Wildcard → List Char → Bool
  | [], s => s.isEmpty
  | .anyText :: p, s => anySuffix (matchesText p) s
  | _ :: _, [] => false
  | w :: p, c :: s => w.matchesChar c && matchesText p s

/-- The pattern matches the segment, in this case of letters. -/
def segmentMatches (segment pattern : List Char) : Bool :=
  matchesText (Wildcard.parse pattern) segment

end DesignTokens.Path
