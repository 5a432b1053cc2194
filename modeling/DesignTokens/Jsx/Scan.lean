import DesignTokens.Jsx.Element
import DesignTokens.Script.Parse

/-! # Finding elements in script

The text is walked as script until an element begins. Strings, templates, regular expressions and
comments are passed over, so markup inside them is never an element; between tags text is markup
and quotes mean nothing. A candidate that does not read as an opening tag is passed over, together
with all that was found inside it.

A walk gives the elements found on the way even when it fails, in the order in which their tags
end. Offsets are counted from the end of the text until `scan` turns them around. -/

namespace DesignTokens.Jsx

open Script (Expr SymbolicDigit afterLine afterBlock? tail_afterLine tail_afterBlock)

/-- Why a walk ends early: the text is no element here, or an expression in it cannot be read. -/
inductive Halt
  | malformed
  | symbolicDigit (d : SymbolicDigit)
  deriving DecidableEq, Repr

/-- The elements found by a walk, and how it ended. -/
structure Walk (α : Type) where
  found : List Element
  outcome : Except Halt α

namespace Walk

variable {α β : Type}

def pure (a : α) : Walk α := ⟨[], .ok a⟩

def halt (h : Halt) : Walk α := ⟨[], .error h⟩

/-- One walk after another. -/
def bind (w : Walk α) (f : α → Walk β) : Walk β :=
  match w.outcome with
  | .error h => ⟨w.found, .error h⟩
  | .ok a => ⟨w.found ++ (f a).found, (f a).outcome⟩

instance : Monad Walk where
  pure := pure
  bind := bind

/-- Finds one element. -/
def emit (e : Element) : Walk Unit := ⟨[e], .ok ()⟩

/-- A walk that is given up, with all it found, where the text is malformed. -/
def attempt (w : Walk α) : Walk (Option α) :=
  match w.outcome with
  | .ok a => ⟨w.found, .ok (some a)⟩
  | .error .malformed => ⟨[], .ok none⟩
  | .error (.symbolicDigit d) => ⟨w.found, .error (.symbolicDigit d)⟩

end Walk

/-! ### Parts without elements -/

/-- Passes over a string after its opening quote; an unterminated one ends with its line. -/
def skipString (quote : Char) : (s : List Char) → { r : List Char // r <:+ s }
  | [] => ⟨[], List.suffix_refl []⟩
  | ['\\'] => ⟨[], List.nil_suffix⟩
  | '\\' :: c :: r =>
    let rest := skipString quote r
    ⟨rest.1, (rest.2.trans (List.suffix_cons c r)).trans (List.suffix_cons _ _)⟩
  | c :: r =>
    if c = quote then ⟨r, List.suffix_cons c r⟩
    else if c = '\n' then ⟨c :: r, List.suffix_refl _⟩
    else
      let rest := skipString quote r
      ⟨rest.1, rest.2.trans (List.suffix_cons c r)⟩

/-- Passes over a regular expression after its opening slash, with its flags; none if it does not
end in its line. A slash in a character class does not end it. -/
def skipRegex? (inClass : Bool) : (s : List Char) → Option { r : List Char // r <:+ s }
  | [] | ['\\'] => none
  | '\\' :: c :: r =>
    (skipRegex? inClass r).map fun rest =>
      ⟨rest.1, (rest.2.trans (List.suffix_cons c r)).trans (List.suffix_cons _ _)⟩
  | c :: r =>
    if c = '\n' then none
    else if c = '/' ∧ !inClass then
      some ⟨r.dropWhile Text.isLetter, (List.dropWhile_suffix _).trans (List.suffix_cons c r)⟩
    else
      (skipRegex? (c == '[' || (inClass && c != ']')) r).map fun rest =>
        ⟨rest.1, rest.2.trans (List.suffix_cons c r)⟩

/-- A comment starts here. -/
def atComment : List Char → Bool
  | '/' :: c :: _ => c == '/' || c == '*'
  | _ => false

/-- Passes over the comment that starts here. -/
def skipComment : (s : List Char) → Walk { r : List Char // Tail r s }
  | '/' :: '/' :: r =>
    .pure ⟨afterLine r, tail_afterLine r⟩
  | '/' :: '*' :: r =>
    match h : afterBlock? r with
    | none => .halt .malformed
    | some r' => .pure ⟨r', tail_afterBlock h⟩
  | _ => .halt .malformed

/-! ### Names -/

/-- A character that may begin a tag or an attribute name. -/
def isNameStart (c : Char) : Bool := Text.isAsciiLetter c || c == '_' || c == '$'

def isAttributeNamePart (c : Char) : Bool :=
  Text.isWordChar c || c == '$' || c == ':' || c == '-'

def isTagNamePart (c : Char) : Bool := isAttributeNamePart c || c == '.'

/-- The name at the front of the text, whose later characters satisfy `p`. -/
def name? (p : Char → Bool) (s : List Char) : Option (Read String s) :=
  match s with
  | [] => none
  | c :: r =>
    if isNameStart c then
      some ⟨String.ofList (c :: r.takeWhile p), r.dropWhile p, .cons c (List.dropWhile_suffix p)⟩
    else none

def isScriptWordPart (c : Char) : Bool := Text.isWordChar c || c == '$' || Script.isWide c

/-- Punctuation after which an operand begins, so that `<` opens an element and `/` a regular
expression. -/
def operandPunctuation : List Char := "([\x7b,;:?=!&|^~+-*%<>".toList

/-- Words after which an operand begins. -/
def operandKeywords : List String := [
  "return", "yield", "await", "typeof", "void", "delete", "throw", "case", "default", "in", "of",
  "else", "do"]

/-- A tag or a fragment may open with this `<`. -/
def opensTag : List Char → Bool
  | '<' :: c :: _ => isNameStart c || c == '>'
  | _ => false

/-! ### The walk -/

/-- The attributes of an opening tag and how it ends. -/
structure Head where
  attributes : List Attribute
  selfClosing : Bool

/-- Where a walk over script stops: at the unbalanced `closer`, or at the end if there is none. -/
structure Stop (closer : Option Char) (s : List Char) where
  rest : List Char
  suffix : rest <:+ s
  atCloser : rest.head? = closer

namespace Stop

variable {closer : Option Char} {r s : List Char}

def after (h : r <:+ s) (a : Stop closer r) : Stop closer s := ⟨a.rest, a.suffix.trans h, a.atCloser⟩

/-- What follows the closer. -/
def next (a : Stop closer s) : List Char := a.rest.tail

theorem next_suffix (a : Stop closer s) : a.next <:+ s := (List.tail_suffix _).trans a.suffix

end Stop

mutual

/-- Walks over script, in which `depth` brackets are open, to the unbalanced `closer` or to the
end. `operand` says that an operand may begin here. -/
def walkScript (closer : Option Char) (depth : Nat) (operand : Bool) (s : List Char) :
    Walk (Stop closer s) :=
  match s with
  | [] =>
    match closer with
    | none => .pure ⟨[], List.suffix_refl [], rfl⟩
    | some _ => .halt .malformed
  | c :: r => do
    have keep : r <:+ c :: r := List.suffix_cons c r
    if Text.isBlank c then
      return (← walkScript closer depth operand r).after keep
    else if atComment (c :: r) then
      let rest ← skipComment (c :: r)
      have := rest.2.length_lt
      return (← walkScript closer depth operand rest.1).after rest.2.suffix
    else if c = '"' ∨ c = '\'' then
      let rest := skipString c r
      have tail := Tail.cons c rest.2
      have := tail.length_lt
      return (← walkScript closer depth false rest.1).after tail.suffix
    else if c = '`' then
      let rest ← walkTemplate r
      have tail := Tail.cons c rest.2
      have := tail.length_lt
      return (← walkScript closer depth false rest.1).after tail.suffix
    else if isScriptWordPart c then
      let word := c :: r.takeWhile isScriptWordPart
      have tail : Tail (r.dropWhile isScriptWordPart) (c :: r) :=
        .cons c (List.dropWhile_suffix _)
      have := tail.length_lt
      let operand := operandKeywords.contains (String.ofList word)
      return (← walkScript closer depth operand (r.dropWhile isScriptWordPart)).after tail.suffix
    else
      match if c = '/' ∧ operand then skipRegex? false r else none with
      | some rest =>
        have tail := Tail.cons c rest.2
        have := tail.length_lt
        return (← walkScript closer depth false rest.1).after tail.suffix
      | none =>
      match ← (if operand ∧ opensTag (c :: r) then tryElement (c :: r) else .pure none) with
      | some rest =>
        have := rest.2.length_lt
        -- a sibling may follow
        return (← walkScript closer depth true rest.1).after rest.2.suffix
      | none =>
        let operand := operandPunctuation.contains c
        if c = '(' ∨ c = '[' ∨ c = '\x7b' then
          return (← walkScript closer (depth + 1) operand r).after keep
        else if c = ')' ∨ c = ']' ∨ c = '\x7d' then
          if h : closer = some c ∧ depth = 0 then return ⟨c :: r, List.suffix_refl _, h.1.symm⟩
          else return (← walkScript closer (depth - 1) operand r).after keep
        else
          return (← walkScript closer depth operand r).after keep
termination_by (s.length, 3)

/-- Walks over a template literal after its opening backtick. -/
def walkTemplate (s : List Char) : Walk { r : List Char // r <:+ s } :=
  match s with
  | [] | ['\\'] => .halt .malformed
  | '\\' :: c :: r => do
    let rest ← walkTemplate r
    return ⟨rest.1, (rest.2.trans (List.suffix_cons c r)).trans (List.suffix_cons _ _)⟩
  | '`' :: r => .pure ⟨r, List.suffix_cons _ r⟩
  | '$' :: '\x7b' :: r => do
    let stop ← walkScript (some '\x7d') 0 true r
    have tail := Tail.cons '$' (stop.next_suffix.trans (List.suffix_cons '\x7b' r))
    have := tail.length_lt
    let rest ← walkTemplate stop.next
    return ⟨rest.1, rest.2.trans tail.suffix⟩
  | c :: r => do
    let rest ← walkTemplate r
    return ⟨rest.1, rest.2.trans (List.suffix_cons c r)⟩
termination_by (s.length, 3)

/-- Reads the element or fragment that starts here, if there is one. -/
def tryElement (s : List Char) : Walk (Option { r : List Char // Tail r s }) :=
  (walkElement s).attempt
termination_by (s.length, 2)

/-- Reads the element or fragment that starts here, with its children. -/
def walkElement (s : List Char) : Walk { r : List Char // Tail r s } :=
  match s with
  | [] => .halt .malformed
  | '<' :: '>' :: r => do
    let rest ← walkChildren r
    return ⟨rest.1, .cons _ (rest.2.trans (List.suffix_cons _ r))⟩
  | c :: r => do
    match name? isTagNamePart r with
    | none => .halt .malformed
    | some tag =>
      if tag.rest.head?.all fun d => Text.isBlank d || d == '/' || d == '>' || d == '\x7b' then
        have atHead := tag.tail.trans (.one c r)
        have := atHead.length_lt
        let head ← walkHead tag.rest
        have tail := head.tail.trans atHead
        Walk.emit ⟨tag.value, (c :: r).length, head.value.attributes⟩
        if head.value.selfClosing then return ⟨head.rest, tail⟩
        else
          have := tail.length_lt
          let rest ← walkChildren head.rest
          return ⟨rest.1, .trans_suffix rest.2 tail⟩
      else .halt .malformed
termination_by (s.length, 1)

/-- Reads an opening tag after its name. -/
def walkHead (s : List Char) : Walk (Read Head s) :=
  match s with
  | [] => .halt .malformed
  | c :: r => do
    if Text.isBlank c then
      return (← walkHead r).after (.one c r)
    else if atComment (c :: r) then
      let rest ← skipComment (c :: r)
      have := rest.2.length_lt
      return (← walkHead rest.1).after rest.2
    else if c = '>' then
      return ⟨⟨[], false⟩, r, .one c r⟩
    else if c = '/' ∧ r.head? = some '>' then
      return ⟨⟨[], true⟩, r.tail, .cons c (List.tail_suffix r)⟩
    else if c = '\x7b' then
      let stop ← walkScript (some '\x7d') 0 true r
      if ['.', '.', '.'].isPrefixOf (Text.trim (before r stop.rest)) then
        have tail := Tail.cons c stop.next_suffix
        have := tail.length_lt
        return (← walkHead stop.next).after tail
      else .halt .malformed
    else
      match name? isAttributeNamePart (c :: r) with
      | none => .halt .malformed
      | some name =>
        let found (value : Option Expr) (h : Head) : Head :=
          { h with attributes := ⟨name.value, (c :: r).length, value⟩ :: h.attributes }
        have afterName : Tail (Text.trimLeft name.rest) (c :: r) :=
          .trans_suffix (List.dropWhile_suffix _) name.tail
        match h : Text.trimLeft name.rest with
        | '=' :: v =>
          have afterSign : Tail v (c :: r) := .trans (.one '=' v) (h ▸ afterName)
          have atValue : Tail (Text.trimLeft v) (c :: r) :=
            .trans_suffix (List.dropWhile_suffix _) afterSign
          match h' : Text.trimLeft v with
          | '\x7b' :: w =>
            have inBraces : Tail w (c :: r) := .trans (.one _ w) (h' ▸ atValue)
            have := inBraces.length_lt
            let stop ← walkScript (some '\x7d') 0 true w
            match Script.parseLeniently (before w stop.rest) with
            | .error d => .halt (.symbolicDigit d)
            | .ok e =>
              have tail := Tail.trans_suffix stop.next_suffix inBraces
              have := tail.length_lt
              return ((← walkHead stop.next).map (found (some e))).after tail
          | q :: w =>
            if q = '"' ∨ q = '\'' then
              let value := w.takeWhile (· != q)
              match h'' : w.dropWhile (· != q) with
              | [] => .halt .malformed
              | _ :: rest =>
                have tail : Tail rest (c :: r) :=
                  .trans (.trans_suffix ((List.suffix_cons _ rest).trans
                    (h'' ▸ List.dropWhile_suffix _)) (.one q w)) (h' ▸ atValue)
                have := tail.length_lt
                let value := some (.string (String.ofList value))
                return ((← walkHead rest).map (found value)).after tail
            else .halt .malformed
          | [] => .halt .malformed
        | rest =>
          have tail : Tail rest (c :: r) := h ▸ afterName
          have := tail.length_lt
          return ((← walkHead rest).map (found none)).after tail
termination_by (s.length, 0)

/-- Walks over the children of an element, up to and with its closing tag. -/
def walkChildren (s : List Char) : Walk { r : List Char // r <:+ s } :=
  match s with
  | [] => .pure ⟨[], List.suffix_refl []⟩
  | '\x7b' :: r => do
    let stop ← walkScript (some '\x7d') 0 true r
    have tail := Tail.cons '\x7b' stop.next_suffix
    have := tail.length_lt
    let rest ← walkChildren stop.next
    return ⟨rest.1, rest.2.trans tail.suffix⟩
  | '<' :: '/' :: r => do
    let rest := (r.dropWhile (· != '>')).drop 1
    return ⟨rest, ((List.drop_suffix 1 _).trans (List.dropWhile_suffix _)).trans
      ((List.suffix_cons _ r).trans (List.suffix_cons _ _))⟩
  | c :: r => do
    have keep : r <:+ c :: r := List.suffix_cons c r
    match ← (if opensTag (c :: r) then tryElement (c :: r) else .pure none) with
    | some child =>
      have := child.2.length_lt
      let rest ← walkChildren child.1
      return ⟨rest.1, rest.2.trans child.2.suffix⟩
    | none =>
      let rest ← walkChildren r
      return ⟨rest.1, rest.2.trans keep⟩
termination_by (s.length, 3)

end

/-- The elements of a text, in the order of their tags. A walk that ends early keeps what it has
found outside of unfinished elements. -/
def scan (source : List Char) : Except SymbolicDigit (List Element) :=
  let walk := walkScript none 0 true source
  let found := (walk.found.map (·.mapOffset (source.length - ·))).mergeSort
    fun a b => a.offset ≤ b.offset
  match walk.outcome with
  | .error (.symbolicDigit d) => .error d
  | _ => .ok found

end DesignTokens.Jsx
