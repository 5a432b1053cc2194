import DesignTokens.Yaml.Property

/-! # YAML texts as tokens

A text is a sequence of tokens up to its end, or up to the first fault. Indentation is turned into
tokens that open and close blocks. A token may turn out to begin a key when a colon is reached
later on its line; then a token for the key, and perhaps one for a mapping, is put before it. As
long as this is open no later token is certain, so a fault comes before all tokens from there. -/

namespace DesignTokens.Yaml

inductive Lexeme
  | directive (d : Directive)
  | documentStart
  | documentEnd
  | streamEnd
  | blockSequenceStart
  | blockMappingStart
  | blockEnd
  | flowSequenceStart
  | flowSequenceEnd
  | flowMappingStart
  | flowMappingEnd
  | flowEntry
  | blockEntry
  | key
  | value
  | reference (name : String)
  | anchor (name : String)
  | tag (t : WrittenTag)
  | scalar (text : String) (isPlain : Bool)
  /-- Nothing can be read from here on. -/
  | fault (cause : Cause)
  deriving DecidableEq, Repr

namespace Lexeme

/-- The kind of a token as it is shown in messages. -/
def kind : Lexeme → String
  | directive _ => "<directive>"
  | documentStart => "<document start>"
  | documentEnd => "<document end>"
  | streamEnd => "<stream end>"
  | blockSequenceStart => "<block sequence start>"
  | blockMappingStart => "<block mapping start>"
  | blockEnd => "<block end>"
  | flowSequenceStart => "["
  | flowSequenceEnd => "]"
  | flowMappingStart => "\x7b"
  | flowMappingEnd => "\x7d"
  | flowEntry => ","
  | blockEntry => "-"
  | key => "?"
  | value => ":"
  | reference _ => "<alias>"
  | anchor _ => "<anchor>"
  | tag _ => "<tag>"
  | scalar _ _ => "<scalar>"
  | fault _ => "<fault>"

end Lexeme

structure Token where
  lexeme : Lexeme
  location : Location
  deriving DecidableEq, Repr

/-- The place where a token that may begin a key stands. -/
structure KeyPlace where
  /-- How many tokens come before it. -/
  index : Nat
  /-- It must begin a key. -/
  required : Bool
  cursor : Cursor

/-- What was read of a text, and what decides how reading goes on. -/
structure Scan where
  tokens : List Token
  /-- The columns of the blocks that are open, from the innermost one. -/
  blocks : List Nat
  /-- A key may begin at the next token. -/
  keyAllowed : Bool
  /-- Where a key may have begun, in the flow collections that are open from the innermost one,
  and outside of them. -/
  places : List (Option KeyPlace)

namespace Scan

def start : Scan := ⟨[], [], true, [none]⟩

def inFlow (s : Scan) : Bool := 1 < s.places.length

/-- The column of the innermost block, or the one before the first column. -/
def indent (s : Scan) : Int := (s.blocks.head?.map Int.ofNat).getD (-1)

def place? (s : Scan) : Option KeyPlace := s.places.head?.join

def setPlace (s : Scan) (p : Option KeyPlace) : Scan := { s with places := p :: s.places.drop 1 }

def add (s : Scan) (l : Lexeme) (c : Cursor) : Scan :=
  { s with tokens := s.tokens ++ [⟨l, c.location⟩] }

def insert (s : Scan) (index : Nat) (l : Lexeme) (c : Cursor) : Scan :=
  { s with tokens := s.tokens.insertIdx index ⟨l, c.location⟩ }

def faultAt {α : Type} (cause : Cause) (c : Cursor) : Except Token α :=
  .error ⟨.fault cause, c.location⟩

/-- How many tokens are certain: those before the first that may begin a key. -/
def certain (s : Scan) : Nat :=
  s.places.foldl (fun n p => (p.map fun p => min n p.index).getD n) s.tokens.length

/-! ### Keys -/

/-- No key begins at the last place of the innermost collection. -/
def dropPlace (s : Scan) (c : Cursor) : Except Token Scan :=
  match s.place? with
  | none => .ok s
  | some p => if p.required then faultAt .colonExpected c else .ok (s.setPlace none)

/-- A key may begin at the next token. The first token on a line of a block mapping must be one. -/
def savePlace (s : Scan) (c : Cursor) : Except Token Scan := do
  if !s.keyAllowed then return s
  let required := !s.inFlow && s.indent == c.column
  let s ← s.dropPlace c
  return s.setPlace (some ⟨s.tokens.length, required, c⟩)

/-- The most characters of a key. -/
def keyLimit : Nat := 1024

/-- A key must end on its line, and within so many characters. -/
def isStale (p : KeyPlace) (c : Cursor) : Bool :=
  p.cursor.line != c.line || keyLimit < p.cursor.rest.length - c.rest.length

/-- Forgets the places at which no key can begin any more. -/
def dropStale (s : Scan) (c : Cursor) : Except Token Scan := do
  let stale (p : Option KeyPlace) : Bool := p.any (isStale · c)
  if s.places.any fun p => stale p && p.any (·.required) then faultAt .colonExpected c
  else return { s with places := s.places.map fun p => if stale p then none else p }

/-! ### Blocks -/

/-- Closes the blocks that are indented beyond a column; none outside of all columns. -/
def closeBlocks (s : Scan) (column : Option Nat) (c : Cursor) : Scan :=
  if s.inFlow then s
  else
    let open_ (b : Nat) : Bool := column.all (· < b)
    let closed := (s.blocks.takeWhile open_).map fun _ => (⟨.blockEnd, c.location⟩ : Token)
    { s with tokens := s.tokens ++ closed, blocks := s.blocks.dropWhile open_ }

/-- Opens a block at a column, unless the innermost one reaches it. -/
def openBlock (s : Scan) (l : Lexeme) (index : Nat) (c : Cursor) : Scan :=
  if s.indent < c.column then
    { s.insert index l c with blocks := c.column :: s.blocks }
  else s

/-! ### Reading tokens -/

/-- What a token leaves behind: the scan with it, and how many characters it takes. -/
abbrev Step := Except Token (Scan × Nat)

/-- Adds a token of so many characters. -/
def take (s : Scan) (l : Lexeme) (c : Cursor) (size : Nat) : Step := .ok (s.add l c, size)

/-- Adds a token that is read from the text after the first character. -/
def takeRead {α : Type} (s : Scan) (c : Cursor) (r : List Char) (lexeme : α → Lexeme)
    (read : Except LocalFault (α × List Char)) : Step :=
  match read with
  | .ok (v, rest) => .ok (s.add (lexeme v) c, 1 + (r.length - rest.length))
  | .error f => faultAt f.cause (c.seek f.left)

def takeFlowStart (s : Scan) (l : Lexeme) (c : Cursor) : Step := do
  let s ← s.savePlace c
  { s with keyAllowed := true, places := none :: s.places }.take l c 1

def takeFlowEnd (s : Scan) (l : Lexeme) (c : Cursor) : Step := do
  let s ← s.dropPlace c
  let outer := if s.inFlow then s.places.drop 1 else s.places
  { s with keyAllowed := false, places := outer }.take l c 1

def takeFlowEntry (s : Scan) (c : Cursor) : Step := do
  let s ← { s with keyAllowed := true }.dropPlace c
  s.take .flowEntry c 1

def takeBlockEntry (s : Scan) (c : Cursor) : Step := do
  let s ← if s.inFlow then pure s
    else if !s.keyAllowed then faultAt .entryNotAllowed c
    else pure (s.openBlock .blockSequenceStart s.tokens.length c)
  let s ← { s with keyAllowed := true }.dropPlace c
  s.take .blockEntry c 1

def takeKey (s : Scan) (c : Cursor) : Step := do
  let s ← if s.inFlow then pure s
    else if !s.keyAllowed then faultAt .keyNotAllowed c
    else pure (s.openBlock .blockMappingStart s.tokens.length c)
  let s ← { s with keyAllowed := !s.inFlow }.dropPlace c
  s.take .key c 1

/-- A colon: the key before it began at the last place, or was marked as one. -/
def takeValue (s : Scan) (c : Cursor) : Step := do
  match s.place? with
  | some p =>
    let s := (s.setPlace none).insert p.index .key p.cursor
    let s := if s.inFlow then s else s.openBlock .blockMappingStart p.index p.cursor
    { s with keyAllowed := false }.take .value c 1
  | none =>
    let s ← if s.inFlow then pure s
      else if !s.keyAllowed then faultAt .valueNotAllowed c
      else pure (s.openBlock .blockMappingStart s.tokens.length c)
    { s with keyAllowed := !s.inFlow }.take .value c 1

/-- A token that begins a node and holds no others. -/
def takeLeaf {α : Type} (s : Scan) (c : Cursor) (r : List Char) (lexeme : α → Lexeme)
    (read : Except LocalFault (α × List Char)) : Step := do
  let s ← s.savePlace c
  { s with keyAllowed := false }.takeRead c r lexeme read

def takeBlock (s : Scan) (c : Cursor) (r : List Char) (folded : Bool) : Step := do
  let s ← { s with keyAllowed := true }.dropPlace c
  s.takeRead c r (fun v => .scalar (String.ofList v) false) (readBlock folded s.indent r)

def takePlain (s : Scan) (c : Cursor) : Step := do
  let s ← s.savePlace c
  let p := readPlain s.inFlow (s.indent + 1) false c
  { s with keyAllowed := p.hasBreak }.take (.scalar (String.ofList p.text) true) c
    (c.rest.length - p.cursor.rest.length)

/-- A token that stands outside of all blocks. -/
def closeAll (s : Scan) (c : Cursor) : Except Token Scan := do
  let s ← (s.closeBlocks none c).dropPlace c
  return { s with keyAllowed := false }

/-- A character that begins no plain scalar, unless what follows makes it a part of one. -/
def isIndicator (x : Char) : Bool :=
  ['-', '?', ':', ',', '[', ']', '\x7b', '\x7d', '#', '&', '*', '!', '|', '>', '\'', '"', '%',
    '@', '`'].contains x

def startsPlain (s : Scan) (x : Char) (r : List Char) : Bool :=
  !(endsWord (some x) || isIndicator x) ||
    (!endsWord r.head? && (x == '-' || (!s.inFlow && (x == '?' || x == ':'))))

/-- Reads the token that begins with the character `x`, at the cursor `c`. -/
def step (s : Scan) (c : Cursor) (x : Char) (r : List Char) : Step :=
  let atStart := c.column = 0
  let word := endsWord r.head?
  if x = '%' ∧ atStart then do (← s.closeAll c).takeRead c r .directive (readDirective r)
  else if atStart ∧ startsSeparator c.rest '-' then do (← s.closeAll c).take .documentStart c 3
  else if atStart ∧ startsSeparator c.rest '.' then do (← s.closeAll c).take .documentEnd c 3
  else if x = '[' then s.takeFlowStart .flowSequenceStart c
  else if x = '\x7b' then s.takeFlowStart .flowMappingStart c
  else if x = ']' then s.takeFlowEnd .flowSequenceEnd c
  else if x = '\x7d' then s.takeFlowEnd .flowMappingEnd c
  else if x = ',' then s.takeFlowEntry c
  else if x = '-' ∧ word then s.takeBlockEntry c
  else if x = '?' ∧ (s.inFlow || word) then s.takeKey c
  else if x = ':' ∧ (s.inFlow || word) then s.takeValue c
  else if x = '*' then s.takeLeaf c r .reference (readAnchorName r)
  else if x = '&' then s.takeLeaf c r .anchor (readAnchorName r)
  else if x = '!' then s.takeLeaf c r .tag (readTag r)
  else if x = '|' ∧ !s.inFlow then s.takeBlock c r false
  else if x = '>' ∧ !s.inFlow then s.takeBlock c r true
  else if x = '\'' ∨ x = '"' then
    s.takeLeaf c r (fun v => .scalar (String.ofList v) false) (readQuoted x r)
  else if s.startsPlain x r then s.takePlain c
  else faultAt (.noTokenStart x) c

/-! ### Reading texts -/

/-- How many characters of spaces, comments and line breaks stand at the front. -/
def gapSize (inComment : Bool) : List Char → Nat
  | [] => 0
  | x :: r =>
    if isBreak x then gapSize false r + 1
    else if inComment || x == '#' then gapSize true r + 1
    else if x == ' ' then gapSize false r + 1
    else 0

def run (s : Scan) (c : Cursor) : List Token :=
  let certain := s.tokens.take s.certain
  let gap := gapSize false c.rest
  let start := c.skip gap
  let keyAllowed := s.keyAllowed || (!s.inFlow && (c.rest.take gap).any isBreak)
  match { s with keyAllowed := keyAllowed }.dropStale start with
  | .error f => certain ++ [f]
  | .ok s =>
    let s := s.closeBlocks (some start.column) start
    match h : start.rest with
    | [] =>
      match (s.closeBlocks none start).dropPlace start with
      | .error f => certain ++ [f]
      | .ok s => (s.add .streamEnd start).tokens
    | x :: r =>
      match s.step start x r with
      | .error f => certain ++ [f]
      | .ok (s, size) =>
        let after := start.next.skip (size - 1)
        match s.dropStale after with
        | .error f => certain ++ [f]
        | .ok s =>
          have : after.rest.length < c.rest.length := by
            have : start.rest.length ≤ c.rest.length := by simp [start]
            have : start.rest.length = r.length + 1 := by simp [h]
            simp only [after, Cursor.skip_rest, Cursor.next_rest, List.length_drop]
            omega
          run s after
termination_by c.rest.length
decreasing_by assumption

end Scan

/-- The tokens of a text; a byte order mark at its front does not count. -/
def tokens (s : List Char) : List Token :=
  let start := Cursor.start s
  Scan.start.run (if s.head? = some '\ufeff' then start.next else start)

end DesignTokens.Yaml
