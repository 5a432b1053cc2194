import DesignTokens.Decimal.Read
import DesignTokens.Text.Reading
import DesignTokens.Yaml.Cursor
import DesignTokens.Yaml.Fault

/-! # Scalars of a YAML document

A scalar is quoted, plain, or a block of lines. In quoted and plain scalars one line break becomes
a space, and of several the first is dropped; a block keeps its breaks or folds them. -/

namespace DesignTokens.Yaml

/-- The text that a line break with the breaks after it stands for. -/
def foldBreaks (first : Char) (others : List Char) : List Char :=
  if lineEnd first ≠ '\n' then first :: others
  else if others.isEmpty then [' '] else others

/-! ### Quoted scalars -/

/-- The breaks after a first one, with gaps between them, and what follows. -/
def readBreaks (s : List Char) : Except LocalFault (List Char × List Char) := do
  if startsAnySeparator s then throw ⟨.separatorInQuotes, s.length⟩
  match h : s.dropWhile isGap with
  | [] => return ([], [])
  | c :: r =>
    if isBreak c then
      have tail : Tail r s := .of_dropWhile h
      have := tail.length_lt
      let (bs, rest) ← readBreaks r
      return (lineEnd c :: bs, rest)
    else return ([], c :: r)
termination_by s.length
decreasing_by assumption

/-- The text that a gap or breaks inside quotes stand for, and what follows. -/
def readQuotedGap (s : List Char) : Except LocalFault (List Char × List Char) :=
  match s.dropWhile isGap with
  | [] => .error ⟨.endInQuotes, 0⟩
  | c :: r =>
    if isBreak c then do
      let (bs, rest) ← readBreaks r
      return (foldBreaks c bs, rest)
    else .ok (s.takeWhile isGap, c :: r)

/-- The character that a single letter after a backslash stands for. -/
def escaped? : Char → Option Char
  | '0' => some '\x00'
  | 'a' => some '\x07'
  | 'b' => some '\x08'
  | 't' | '\t' => some '\t'
  | 'n' => some '\n'
  | 'v' => some '\x0b'
  | 'f' => some '\x0c'
  | 'r' => some '\r'
  | 'e' => some '\x1b'
  | ' ' => some ' '
  | '"' => some '"'
  | '\\' => some '\\'
  | '/' => some '/'
  | 'N' => some '\x85'
  | '_' => some '\xa0'
  | 'L' => some '\u2028'
  | 'P' => some '\u2029'
  | _ => none

/-- How many digits of a code follow a letter after a backslash. -/
def codeWidth? : Char → Option Nat
  | 'x' => some 2
  | 'u' => some 4
  | 'U' => some 8
  | _ => none

/-- The character with the code that hexadecimal digits give. A code that is reserved for pairs
gives the replacement character. -/
def readCode (width : Nat) (s : List Char) : Except LocalFault (List Char × List Char) :=
  let ds := s.take width
  if ds.length = width ∧ ds.all Text.isHexDigit then
    let n := Decimal.ofDigits 16 ds
    if 0x7FFFFFFF < n then .error ⟨.scalar .codeOutOfWord, s.length⟩
    else if 0x10FFFF < n then .error ⟨.scalar .codeOutOfRange, s.length⟩
    else .ok ([if 0xD800 ≤ n ∧ n < 0xE000 then '\ufffd' else Char.ofNat n], s.drop width)
  else
    .error ⟨.expected (.escapeDigits width) (s.dropWhile Text.isHexDigit).head?, s.length⟩

/-- Reads an escape after its backslash; a backslash before a line break joins two lines. -/
def readEscape : List Char → Except LocalFault (List Char × List Char)
  | [] => .error ⟨.unknownEscape none, 0⟩
  | c :: r =>
    match escaped? c, codeWidth? c with
    | some e, _ => .ok ([e], r)
    | none, some width => readCode width r
    | none, none => if isBreak c then readBreaks r else .error ⟨.unknownEscape c, r.length + 1⟩

/-- Reads a quoted scalar after its opening quote. Only double quotes know escapes; a single quote
is written twice. -/
def readQuoted (quote : Char) (s : List Char) : Except LocalFault (List Char × List Char) :=
  match s with
  | [] => .error ⟨.endInQuotes, 0⟩
  | c :: r =>
    let piece : Except LocalFault (Option (List Char) × List Char) :=
      if c = quote then
        if quote = '\'' ∧ r.head? = some quote then .ok (some [quote], r.drop 1) else .ok (none, r)
      else if quote = '"' ∧ c = '\\' then (readEscape r).map fun p => (some p.1, p.2)
      else if isGap c || isBreak c then (readQuotedGap s).map fun p => (some p.1, p.2)
      else .ok (some [c], r)
    match piece with
    | .error f => .error f
    | .ok (none, rest) => .ok ([], rest)
    | .ok (some text, rest) => do
      let (v, rest) ← readQuoted quote (r.drop (r.length - rest.length))
      return (text ++ v, rest)
termination_by s.length

/-! ### Plain scalars -/

def isFlowIndicator (c : Char) : Bool :=
  c == ',' || c == '[' || c == ']' || c == '\x7b' || c == '\x7d'

/-- The longest front of a text without a character that ends a plain scalar, or a part of one. -/
def plainChunk (inFlow : Bool) : List Char → List Char
  | [] => []
  | c :: r =>
    let endsKey := endsWord r.head? || (inFlow && r.head?.any isFlowIndicator)
    if endsWord (some c) || (c == ':' && endsKey) || (inFlow && (isFlowIndicator c || c == '?'))
    then []
    else c :: plainChunk inFlow r

/-- The breaks after a first one; none if a document separator follows. -/
def plainBreaks : List Char → Option (List Char) × List Char
  | [] => (some [], [])
  | c :: r =>
    if c = ' ' then plainBreaks r
    else if isBreak c then
      if startsAnySeparator r then (none, r)
      else
        let (bs, rest) := plainBreaks r
        (bs.map (lineEnd c :: ·), rest)
    else (some [], c :: r)

/-- A gap inside a plain scalar. -/
structure PlainGap where
  /-- What it stands for if the scalar goes on; nothing if it cannot. -/
  text : List Char
  rest : List Char
  hasBreak : Bool

def plainGap (s : List Char) : PlainGap :=
  let spaces := s.takeWhile (· == ' ')
  match s.dropWhile (· == ' ') with
  | [] => ⟨spaces, [], false⟩
  | c :: r =>
    if !isBreak c then ⟨spaces, c :: r, false⟩
    else if startsAnySeparator r then ⟨[], r, true⟩
    else
      let (bs, rest) := plainBreaks r
      ⟨(bs.map (foldBreaks c)).getD [], rest, true⟩

/-- A plain scalar that was read. -/
structure Plain where
  text : List Char
  cursor : Cursor
  /-- The scalar ended after a line break. -/
  hasBreak : Bool

/-- Reads a plain scalar from its next part on. Outside of flow collections, later lines are
indented by `indent` columns at least. -/
def readPlain (inFlow : Bool) (indent : Int) (hasBreak : Bool) (c : Cursor) : Plain :=
  let chunk := plainChunk inFlow c.rest
  if h : chunk = [] ∨ c.rest.head? = some '#' then ⟨[], c, hasBreak⟩
  else
    let gap := plainGap (c.rest.drop chunk.length)
    let after := c.skip (chunk.length + (c.rest.length - chunk.length - gap.rest.length))
    if gap.text.isEmpty || gap.rest.head? == some '#' ||
        (!inFlow && (after.column : Int) < indent) then
      ⟨chunk, after, gap.hasBreak⟩
    else
      have : after.rest.length < c.rest.length := by
        have pos : 0 < chunk.length := List.length_pos_iff.2 fun h' => h (.inl h')
        have : c.rest ≠ [] := by
          intro h'; simp [chunk, h', plainChunk] at pos
        have := List.length_pos_iff.2 this
        simp only [after, Cursor.skip_rest, List.length_drop]
        omega
      let next := readPlain inFlow indent gap.hasBreak after
      if next.text.isEmpty then ⟨chunk, next.cursor, next.hasBreak⟩
      else { next with text := chunk ++ gap.text ++ next.text }
termination_by c.rest.length
decreasing_by assumption

/-! ### Blocks -/

/-- What becomes of the breaks at the end of a block: none is left, one, or all. -/
inductive Chomping
  | strip
  | clip
  | keep
  deriving DecidableEq, Repr

def chomping? : Option Char → Option Chomping
  | some '+' => some .keep
  | some '-' => some .strip
  | _ => none

/-- The indentation that a digit at the front gives. -/
def readIncrement (s : List Char) : Except LocalFault (Option Nat × List Char) :=
  match s with
  | c :: r =>
    if c = '0' then .error ⟨.zeroIndentation, s.length⟩
    else if Text.isAsciiDigit c then .ok (some (Text.hexValue c), r)
    else .ok (none, s)
  | [] => .ok (none, [])

/-- The indicators after the one that begins a block, in either order. -/
def readIndicators (s : List Char) : Except LocalFault (Chomping × Option Nat × List Char) := do
  let (chomping, increment, rest) ←
    match chomping? s.head? with
    | some chomping => do
      let (increment, rest) ← readIncrement (s.drop 1)
      pure (chomping, increment, rest)
    | none => do
      let (increment, rest) ← readIncrement s
      match increment, chomping? rest.head? with
      | some n, some chomping => pure (chomping, some n, rest.drop 1)
      | increment, _ => pure (.clip, increment, rest)
  if endsField rest.head? then return (chomping, increment, rest)
  else throw ⟨.expected .blockIndicators rest.head?, rest.length⟩

/-- What follows a line on which only a comment may stand. -/
def skipLine (s : List Char) : Except LocalFault (List Char) :=
  let s := s.dropWhile (· == ' ')
  let s := if s.head? = some '#' then s.dropWhile (!isBreak ·) else s
  if endsLine s.head? then .ok (s.drop 1) else .error ⟨.expected .lineEnd s.head?, s.length⟩

/-- The breaks of lines with at most `indent` spaces, and the column at which the text goes on. -/
def blockBreaks (indent : Nat) (s : List Char) : List Char × Nat × List Char :=
  let spaces := min indent (s.takeWhile (· == ' ')).length
  match h : s.drop spaces with
  | [] => ([], spaces, [])
  | c :: r =>
    if isBreak c then
      have : r.length < s.length := by
        have := congrArg List.length h
        simp only [List.length_drop, List.length_cons] at this; omega
      let (bs, column, rest) := blockBreaks indent r
      (lineEnd c :: bs, column, rest)
    else ([], spaces, c :: r)
termination_by s.length

/-- The breaks of lines with spaces only, the largest number of spaces on a line, and the column at
which the text goes on. -/
def blockIndentation (deepest : Nat) (s : List Char) : List Char × Nat × Nat × List Char :=
  let spaces := (s.takeWhile (· == ' ')).length
  let deepest := max deepest spaces
  match h : s.drop spaces with
  | [] => ([], deepest, spaces, [])
  | c :: r =>
    if isBreak c then
      have : r.length < s.length := by
        have := congrArg List.length h
        simp only [List.length_drop, List.length_cons] at this; omega
      let (bs, deepest, column, rest) := blockIndentation deepest r
      (lineEnd c :: bs, deepest, column, rest)
    else ([], deepest, spaces, c :: r)
termination_by s.length

/-- The lines of a block: their text, the break after the last one, the breaks after that, and
what follows the block. -/
structure BlockLines where
  text : List Char
  lastBreak : List Char
  breaks : List Char
  rest : List Char

/-- The text between a line and the next one of a folded block; lines that begin with a gap keep
the break before and after them. -/
def foldedJoint (line next lastBreak breaks : List Char) : List Char :=
  if lastBreak = ['\n'] ∧ !line.head?.any isGap ∧ !next.head?.any isGap then
    (if breaks.isEmpty then [' '] else [])
  else lastBreak

/-- Reads the lines of a block from one on that begins at the indentation. -/
def blockLines (folded : Bool) (indent : Nat) (s : List Char) : BlockLines :=
  match s with
  | [] => ⟨[], [], [], []⟩
  | c :: r =>
    let line := c :: r.takeWhile (!isBreak ·)
    let after := r.dropWhile (!isBreak ·)
    let lastBreak := (after.take 1).map lineEnd
    let (breaks, column, rest) := blockBreaks indent (after.drop 1)
    have := (Tail.drop_succ (r.length - rest.length) c r).length_lt
    let rest := r.drop (r.length - rest.length)
    if column = indent ∧ !rest.isEmpty then
      let joint := if folded then foldedJoint line rest lastBreak breaks else lastBreak
      let next := blockLines folded indent rest
      { next with text := line ++ joint ++ breaks ++ next.text }
    else ⟨line, lastBreak, breaks, rest⟩
termination_by s.length
decreasing_by assumption

/-- Reads a block scalar after its first indicator, in a collection that is indented by `indent`
columns. Without an indication the first line that is not empty gives the indentation. -/
def readBlock (folded : Bool) (indent : Int) (s : List Char) :
    Except LocalFault (List Char × List Char) := do
  let (chomping, increment, rest) ← readIndicators s
  let s ← skipLine rest
  let least := max 1 (indent + 1).toNat
  let (breaks, column, indent, s) := match increment with
    | some n =>
      let indent := least + n - 1
      let (breaks, column, rest) := blockBreaks indent s
      (breaks, column, indent, rest)
    | none =>
      let (breaks, deepest, column, rest) := blockIndentation 0 s
      (breaks, column, max least deepest, rest)
  let lines : BlockLines :=
    if column = indent ∧ !s.isEmpty then
      let lines := blockLines folded indent s
      { lines with text := breaks ++ lines.text }
    else ⟨[], [], breaks, s⟩
  return match chomping with
    | .strip => (lines.text, lines.rest)
    | .clip => (lines.text ++ lines.lastBreak, lines.rest)
    | .keep => (lines.text ++ lines.lastBreak ++ lines.breaks, lines.rest)

end DesignTokens.Yaml
