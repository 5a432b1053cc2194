import DesignTokens.Yaml.Scalar

/-! # Names, tags and directives of a YAML document -/

namespace DesignTokens.Yaml

def readAnchorName (s : List Char) : Except LocalFault (String × List Char) :=
  let name := s.takeWhile isNameChar
  let rest := s.dropWhile isNameChar
  let ends := endsWord rest.head? ||
    rest.head?.any (['?', ':', ',', ']', '\x7d', '%', '@', '`'].contains ·)
  if !name.isEmpty && ends then .ok (String.ofList name, rest)
  else .error ⟨.expected .anchorName rest.head?, rest.length⟩

/-! ### Tags -/

/-- A character of a uri other than a percent sign. -/
def isUriChar (c : Char) : Bool :=
  isNameChar c ||
    [';', '/', '?', ':', '@', '&', '=', '+', '$', ',', '.', '!', '~', '*', '\'', '(', ')', '[',
      ']'].contains c

/-- Reads escaped bytes, each a percent sign with two hexadecimal digits. -/
def readUriBytes : List Char → Except LocalFault (List UInt8 × List Char)
  | '%' :: a :: b :: r => do
    if !Text.isHexDigit a then throw ⟨.expected .uriEscape a, r.length + 2⟩
    if !Text.isHexDigit b then throw ⟨.expected .uriEscape b, r.length + 2⟩
    let (bytes, rest) ← readUriBytes r
    return (UInt8.ofNat (Decimal.ofDigits 16 [a, b]) :: bytes, rest)
  | ['%', a] => .error ⟨.expected .uriEscape (if Text.isHexDigit a then none else a), 1⟩
  | ['%'] => .error ⟨.expected .uriEscape none, 0⟩
  | s => .ok ([], s)

/-- Reads a uri, with escaped bytes that must be text. -/
def readUriText (s : List Char) : Except LocalFault (List Char × List Char) :=
  match s with
  | [] => .ok ([], [])
  | c :: r =>
    if c = '%' then do
      let (bytes, rest) ← readUriBytes s
      let text ← (Text.decodeUtf8 bytes).mapError fun f => ⟨.uriNotUtf8 f, s.length⟩
      let (v, rest) ← readUriText (r.drop (r.length - rest.length))
      return (text ++ v, rest)
    else if isUriChar c then do
      let (v, rest) ← readUriText r
      return (c :: v, rest)
    else .ok ([], s)
termination_by s.length

/-- Reads a uri that is not empty. -/
def readUri (s : List Char) : Except LocalFault (String × List Char) := do
  let (v, rest) ← readUriText s
  if rest.length < s.length then return (String.ofList v, rest)
  else throw ⟨.expected .uri s.head?, s.length⟩

/-- Reads a handle: an exclamation mark, two of them, or a name between two. -/
def readHandle (s : List Char) : Except LocalFault (String × List Char) :=
  match s with
  | '!' :: r =>
    if r.head? = some ' ' then .ok ("!", r)
    else
      let name := r.takeWhile isNameChar
      match r.dropWhile isNameChar with
      | '!' :: rest => .ok (String.ofList ('!' :: name ++ ['!']), rest)
      | rest => .error ⟨.expected .exclamationMark rest.head?, rest.length⟩
  | s => .error ⟨.expected .exclamationMark s.head?, s.length⟩

/-- A tag as it is written: a handle, if it has one, and what follows. -/
structure WrittenTag where
  handle : Option String
  suffix : String
  deriving DecidableEq, Repr

/-- The form of a tag after its exclamation mark: a uri between angle brackets, nothing, or a
handle and a suffix. -/
def readTagForm (r : List Char) : Except LocalFault (WrittenTag × List Char) := do
  match r with
  | '<' :: r =>
    let (uri, rest) ← readUri r
    if rest.head? = some '>' then return (⟨none, uri⟩, rest.drop 1)
    else throw ⟨.expected .uriEnd rest.head?, rest.length⟩
  | r =>
    if endsWord r.head? then return (⟨none, "!"⟩, r)
    else
      let word := r.takeWhile fun c => !endsField (some c)
      let (handle, rest) ← if word.contains '!' then readHandle ('!' :: r) else pure ("!", r)
      let (suffix, rest) ← readUri rest
      return (⟨some handle, suffix⟩, rest)

/-- Reads a tag after its exclamation mark. -/
def readTag (r : List Char) : Except LocalFault (WrittenTag × List Char) := do
  let (tag, rest) ← readTagForm r
  if endsField rest.head? then return (tag, rest)
  else throw ⟨.expected .blank rest.head?, rest.length⟩

/-! ### Directives -/

inductive Directive
  | version (major : Nat)
  | handle (handle uri : String)
  | other
  deriving DecidableEq, Repr

def skipSpaces (s : List Char) : List Char := s.dropWhile (· == ' ')

def readVersionNumber (s : List Char) : Except LocalFault (Nat × List Char) :=
  let ds := s.takeWhile Text.isAsciiDigit
  if ds.isEmpty then .error ⟨.expected .versionDigit s.head?, s.length⟩
  else .ok (Decimal.ofDigits 10 ds, s.drop ds.length)

def readVersion (s : List Char) : Except LocalFault (Directive × List Char) := do
  let (major, rest) ← readVersionNumber (skipSpaces s)
  if rest.head? ≠ some '.' then throw ⟨.expected .versionPoint rest.head?, rest.length⟩
  let (_, rest) ← readVersionNumber (rest.drop 1)
  if endsField rest.head? then return (.version major, rest)
  else throw ⟨.expected .versionEnd rest.head?, rest.length⟩

def readHandleDirective (s : List Char) : Except LocalFault (Directive × List Char) := do
  let (handle, rest) ← readHandle (skipSpaces s)
  if rest.head? ≠ some ' ' then throw ⟨.expected .blank rest.head?, rest.length⟩
  let (uri, rest) ← readUri (skipSpaces rest)
  if endsField rest.head? then return (.handle handle uri, rest)
  else throw ⟨.expected .blank rest.head?, rest.length⟩

/-- Reads a directive after its percent sign, with the end of its line. -/
def readDirective (s : List Char) : Except LocalFault (Directive × List Char) := do
  let name := s.takeWhile isNameChar
  let rest := s.dropWhile isNameChar
  if name.isEmpty || !endsField rest.head? then
    throw ⟨.expected .directiveName rest.head?, rest.length⟩
  let (directive, rest) ←
    if name = "YAML".toList then readVersion rest
    else if name = "TAG".toList then readHandleDirective rest
    else pure (.other, rest.dropWhile (!isBreak ·))
  return (directive, ← skipLine rest)

end DesignTokens.Yaml
