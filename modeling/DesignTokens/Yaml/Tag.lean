import DesignTokens.Text.Search
import DesignTokens.Yaml.Stamp

/-! # Tags

A tag says what a node holds. A plain scalar without a tag has the one that its text implies: a
truth value, a number, a date, or else a text. -/

namespace DesignTokens.Yaml

inductive Tag
  | null
  | bool
  | int
  | float
  | binary
  | timestamp
  | omap
  | pairs
  | set
  | str
  | seq
  | map
  | merge
  | value
  | other (uri : String)
  deriving DecidableEq, Repr

namespace Tag

/-- What the uris of the common tags begin with. -/
def common : String := "tag:yaml.org,2002:"

def uri : Tag → String
  | null => common ++ "null"
  | bool => common ++ "bool"
  | int => common ++ "int"
  | float => common ++ "float"
  | binary => common ++ "binary"
  | timestamp => common ++ "timestamp"
  | omap => common ++ "omap"
  | pairs => common ++ "pairs"
  | set => common ++ "set"
  | str => common ++ "str"
  | seq => common ++ "seq"
  | map => common ++ "map"
  | merge => common ++ "merge"
  | value => common ++ "value"
  | other uri => uri

def all : List Tag :=
  [null, bool, int, float, binary, timestamp, omap, pairs, set, str, seq, map, merge, value]

def ofUri (u : String) : Tag := (all.find? (·.uri == u)).getD (other u)

/-! ### Forms of plain scalars -/

def truths : List String :=
  ["yes", "Yes", "YES", "no", "No", "NO", "true", "True", "TRUE", "false", "False", "FALSE",
    "on", "On", "ON", "off", "Off", "OFF"]

def nulls : List String := ["~", "null", "Null", "NULL"]

def withoutSign : List Char → List Char
  | '-' :: s => s
  | '+' :: s => s
  | s => s

/-- A digit or an underscore. -/
def isLooseDigit (c : Char) : Bool := Text.isAsciiDigit c || c == '_'

/-- The text is not empty and consists of characters of one kind. -/
def isRun (p : Char → Bool) (s : List Char) : Bool := !s.isEmpty && s.all p

/-- The text is a colon with one or two digits, a number below sixty, once or more often. -/
def isSixties (s : List Char) : Bool :=
  match Text.splitOn ':' s with
  | [] :: part :: parts => (part :: parts).all fun p =>
    match p with
    | [d] => Text.isAsciiDigit d
    | [t, d] => '0' ≤ t && t ≤ '5' && Text.isAsciiDigit d
    | _ => false
  | _ => false

def isInteger (s : List Char) : Bool :=
  match withoutSign s with
  | [] => false
  | '0' :: r =>
    match r with
    | 'b' :: r => isRun (fun c => c == '0' || c == '1' || c == '_') r
    | 'x' :: r => isRun (fun c => Text.isHexDigit c || c == '_') r
    | r => r.all fun c => ('0' ≤ c && c ≤ '7') || c == '_'
  | c :: r =>
    Text.isAsciiDigit c && (r.all isLooseDigit || isSixties (r.dropWhile isLooseDigit))

/-- The text is an exponent with a sign, or empty. -/
def isExponent : List Char → Bool
  | [] => true
  | e :: s :: ds => (e == 'e' || e == 'E') && (s == '+' || s == '-') && isRun Text.isAsciiDigit ds
  | _ => false

/-- The text is a point with decimal places and perhaps an exponent. -/
def isFraction : List Char → Bool
  | '.' :: r => isExponent (r.dropWhile isLooseDigit)
  | _ => false

/-- The text is a number with sixties before its point. -/
def isSixtiesFraction (s : List Char) : Bool :=
  isSixties (s.takeWhile (· != '.')) && match s.dropWhile (· != '.') with
    | '.' :: r => r.all isLooseDigit
    | _ => false

def isFloat (s : List Char) : Bool :=
  match withoutSign s with
  | '.' :: r =>
    ["inf", "Inf", "INF"].contains (String.ofList r) ||
      (withoutSign s == s &&
        (["nan", "NaN", "NAN"].contains (String.ofList r) ||
          (r.head?.any Text.isAsciiDigit && isFraction s)))
  | c :: r =>
    Text.isAsciiDigit c && (isFraction (r.dropWhile isLooseDigit) ||
      isSixtiesFraction (r.dropWhile isLooseDigit))
  | [] => false

/-! ### Implied tags -/

/-- A date alone has two digits for the month and the day. -/
def isTimestamp (s : List Char) : Bool :=
  (readStamp? s).any fun d => d.time.isSome || (d.month.length == 2 && d.day.length == 2)

/-- The tag that a text implies. A line feed at its end does not count, unless it is all there
is. -/
def implied (text : String) : Tag :=
  let s := Text.withoutFinalNewline text.toList
  let t := String.ofList s
  if truths.contains t then bool
  else if isFloat s then float
  else if isInteger s then int
  else if t = "<<" then merge
  else if text.isEmpty || nulls.contains t then null
  else if isTimestamp s then timestamp
  else if t = "=" then value
  else if ["!", "&", "*"].contains t then other (common ++ "yaml")
  else str

end Tag

end DesignTokens.Yaml
