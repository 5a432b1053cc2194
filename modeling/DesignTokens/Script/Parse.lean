import DesignTokens.Script.Expr
import DesignTokens.Script.Token

/-! # Reading expressions

A recursive descent over the token list, by precedence from low to high:

    expr        = arrow | conditional
    conditional = logical ("?" expr ":" expr)?
    logical     = conjunction (("||" | "??") conjunction)*
    conjunction = binary ("&&" binary)*
    binary      = unary (operator unary)*
    unary       = operator unary | postfix
    postfix     = primary (member | index | arguments | "!" | template)*

Every rule consumes at least one token. The static text of a template is kept, and each
interpolation is read on its own by a reader handed to the grammar; since an interpolation is
shorter than the text it stands in, `parse` may hand itself over. -/

namespace DesignTokens.Script

/-- Why a token list is no expression. -/
inductive SyntaxCause
  | lexical (cause : LexCause)
  | expected (wanted got : String)
  | unexpectedToken (got : String)
  | trailingToken (got : String)
  | noPropertyName
  | unterminatedParameters
  | unterminatedBlock
  deriving DecidableEq, Repr

def SyntaxCause.message : SyntaxCause → String
  | lexical c => c.message
  | expected w g => s!"Expected {Text.quoted w}, got {Text.quoted g}"
  | unexpectedToken g => s!"Unexpected token: {Text.quoted g}"
  | trailingToken g => s!"Unexpected token after expression: {Text.quoted g}"
  | noPropertyName => "Expected property name"
  | unterminatedParameters => "Unterminated arrow parameters"
  | unterminatedBlock => "Unterminated block"

inductive ParseError
  | malformed (cause : SyntaxCause) (pos : Nat)
  | symbolicDigit (d : SymbolicDigit)
  deriving DecidableEq, Repr

def TokenError.toParseError : TokenError → ParseError
  | malformed c pos => .malformed (.lexical c) pos
  | symbolicDigit d => .symbolicDigit d

/-! ### Keywords and operators -/

def binaryOperators : List String := [
  "===", "!==", "==", "!=", "<", ">", "<=", ">=", "+", "-", "*", "/", "%", "**", "&", "|", "^",
  "<<", ">>", ">>>"]

def binaryKeywords : List String := ["instanceof", "in"]

def unaryOperators : List String := ["!", "-", "+", "~"]

def unaryKeywords : List String := ["typeof", "void", "await", "delete", "new"]

def literalKeywords : List String := ["true", "false", "null", "undefined", "this"]

def castKeywords : List String := ["as", "satisfies"]

namespace Lexeme

def isPunct (p : String) : Lexeme → Bool
  | punct q => p == q
  | _ => false

def isIdent : Lexeme → Bool
  | ident _ => true
  | _ => false

def opensBracket (l : Lexeme) : Bool := l.isPunct "(" || l.isPunct "[" || l.isPunct "\x7b"

def closesBracket (l : Lexeme) : Bool := l.isPunct ")" || l.isPunct "]" || l.isPunct "\x7d"

def isBinary : Lexeme → Bool
  | punct p => binaryOperators.contains p
  | ident w => binaryKeywords.contains w
  | _ => false

def isTemplate : Lexeme → Bool
  | template .. => true
  | _ => false

def isUnary : Lexeme → Bool
  | punct p => unaryOperators.contains p
  | ident w => unaryKeywords.contains w
  | _ => false

end Lexeme

namespace Expr

def isIdentifier : Expr → Bool
  | other kind _ => kind == "identifier"
  | _ => false

def isMember : Expr → Bool
  | other kind _ => kind == "member"
  | _ => false

end Expr

/-! ### Moving over tokens -/

/-- What stands at the front; a list that has run out is at the end of the text. -/
def current : List Token → Lexeme
  | [] => .eof
  | t :: _ => t.lexeme

/-- What is left after the first token, if it satisfies `p`. -/
def skipIf? (p : Lexeme → Bool) : (ts : List Token) → Option { r : List Token // Tail r ts }
  | [] => none
  | t :: ts => if p t.lexeme then some ⟨ts, .one t ts⟩ else none

def skip? (p : String) (ts : List Token) : Option { r : List Token // Tail r ts } :=
  skipIf? (·.isPunct p) ts

/-- What is left after the bracket that closes `depth` open ones, whatever their kinds. -/
def closeAll? (opens closes : Lexeme → Bool) (depth : Nat) :
    (ts : List Token) → Option { r : List Token // Tail r ts }
  | [] => none
  | t :: ts =>
    if t.lexeme = .eof then none
    else if closes t.lexeme ∧ depth ≤ 1 then some ⟨ts, .one t ts⟩
    else
      let depth := if opens t.lexeme then depth + 1
        else if closes t.lexeme then depth - 1 else depth
      (closeAll? opens closes depth ts).map fun r => ⟨r.1, r.2.trans (.one t ts)⟩

/-- An arrow function starts here: a name or bracketed parameters before an arrow, or `async`
before a name or a parenthesis. -/
def atArrow : List Token → Bool
  | [] => false
  | t :: ts =>
    match t.lexeme with
    | .ident w =>
      (current ts).isPunct "=>" ||
        (w == "async" && ((current ts).isIdent || (current ts).isPunct "("))
    | .punct "(" =>
      ((closeAll? Lexeme.opensBracket Lexeme.closesBracket 1 ts).map fun r =>
        (current r.1).isPunct "=>").getD false
    | _ => false

/-! ### The grammar -/

namespace Grammar

-- the text that is read, and the reader of interpolations
variable (source : List Char) (interpolation : List Char → Except SymbolicDigit Expr)

/-- What a rule of the grammar gives. -/
abbrev Parsed (α : Type) (ts : List Token) := Except ParseError (Read α ts)

/-- The offset of the current token. -/
def place : List Token → Nat
  | [] => source.length
  | t :: _ => t.pos

/-- The text from the first token of `ts` up to the first token of `r`, without outer blanks. -/
def textBetween (ts r : List Token) : String :=
  String.ofList (Text.trim ((source.drop (place source ts)).take (place source r - place source ts)))

def failAt {α : Type} (cause : SyntaxCause) (ts : List Token) : Except ParseError α :=
  .error (.malformed cause (place source ts))

/-- The shape that the tokens from `ts` to `r` have, which is not looked into. -/
def opaqueExpr (kind : String) (ts r : List Token) : Expr := .other kind (textBetween source ts r)

def expect (p : String) (ts : List Token) : Except ParseError { r : List Token // Tail r ts } :=
  match skip? p ts with
  | some r => .ok r
  | none => failAt source (.expected p (current ts).text) ts

/-- A block in braces; only braces count inside. -/
def skipBlock (ts : List Token) : Except ParseError { r : List Token // Tail r ts } := do
  let body ← expect source "\x7b" ts
  match closeAll? (·.isPunct "\x7b") (·.isPunct "\x7d") 1 body.1 with
  | some r => return ⟨r.1, r.2.trans body.2⟩
  | none => .error (.malformed .unterminatedBlock source.length)

/-- The head of an arrow function, up to and with the arrow. -/
def skipArrowHead (ts : List Token) : Except ParseError { r : List Token // Tail r ts } := do
  let bare := if current ts = .ident "async" then ts.tail else ts
  have suffix : bare <:+ ts := by
    unfold bare; split
    · exact List.tail_suffix ts
    · exact List.suffix_refl ts
  match skip? "(" bare with
  | none =>
    let r ← expect source "=>" bare.tail
    return ⟨r.1, r.2.suffix_trans ((List.tail_suffix bare).trans suffix)⟩
  | some p =>
    match closeAll? Lexeme.opensBracket Lexeme.closesBracket 1 p.1 with
    | none => failAt source .unterminatedParameters ts
    | some q =>
      let r ← expect source "=>" q.1
      return ⟨r.1, (r.2.trans (q.2.trans p.2)).suffix_trans suffix⟩

def logicalOp? (ts : List Token) : Option (LogicalOp × { r : List Token // Tail r ts }) :=
  (skip? "||" ts).map (.or, ·) <|> (skip? "??" ts).map (.nullish, ·)

def isMemberAccess (l : Lexeme) : Bool := l.isPunct "." || l.isPunct "?."

mutual

def expr (ts : List Token) : Parsed Expr ts :=
  if atArrow ts then arrow ts else conditional ts
termination_by (ts.length, 7)

/-- An arrow function, whose body is skipped. -/
def arrow (ts : List Token) : Parsed Expr ts := do
  let head ← skipArrowHead source ts
  have := head.2.length_lt
  let ⟨rest, tail⟩ ← show Except ParseError { r : List Token // Tail r head.1 } from
    if (current head.1).isPunct "\x7b" then skipBlock source head.1
    else (expr head.1).map fun e => ⟨e.rest, e.tail⟩
  return ⟨opaqueExpr source "arrow" ts rest, rest, tail.trans head.2⟩
termination_by (ts.length, 6)

def conditional (ts : List Token) : Parsed Expr ts := do
  let test ← logical ts
  match skip? "?" test.rest with
  | none => return test
  | some q =>
    have atConsequent := q.2.trans test.tail
    have := atConsequent.length_lt
    let c ← expr q.1
    let colon ← expect source ":" c.rest
    have atAlternate := colon.2.trans (c.tail.trans atConsequent)
    have := atAlternate.length_lt
    let a ← expr colon.1
    return (a.map (.conditional test.value c.value)).after atAlternate
termination_by (ts.length, 6)

def logical (ts : List Token) : Parsed Expr ts := do
  let left ← conjunction ts
  have := left.tail.length_lt
  logicalTail ts left
termination_by (ts.length, 5)

/-- What the operators after `left` make of it. -/
def logicalTail (ts : List Token) (left : Read Expr ts) : Parsed Expr ts :=
  match logicalOp? left.rest with
  | none => .ok left
  | some (op, q) => do
    have := q.2.length_lt
    let right ← conjunction q.1
    have tail := right.tail.trans q.2
    have := tail.length_lt
    logicalTail ts ⟨.logical op left.value right.value, right.rest, tail.trans left.tail⟩
termination_by (left.rest.length, 0)

def conjunction (ts : List Token) : Parsed Expr ts := do
  let left ← binary ts
  have := left.tail.length_lt
  conjunctionTail ts left
termination_by (ts.length, 4)

/-- What the operators after `left` make of it. -/
def conjunctionTail (ts : List Token) (left : Read Expr ts) : Parsed Expr ts :=
  match skip? "&&" left.rest with
  | none => .ok left
  | some q => do
    have := q.2.length_lt
    let right ← binary q.1
    have tail := right.tail.trans q.2
    have := tail.length_lt
    conjunctionTail ts ⟨.logical .and left.value right.value, right.rest, tail.trans left.tail⟩
termination_by (left.rest.length, 0)

/-- Operands joined by operators of any precedence; with an operator it is not looked into. -/
def binary (ts : List Token) : Parsed Expr ts := do
  let left ← unary ts
  have := left.tail.length_lt
  binaryTail ts left
termination_by (ts.length, 3)

/-- What the operators after `left` make of it. -/
def binaryTail (ts : List Token) (left : Read Expr ts) : Parsed Expr ts :=
  match skipIf? Lexeme.isBinary left.rest with
  | none => .ok left
  | some q => do
    have := q.2.length_lt
    let right ← unary q.1
    have tail := right.tail.trans q.2
    have := tail.length_lt
    binaryTail ts ⟨opaqueExpr source "binary" ts right.rest, right.rest, tail.trans left.tail⟩
termination_by (left.rest.length, 0)

def unary (ts : List Token) : Parsed Expr ts :=
  match skipIf? Lexeme.isUnary ts with
  | none => postfixed ts
  | some q => do
    have := q.2.length_lt
    let e ← unary q.1
    return (e.map fun _ => opaqueExpr source "unary" ts e.rest).after q.2
termination_by (ts.length, 2)

def postfixed (ts : List Token) : Parsed Expr ts := do
  let e ← primary ts
  have := e.tail.length_lt
  postfixTail ts e.value.isIdentifier e
termination_by (ts.length, 1)

/-- What the accesses, calls and assertions after `e` make of it. `named` says that nothing but
names and accesses was read, so that its text names a callee. -/
def postfixTail (ts : List Token) (named : Bool) (e : Read Expr ts) : Parsed Expr ts :=
  match skipIf? isMemberAccess e.rest with
  | some q =>
    have := q.2.length_lt
    if (current q.1).isPunct "(" || (current q.1).isPunct "[" then
      postfixTail ts named ⟨e.value, q.1, q.2.trans e.tail⟩
    else match skipIf? Lexeme.isIdent q.1 with
      | none => failAt source .noPropertyName q.1
      | some r =>
        have := r.2.length_lt
        postfixTail ts named
          ⟨opaqueExpr source "member" ts r.1, r.1, r.2.trans (q.2.trans e.tail)⟩
  | none =>
  match skip? "[" e.rest with
  | some q => do
    have := q.2.length_lt
    let index ← expr q.1
    let r ← expect source "]" index.rest
    have tail := r.2.trans (index.tail.trans q.2)
    have := tail.length_lt
    postfixTail ts false ⟨opaqueExpr source "member" ts r.1, r.1, tail.trans e.tail⟩
  | none =>
  match skip? "(" e.rest with
  | some q => do
    have := q.2.length_lt
    let args ← arguments q.1
    have tail := args.tail.trans q.2
    have := tail.length_lt
    let callee := if named || e.value.isMember then textBetween source ts e.rest else "<expression>"
    postfixTail ts false ⟨.call callee args.value, args.rest, tail.trans e.tail⟩
  | none =>
  match skip? "!" e.rest, skipIf? Lexeme.isTemplate e.rest with
  | some q, _ =>
    have := q.2.length_lt
    if (current q.1).isPunct "=" then .ok e
    else postfixTail ts named ⟨e.value, q.1, q.2.trans e.tail⟩
  | none, some q =>
    have := q.2.length_lt
    if named then postfixTail ts false
      ⟨opaqueExpr source "tagged_template" ts q.1, q.1, q.2.trans e.tail⟩
    else .ok e
  | none, none => .ok e
termination_by (e.rest.length, 0)

/-- The arguments of a call, after the parenthesis; the last one may be followed by a comma. -/
def arguments (ts : List Token) : Parsed (List Expr) ts :=
  match skip? ")" ts with
  | some r => .ok ⟨[], r.1, r.2⟩
  | none => do
    let e ← spreadable ts
    match skip? "," e.rest with
    | none =>
      let r ← expect source ")" e.rest
      return ⟨[e.value], r.1, r.2.trans e.tail⟩
    | some q =>
      have tail := q.2.trans e.tail
      have := tail.length_lt
      let more ← arguments q.1
      return (more.map (e.value :: ·)).after tail
termination_by (ts.length, 9)

/-- The members of an array, after the bracket. -/
def elements (ts : List Token) : Parsed (List (Option Expr)) ts :=
  match skip? "]" ts, skip? "," ts with
  | some r, _ => .ok ⟨[], r.1, r.2⟩
  | none, some q => do
    have := q.2.length_lt
    let more ← elements q.1
    return (more.map (none :: ·)).after q.2
  | none, none => do
    let e ← spreadable ts
    match skip? "," e.rest with
    | none =>
      let r ← expect source "]" e.rest
      return ⟨[some e.value], r.1, r.2.trans e.tail⟩
    | some q =>
      have tail := q.2.trans e.tail
      have := tail.length_lt
      let more ← elements q.1
      return (more.map (some e.value :: ·)).after tail
termination_by (ts.length, 9)

/-- An argument or array member, which may be spread. -/
def spreadable (ts : List Token) : Parsed Expr ts :=
  match skip? "..." ts with
  | none => expr ts
  | some q => do
    have := q.2.length_lt
    let e ← expr q.1
    return (e.map fun _ => opaqueExpr source "spread" ts e.rest).after q.2
termination_by (ts.length, 8)

/-- The further members of a sequence, up to its closing parenthesis. -/
def sequenceTail (ts : List Token) : Parsed Unit ts := do
  let e ← expr ts
  match skip? "," e.rest with
  | none =>
    let r ← expect source ")" e.rest
    return ⟨(), r.1, r.2.trans e.tail⟩
  | some q =>
    have tail := q.2.trans e.tail
    have := tail.length_lt
    let more ← sequenceTail q.1
    return more.after tail
termination_by (ts.length, 8)

def primary (ts : List Token) : Parsed Expr ts :=
  match ts with
  | [] => failAt source (.unexpectedToken "") []
  | t :: r =>
    match t.lexeme with
    | .string v => .ok ⟨.string v, r, .one t r⟩
    | .template _ c => do
      let es ← (c.interpolations.mapM interpolation).mapError .symbolicDigit
      return ⟨.template (c.quasis.map String.ofList) es, r, .one t r⟩
    | .number n => .ok ⟨.other "number" n, r, .one t r⟩
    | .ident w =>
      let kind := if literalKeywords.contains w then "literal" else "identifier"
      .ok ⟨.other kind w, r, .one t r⟩
    | .punct "(" => do
      let e ← expr r
      match skip? "," e.rest with
      | none =>
        let close ← expect source ")" e.rest
        return ⟨e.value, close.1, (close.2.trans e.tail).trans (.one t r)⟩
      | some q =>
        have := (q.2.trans e.tail).length_lt
        let more ← sequenceTail q.1
        let tail := (more.tail.trans (q.2.trans e.tail)).trans (.one t r)
        return ⟨opaqueExpr source "sequence" (t :: r) more.rest, more.rest, tail⟩
    | .punct "[" => do
      let es ← elements r
      return (es.map .array).after (.one t r)
    | .punct "\x7b" => do
      let close ← skipBlock source (t :: r)
      return ⟨opaqueExpr source "object" (t :: r) close.1, close.1, close.2⟩
    | l => failAt source (.unexpectedToken l.text) (t :: r)
termination_by (ts.length, 0)

end

/-- The expression that the whole token list is; a type cast may follow it. -/
def whole (ts : List Token) : Except ParseError Expr :=
  if current ts = .eof then .ok (.other "empty" "")
  else do
    let e ← expr source interpolation ts
    match current e.rest with
    | .eof => return e.value
    | .ident w =>
      if castKeywords.contains w then return e.value
      else failAt source (.trailingToken w) e.rest
    | l => failAt source (.trailingToken l.text) e.rest

end Grammar

/-- An expression that could not be read. -/
def Expr.unparsed (s : List Char) : Expr := .other "unparsed" (String.ofList (Text.trim s))

/-- Malformed text stands for itself; a symbolic digit stays a fault. -/
def orUnparsed (s : List Char) : Except ParseError Expr → Except SymbolicDigit Expr
  | .ok e => .ok e
  | .error (.malformed ..) => .ok (.unparsed s)
  | .error (.symbolicDigit d) => .error d

/-- Reads an expression. -/
def parse (s : List Char) : Except ParseError Expr := do
  let ts ← (tokenize s).mapError TokenError.toParseError
  let interpolation (t : List Char) : Except SymbolicDigit Expr :=
    if _h : t.length < s.length then orUnparsed t (parse t) else .ok (.unparsed t)
  Grammar.whole s interpolation ts
termination_by s.length

/-- Reads the expression of an attribute or an interpolation, whatever its text. -/
def parseLeniently (s : List Char) : Except SymbolicDigit Expr := orUnparsed s (parse s)

end DesignTokens.Script
