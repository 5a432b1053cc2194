import DesignTokens.Text.Quoted

/-! # Texts as bytes

A character is written as one to four bytes. The first byte says how many follow and, so that no
character has two forms, in which range the second one lies; later ones carry six bits each. -/

namespace DesignTokens.Text

inductive Utf8Cause
  | invalidStart
  | invalidContinuation
  | unexpectedEnd
  deriving DecidableEq, Repr

def Utf8Cause.message : Utf8Cause → String
  | invalidStart => "invalid start byte"
  | invalidContinuation => "invalid continuation byte"
  | unexpectedEnd => "unexpected end of data"

/-- Bytes at a position that begin no character. -/
structure Utf8Fault where
  cause : Utf8Cause
  position : Nat
  bytes : List UInt8
  deriving DecidableEq, Repr

/-- A single byte is shown, several are given by their positions. -/
def Utf8Fault.message (f : Utf8Fault) : String :=
  let place := match f.bytes with
    | [b] => "byte 0x" ++ String.ofList (hexDigits 2 b.toNat) ++ " in position " ++
        toString f.position
    | bs => "bytes in position " ++ toString f.position ++ "-" ++
        toString (f.position + bs.length - 1)
  "'utf-8' codec can't decode " ++ place ++ ": " ++ f.cause.message

/-- A character of which the bytes `front` were read. -/
structure PartialChar where
  front : List UInt8
  code : Nat
  missing : Nat
  /-- The range of the next byte. -/
  low : Nat
  high : Nat

/-- What a first byte begins. -/
def beginChar? (b : UInt8) : Option PartialChar :=
  let n := b.toNat
  if n < 0x80 then some ⟨[b], n, 0, 0, 0⟩
  else if n < 0xC2 then none
  else if n < 0xE0 then some ⟨[b], n - 0xC0, 1, 0x80, 0xBF⟩
  else if n < 0xF0 then
    some ⟨[b], n - 0xE0, 2, if n = 0xE0 then 0xA0 else 0x80, if n = 0xED then 0x9F else 0xBF⟩
  else if n < 0xF5 then
    some ⟨[b], n - 0xF0, 3, if n = 0xF0 then 0x90 else 0x80, if n = 0xF4 then 0x8F else 0xBF⟩
  else none

/-- The character with one more byte. -/
def PartialChar.extend? (p : PartialChar) (b : UInt8) : Option PartialChar :=
  if p.low ≤ b.toNat ∧ b.toNat ≤ p.high then
    some ⟨p.front ++ [b], p.code * 0x40 + (b.toNat - 0x80), p.missing - 1, 0x80, 0xBF⟩
  else none

/-- Decodes bytes from a position on, where perhaps a character is only partly read. -/
def decodeFrom (position : Nat) (pending : Option PartialChar) (bytes : List UInt8) :
    Except Utf8Fault (List Char) :=
  match bytes, pending with
  | [], none => .ok []
  | [], some p => .error ⟨.unexpectedEnd, position - p.front.length, p.front⟩
  | b :: bs, none =>
    match beginChar? b with
    | none => .error ⟨.invalidStart, position, [b]⟩
    | some p => continueWith p bs
  | b :: bs, some p =>
    match p.extend? b with
    | none => .error ⟨.invalidContinuation, position - p.front.length, p.front⟩
    | some p => continueWith p bs
where
  continueWith (p : PartialChar) (bs : List UInt8) : Except Utf8Fault (List Char) :=
    if p.missing = 0 then do return Char.ofNat p.code :: (← decodeFrom (position + 1) none bs)
    else decodeFrom (position + 1) (some p) bs

def decodeUtf8 (bytes : List UInt8) : Except Utf8Fault (List Char) := decodeFrom 0 none bytes

def encodeUtf8 (s : String) : List UInt8 := s.toUTF8.toList

/-- Line ends of two characters, and lone carriage returns, become line feeds. -/
def unifyNewlines : List Char → List Char
  | '\r' :: '\n' :: s => '\n' :: unifyNewlines s
  | '\r' :: s => '\n' :: unifyNewlines s
  | c :: s => c :: unifyNewlines s
  | [] => []

end DesignTokens.Text
