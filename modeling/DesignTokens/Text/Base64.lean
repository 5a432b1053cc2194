import DesignTokens.Text.Range

/-! # Bytes as text in base 64

Every character carries six bits, so that four of them make three bytes; equals signs fill up the
last four. Other characters are passed over. -/

namespace DesignTokens.Text

inductive Base64Fault
  /-- Fewer equals signs than are missing in the last four characters. -/
  | incompletePadding
  /-- The last of the given number of characters stands alone. -/
  | loneCharacter (count : Nat)
  deriving DecidableEq, Repr

def Base64Fault.message : Base64Fault → String
  | incompletePadding => "Incorrect padding"
  | loneCharacter n =>
    "Invalid base64-encoded string: number of data characters (" ++ toString n ++
      ") cannot be 1 more than a multiple of 4"

def sixBits? (c : Char) : Option Nat :=
  if 'A' ≤ c ∧ c ≤ 'Z' then some (c.toNat - 'A'.toNat)
  else if 'a' ≤ c ∧ c ≤ 'z' then some (c.toNat - 'a'.toNat + 26)
  else if isAsciiDigit c then some (c.toNat - '0'.toNat + 52)
  else if c = '+' then some 62
  else if c = '/' then some 63
  else none

/-- The whole bytes in two to four groups of six bits. -/
def bytesOfSixBits : List Nat → List UInt8
  | a :: b :: r => .ofNat (a * 4 + b / 16) :: match r with
    | c :: r => .ofNat (b % 16 * 16 + c / 4) :: match r with
      | d :: _ => [.ofNat (c % 4 * 64 + d)]
      | [] => []
    | [] => []
  | _ => []

/-- Decodes what follows the groups of six bits that were read of the current four, with the equals
signs after them; `count` characters were read before. -/
def decodeSixBits (count : Nat) (groups : List Nat) (signs : Nat) :
    List Char → Except Base64Fault (List UInt8)
  | [] =>
    match groups with
    | [] => .ok []
    | [_] => .error (.loneCharacter (count + 1))
    | _ => .error .incompletePadding
  | c :: r =>
    if c = '=' then
      if groups.length < 2 then decodeSixBits count groups signs r
      else if 4 ≤ groups.length + (signs + 1) then .ok (bytesOfSixBits groups)
      else decodeSixBits count groups (signs + 1) r
    else match sixBits? c with
      | none => decodeSixBits count groups signs r
      | some n =>
        if groups.length = 3 then do
          return bytesOfSixBits (groups ++ [n]) ++ (← decodeSixBits (count + 4) [] 0 r)
        else decodeSixBits count (groups ++ [n]) 0 r

def decodeBase64 (s : List Char) : Except Base64Fault (List UInt8) := decodeSixBits 0 [] 0 s

end DesignTokens.Text
