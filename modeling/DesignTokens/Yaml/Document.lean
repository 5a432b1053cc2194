import DesignTokens.Yaml.Node
import DesignTokens.Yaml.Value

/-! # YAML documents -/

namespace DesignTokens.Yaml

/-- The characters that a text may hold. -/
def isAllowed (c : Char) : Bool :=
  let n := c.toNat
  n == 0x09 || n == 0x0A || n == 0x0D || n == 0x85 || (0x20 ≤ n && n ≤ 0x7E) ||
    (0xA0 ≤ n && n ≤ 0xFFFD) || 0x10000 ≤ n

def Fault.message : Fault → String
  | unprintable c position =>
    let code := (Nat.toDigits 16 c.toNat).length
    "unacceptable character #x" ++ String.ofList (Text.hexDigits (max 4 code) c.toNat) ++
      ": special characters are not allowed\n  in \"<unicode string>\", position " ++
      toString position
  | malformed cause _ => cause.message

/-- The only document in a text; it is empty if there is none. -/
def read (s : List Char) : Except Fault Document :=
  match s.dropWhile isAllowed with
  | c :: r => .error (.unprintable c (s.length - (r.length + 1)))
  | [] => do
    match ← Graph.ofTokens? (tokens s) with
    | none => return .empty
    | some (top, g) => Document.ofGraph g top

end DesignTokens.Yaml
