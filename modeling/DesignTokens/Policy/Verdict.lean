/-! # Verdicts -/

namespace DesignTokens.Policy

/-- What a policy says of a class name or an element. -/
inductive Verdict
  | compliant
  /-- The policy does not apply. -/
  | exempt
  | violation (reason : String) (suggestion : Option String)
  deriving DecidableEq, Repr

def Verdict.isViolation : Verdict → Bool
  | violation .. => true
  | _ => false

end DesignTokens.Policy
