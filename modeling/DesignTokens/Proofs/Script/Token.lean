import DesignTokens.Script.Token
import DesignTokens.Proofs.Script.Literal

/-!
# Tokens stand in the text

`tokensFrom_step` says once what the tokenizer can do at the front of a text: it ends, passes over
a gap, takes a lexeme, or fails. By induction over these steps the static texts and interpolations
of all tokens are pieces of the text, and a symbolic digit that stops the tokenizer stands in it.
-/

namespace DesignTokens.Script

/-- Blanks and comments: what separates lexemes stands at the front of `s` and leaves `r`. -/
inductive Gap : List Char → List Char → Prop
  | blank {c : Char} (r : List Char) : Text.isBlank c → Gap (c :: r) r
  | line (r : List Char) : Gap ('/' :: '/' :: r) (afterLine r)
  | block {r r' : List Char} : afterBlock? r = some r' → Gap ('/' :: '*' :: r) r'

theorem Gap.tail {s r : List Char} (h : Gap s r) : Tail r s := by
  cases h with
  | blank => exact .one _ _
  | line => exact tail_afterLine _
  | block h => exact tail_afterBlock h

/-- The lexeme `l` stands at the front of `s` and leaves `r`. -/
inductive Lexeme.Stands : Lexeme → List Char → List Char → Prop
  | string {q : Char} {w : List Char} {v : Read (List Char) w} :
    q = '"' ∨ q = '\'' → readString q w = .ok v →
      Stands (.string (String.ofList v.value)) (q :: w) v.rest
  | template {w : List Char} {t : Read Template w} :
    readTemplate (w.length + 1) w = .ok t →
      Stands (.template (String.ofList (before ('`' :: w) t.rest)) t.value) ('`' :: w) t.rest
  | number {c : Char} {w n : List Char} :
    startsNumber (c :: w) → number? (c :: w) = some n →
      Stands (.number (String.ofList n)) (c :: w) (w.drop (n.length - 1))
  | ident {c : Char} {w : List Char} :
    isIdentStart c → Stands (.ident (String.ofList (c :: w.takeWhile isIdentPart))) (c :: w)
      (w.drop (w.takeWhile isIdentPart).length)
  | punct {c : Char} {w : List Char} {p : String} :
    punctuator? (c :: w) = some p → Stands (.punct p) (c :: w) (w.drop (p.length - 1))

theorem Lexeme.Stands.tail {l : Lexeme} {s r : List Char} (h : l.Stands s r) : Tail r s := by
  cases h with
  | @string q w v _ _ => exact v.tail.trans (.one q w)
  | @template w t _ => exact t.tail.trans (.one '`' w)
  | number | ident | punct => exact .drop_succ ..

/-- What the tokenizer can do at the front of `s`, with its answer. -/
inductive TokenStep (size : Nat) (s : List Char) : Except TokenError (List Token) → Prop
  | done : s = [] → TokenStep size s (.ok [⟨.eof, size - s.length⟩])
  | gap {r : List Char} : Gap s r → TokenStep size s (tokensFrom size r)
  | lexeme {l : Lexeme} {r : List Char} : l.Stands s r →
    TokenStep size s (do return ⟨l, size - s.length⟩ :: (← tokensFrom size r))
  | malformed (cause : LexCause) (pos : Nat) : TokenStep size s (.error (.malformed cause pos))
  | symbolicDigit : startsNumber s → number? s = none →
    TokenStep size s (.error (.symbolicDigit ⟨announcedDigit s⟩))

theorem tokensFrom_step (size : Nat) (s : List Char) : TokenStep size s (tokensFrom size s) := by
  rw [tokensFrom.eq_def]
  dsimp only
  split
  · exact .done rfl
  · exact .gap (.line _)
  · split
    · exact .malformed ..
    · rename_i r' hr'
      exact .gap (.block hr')
  · rename_i r
    cases ht : readTemplate (r.length + 1) r with
    | error e => exact .malformed ..
    | ok t => exact .lexeme (.template ht)
  · rename_i c r _ _ _
    split
    · rename_i hc
      exact .gap (.blank r hc)
    split
    · rename_i hc
      cases hv : readString c r with
      | error e => exact .malformed ..
      | ok v => exact .lexeme (.string hc hv)
    split
    · rename_i hnum
      split
      · rename_i hn
        exact .symbolicDigit hnum hn
      · rename_i n hn
        exact .lexeme (.number hnum hn)
    split
    · rename_i hc
      exact .lexeme (.ident hc)
    split
    · exact .malformed ..
    · rename_i p hp
      exact .lexeme (.punct hp)

/-! ### Runs -/

variable {size : Nat} {s r x : List Char} {l : Lexeme}

/-- Every token but the end mark stands where its position says. -/
theorem stands_of_mem_tokensFrom {ts : List Token} (h : tokensFrom size s = .ok ts) :
    ∀ t ∈ ts, t.lexeme = .eof ∨
      ∃ s' r, s' <:+ s ∧ t.lexeme.Stands s' r ∧ t.pos = size - s'.length := by
  induction hn : s.length using Nat.strongRecOn generalizing s ts with
  | ind n ih =>
    subst hn
    have step := tokensFrom_step size s
    generalize tokensFrom size s = answer at step h
    intro t ht
    cases step with
    | done =>
      cases h
      rw [List.mem_singleton] at ht
      exact .inl (by rw [ht])
    | gap hgap =>
      rcases ih _ hgap.tail.length_lt h rfl t ht with heof | ⟨s', r', hs', hstands⟩
      · exact .inl heof
      · exact .inr ⟨s', r', hs'.trans hgap.tail.suffix, hstands⟩
    | lexeme hl =>
      obtain ⟨ts', hts', h⟩ := ok_of_bind h
      cases h
      rcases List.mem_cons.1 ht with rfl | ht
      · exact .inr ⟨s, _, List.suffix_refl s, hl, rfl⟩
      · rcases ih _ hl.tail.length_lt hts' rfl t ht with heof | ⟨s', r', hs', hstands⟩
        · exact .inl heof
        · exact .inr ⟨s', r', hs'.trans hl.tail.suffix, hstands⟩
    | malformed => cases h
    | symbolicDigit => cases h

/-- A symbolic digit stops the tokenizer where a number starts that cannot be read. -/
theorem number?_eq_none_of_tokensFrom {d : SymbolicDigit}
    (h : tokensFrom size s = .error (.symbolicDigit d)) :
    ∃ s', s' <:+ s ∧ startsNumber s' ∧ number? s' = none ∧ d.digit = announcedDigit s' := by
  induction hn : s.length using Nat.strongRecOn generalizing s with
  | ind n ih =>
    subst hn
    have step := tokensFrom_step size s
    generalize tokensFrom size s = answer at step h
    cases step with
    | done => cases h
    | gap hgap =>
      obtain ⟨s', hs', hfault⟩ := ih _ hgap.tail.length_lt h rfl
      exact ⟨s', hs'.trans hgap.tail.suffix, hfault⟩
    | lexeme hl =>
      rcases error_of_bind h with h | ⟨ts', -, h⟩
      · obtain ⟨s', hs', hfault⟩ := ih _ hl.tail.length_lt h rfl
        exact ⟨s', hs'.trans hl.tail.suffix, hfault⟩
      · cases h
    | malformed => cases h
    | symbolicDigit hstart hnone =>
      cases h
      exact ⟨s, List.suffix_refl s, hstart, hnone, rfl⟩

/-! ### Pieces of the text -/

namespace Lexeme

/-- The texts of a lexeme in which class names may stand. -/
def statics : Lexeme → List (List Char)
  | string v => [v.toList]
  | template _ t => t.quasis
  | _ => []

def interpolations : Lexeme → List (List Char)
  | template _ t => t.interpolations
  | _ => []

namespace Stands

theorem chars_isInfix {text : String} {t : Template} (h : (Lexeme.template text t).Stands s r) :
    t.chars <:+: s := by
  cases h with
  | @template w t ht => exact ⟨['`'], '`' :: t.rest, by simp [← chars_readTemplate ht]⟩

theorem infix_of_mem_interpolations (h : l.Stands s r) (hx : x ∈ l.interpolations) : x <:+: s := by
  cases l with
  | template text t => exact (Template.infix_of_mem_interpolations hx).trans h.chars_isInfix
  | string | number | ident | punct | eof => cases hx

theorem length_lt_of_mem_interpolations (h : l.Stands s r) (hx : x ∈ l.interpolations) :
    x.length < s.length := by
  cases l with
  | template text t =>
    exact Nat.lt_of_lt_of_le (Template.length_lt_of_mem_interpolations hx) h.chars_isInfix.length_le
  | string | number | ident | punct | eof => cases hx

/-- Without backslashes the static texts are written as they are. -/
theorem infix_of_mem_statics (h : l.Stands s r) (hs : '\\' ∉ s) (hx : x ∈ l.statics) :
    x <:+: s := by
  cases l with
  | template text t => exact (Template.infix_of_mem_quasis hx).trans h.chars_isInfix
  | string value =>
    cases h with
    | @string q w v _ hv =>
      have hw := eq_of_readString (fun hw => hs (List.mem_cons_of_mem q hw)) hv
      obtain rfl : x = v.value := by simpa [statics] using hx
      exact ⟨[q], q :: v.rest, by simp [← hw]⟩
  | number | ident | punct | eof => cases hx

end Stands

end Lexeme

/-! ### Symbolic digits -/

/-- The digit stands in the text and is no decimal digit. -/
structure SymbolicDigit.Occurs (d : SymbolicDigit) (s : List Char) : Prop where
  mem : d.digit ∈ s
  digit : Text.isDigit d.digit
  symbolic : Text.isDecimalDigit d.digit = false

theorem SymbolicDigit.Occurs.mono {d : SymbolicDigit} {s t : List Char} (h : d.Occurs s)
    (hst : s <:+: t) : d.Occurs t :=
  ⟨hst.subset h.mem, h.digit, h.symbolic⟩

theorem not_decimal_of_mantissa? {c : Char} (h : mantissa? (c :: r) = none) :
    Text.isDecimalDigit c = false := by
  cases hc : Text.isDecimalDigit c with
  | false => rfl
  | true =>
    simp only [mantissa?, if_pos hc] at h
    split at h <;> cases h

theorem not_decimal_of_mantissa?_point {d : Char} {f : List Char}
    (h : mantissa? ('.' :: d :: f) = none) : Text.isDecimalDigit d = false := by
  have hpoint : Text.isDecimalDigit '.' = false := by decide
  cases hd : Text.isDecimalDigit d with
  | false => rfl
  | true => simp [mantissa?, hpoint, hd] at h

theorem announcedDigit_of_ne {c : Char} (hc : c ≠ '.') : announcedDigit (c :: r) = c := by
  unfold announcedDigit
  split <;> simp_all

/-- Only a symbolic digit announces a number that cannot be read. -/
theorem announcedDigit_occurs (hstart : startsNumber s) (hnone : number? s = none) :
    SymbolicDigit.Occurs ⟨announcedDigit s⟩ s := by
  have hmantissa : mantissa? s = none := by
    cases hm : mantissa? s with
    | none => rfl
    | some m => simp [number?, decimalNumber?, hm] at hnone
  have hpoint : Text.isDigit '.' = false := by decide
  cases s with
  | nil => simp [startsNumber] at hstart
  | cons c r =>
    by_cases hc : c = '.'
    · subst hc
      cases r with
      | nil => simp [startsNumber, hpoint] at hstart
      | cons d f =>
        have hd : Text.isDigit d := by simpa [startsNumber, hpoint] using hstart
        exact ⟨by simp [announcedDigit], hd, not_decimal_of_mantissa?_point hmantissa⟩
    · have hdigit : Text.isDigit c := by simpa [startsNumber, hc] using hstart
      rw [announcedDigit_of_ne hc]
      exact ⟨List.mem_cons_self, hdigit, not_decimal_of_mantissa? hmantissa⟩

theorem occurs_of_tokenize {d : SymbolicDigit} (h : tokenize s = .error (.symbolicDigit d)) :
    d.Occurs s := by
  obtain ⟨s', hs', hstart, hnone, hd⟩ := number?_eq_none_of_tokensFrom h
  have hoccurs := (announcedDigit_occurs hstart hnone).mono hs'.isInfix
  rwa [← hd] at hoccurs

end DesignTokens.Script
