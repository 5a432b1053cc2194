import DesignTokens.Proofs.Script.Surrounded
import DesignTokens.Proofs.Script.Tiling

/-!
# The reader of expressions stays on its tokens

The state of the reader is what is left of the tokens; it is at a token as long as something is
left. `Reached` holds of the states that it gets to, by moving over a token that is not the end mark
or by a function of the grammar that returns. A function that returns leaves the end mark in place,
since it resumes in front of it (`Nonterminal.move_resumes`), and has moved on. So every state is at
a token, and no function gets past the end mark (`cursor_bounded`).
-/

namespace DesignTokens.Script

namespace Grammar

/-- The functions of the grammar. -/
inductive Nonterminal
  | expr
  | arrow
  | conditional
  | logical
  | conjunction
  | binary
  | unary
  | postfixed
  | primary
  | spreadable
  | arguments
  | elements
  | sequenceTail
  | block
  deriving DecidableEq, Repr

/-- Where a rule ends, whatever it reads. -/
def ending {α : Type} {ts : List Token} (p : Parsed α ts) :
    Except ParseError { r : List Token // Tail r ts } :=
  p.map fun a => ⟨a.rest, a.tail⟩

section

variable (source : List Char) (interpolation : List Char → Except SymbolicDigit Expr)

/-- How far the function moves. -/
def Nonterminal.move (n : Nonterminal) (ts : List Token) :
    Except ParseError { r : List Token // Tail r ts } :=
  match n with
  | .expr => ending (Grammar.expr source interpolation ts)
  | .arrow => ending (Grammar.arrow source interpolation ts)
  | .conditional => ending (Grammar.conditional source interpolation ts)
  | .logical => ending (Grammar.logical source interpolation ts)
  | .conjunction => ending (Grammar.conjunction source interpolation ts)
  | .binary => ending (Grammar.binary source interpolation ts)
  | .unary => ending (Grammar.unary source interpolation ts)
  | .postfixed => ending (Grammar.postfixed source interpolation ts)
  | .primary => ending (Grammar.primary source interpolation ts)
  | .spreadable => ending (Grammar.spreadable source interpolation ts)
  | .arguments => ending (Grammar.arguments source interpolation ts)
  | .elements => ending (Grammar.elements source interpolation ts)
  | .sequenceTail => ending (Grammar.sequenceTail source interpolation ts)
  | .block => skipBlock source ts

/-- The states that the reader gets to from the front of the tokens. -/
inductive Reached (tokens : List Token) : List Token → Prop
  | start : Reached tokens tokens
  | advance {t : Token} {r : List Token} : Reached tokens (t :: r) → t.lexeme ≠ .eof →
    Reached tokens r
  | returned {ts : List Token} {r : { r : List Token // Tail r ts }} (n : Nonterminal) :
    Reached tokens ts → n.move source interpolation ts = .ok r → Reached tokens r.1

/-- The reader never leaves the tokens, and each of its functions moves forward on them. -/
structure CursorBounded (tokens : List Token) : Prop where
  /-- The end mark is the last token. -/
  ended : ∃ front, tokens = front ++ [⟨.eof, source.length⟩] ∧ ∀ t ∈ front, t.lexeme ≠ .eof
  /-- Each state that is reached is the one at some token. -/
  state : ∀ ts, Reached source interpolation tokens ts →
    ∃ k, k < tokens.length ∧ ts = tokens.drop k
  /-- A function that returns has moved to a later token, which may be the end mark. -/
  forward : ∀ (n : Nonterminal) k, k < tokens.length →
    Reached source interpolation tokens (tokens.drop k) →
    ∀ r, n.move source interpolation (tokens.drop k) = .ok r →
      ∃ j, k < j ∧ j < tokens.length ∧ r.1 = tokens.drop j
  /-- In front of an arrow stands a token. -/
  arrow : ∀ ts, Reached source interpolation tokens ts → atArrow ts →
    current (if current ts = .ident "async" then ts.tail else ts) ≠ .eof
  /-- A function that fails does so for want of syntax, or for a digit in an interpolation. -/
  fault : ∀ (n : Nonterminal) ts d, Reached source interpolation tokens ts →
    n.move source interpolation ts = .error (.symbolicDigit d) →
      ∃ x ∈ tokenInterpolations tokens, parseLeniently x = .error d

end

section

variable {s : List Char} {i : List Char → Except SymbolicDigit Expr} {tokens ts r : List Token}

/-! ### One function -/

theorem Resumes.ne_nil {f : Surroundings} {ts' : List Token} (h : Resumes f s i i ts ts') :
    ts ≠ [] := by
  cases h <;> exact List.cons_ne_nil _ _

theorem ending_resumes {α : Type} {f : Surroundings} {ts' : List Token} {p : Parsed α ts}
    {p' : Parsed α ts'} (h : ReadsOn f s i i p p') : MovesOn f s i i (ending p) (ending p') :=
  h.map fun _ _ h => h.2

/-- A function that returns leaves the end mark in place. -/
theorem Nonterminal.move_resumes (n : Nonterminal) {f : Surroundings} {ts' : List Token}
    (h : Resumes f s i i ts ts') :
    MovesOn f s i i (n.move s i ts) (n.move (f.around s) i ts') := by
  have later (r r' : List Token) (_ : Tail r ts) (h : Resumes f s i i r r') :
      RulesResume f s i i r r' := rules_resume h
  have hrules : RulesResume f s i i ts ts' := rules_resume h
  have hprimary := primary_resumes later h
  have hlogical := logical_resumes later hrules.conjunction
  cases n with
  | expr => exact ending_resumes hrules.expr
  | arrow => exact ending_resumes (arrow_resumes later h)
  | conditional => exact ending_resumes (conditional_resumes later hlogical)
  | logical => exact ending_resumes hlogical
  | conjunction => exact ending_resumes hrules.conjunction
  | binary => exact ending_resumes hrules.binary
  | unary => exact ending_resumes hrules.unary
  | postfixed => exact ending_resumes (postfixed_resumes later h hprimary)
  | primary => exact ending_resumes hprimary
  | spreadable => exact ending_resumes (spreadable_resumes later h hrules.expr)
  | arguments => exact ending_resumes hrules.arguments
  | elements => exact ending_resumes hrules.elements
  | sequenceTail => exact ending_resumes hrules.sequenceTail
  | block => exact h.skipBlock

theorem ending_yields {α : Type} {P : Read α r → Prop} {p : Parsed α r}
    (h : Yields i ts P p) : Moves i ts (ending p) :=
  h.map fun _ _ => trivial

/-- A symbolic digit that stops a function stands in an interpolation of the tokens. -/
theorem Nonterminal.move_yields (n : Nonterminal) : Moves i ts (n.move s i ts) := by
  have later (r : List Token) (hr : Tail r ts) : Rules s i ts r :=
    (rules r).mono hr.suffix.subset
  have hrules : Rules s i ts ts := rules ts
  have hprimary := primary_builds later
  have hlogical := logical_builds later hrules.conjunction
  cases n with
  | expr => exact ending_yields hrules.expr
  | arrow => exact ending_yields (arrow_builds later)
  | conditional => exact ending_yields (conditional_builds later hlogical)
  | logical => exact ending_yields hlogical
  | conjunction => exact ending_yields hrules.conjunction
  | binary => exact ending_yields hrules.binary
  | unary => exact ending_yields hrules.unary
  | postfixed => exact ending_yields (postfixed_builds later hprimary)
  | primary => exact ending_yields hprimary
  | spreadable => exact ending_yields (spreadable_builds later hrules.expr)
  | arguments => exact ending_yields hrules.arguments
  | elements => exact ending_yields hrules.elements
  | sequenceTail => exact ending_yields hrules.sequenceTail
  | block => exact moves_skipBlock ts

/-- The name in front of an arrow is no end mark, with `async` or without. -/
theorem current_of_atArrow (h : atArrow ts) :
    current (if current ts = .ident "async" then ts.tail else ts) ≠ .eof := by
  cases ts with
  | nil => cases h
  | cons t r =>
    show current (if t.lexeme = .ident "async" then r else t :: r) ≠ .eof
    intro heof
    split at heof
    · rename_i hasync
      simp [atArrow, hasync, heof, Lexeme.isPunct, Lexeme.isIdent] at h
    · have hlexeme : t.lexeme = .eof := heof
      simp [atArrow, hlexeme] at h

/-! ### All states -/

/-- What is left of the tokens begins at one of them. -/
theorem drop_of_suffix {α : Type} {r tokens : List α} (hr : r ≠ []) (h : r <:+ tokens) :
    ∃ k, k < tokens.length ∧ r = tokens.drop k := by
  have hpos := List.length_pos_iff.2 hr
  have hlength := h.length_le
  exact ⟨tokens.length - r.length, by omega, List.suffix_iff_eq_drop.1 h⟩

theorem Resumes.self {ts' : List Token} (h : Resumes .nothing s i i ts ts') :
    Resumes .nothing s i i ts ts := by
  obtain rfl := h.eq_of_nothing
  exact h

theorem Resumes.of_cons {t : Token} {ts' : List Token} (h : Resumes .nothing s i i (t :: r) ts')
    (heof : t.lexeme ≠ .eof) : Resumes .nothing s i i r r := by
  cases h with
  | stop => exact absurd rfl heof
  | token _ _ _ h => exact h.self

/-- The tokens of a text stand in front of the end mark. -/
theorem resumes_of_tokenize (h : tokenize s = .ok tokens) :
    Resumes .nothing s i i tokens tokens := by
  obtain ⟨us, rfl, hplain, -⟩ := lexed_before_break h (Nat.le_refl _)
  exact (Resumes.of_append hplain fun _ _ => rfl).self

/-- A state stands in front of the end mark. -/
theorem Reached.resumes (hstart : Resumes .nothing s i i tokens tokens)
    (h : Reached s i tokens ts) : Resumes .nothing s i i ts ts ∧ ts <:+ tokens := by
  induction h with
  | start => exact ⟨hstart, List.suffix_refl _⟩
  | @advance t r _ heof ih =>
    obtain ⟨hresumes, hsuffix⟩ := ih
    exact ⟨hresumes.of_cons heof, (List.suffix_cons t r).trans hsuffix⟩
  | @returned ts r n _ hr ih =>
    obtain ⟨hresumes, hsuffix⟩ := ih
    obtain ⟨r', -, hr'⟩ := n.move_resumes hresumes r hr
    exact ⟨hr'.self, r.2.suffix.trans hsuffix⟩

theorem cursorBounded_of_tokenize (h : tokenize s = .ok tokens)
    (hi : ∀ x ∈ tokenInterpolations tokens, i x = parseLeniently x) :
    CursorBounded s i tokens := by
  have hstates {ts : List Token} (hts : Reached s i tokens ts) :
      ∃ k, k < tokens.length ∧ ts = tokens.drop k := by
    obtain ⟨hresumes, hsuffix⟩ := hts.resumes (resumes_of_tokenize h)
    exact drop_of_suffix hresumes.ne_nil hsuffix
  refine ⟨(tokenize_tiles h).ends, fun ts => hstates, fun n k hk hreached r hr => ?_,
    fun ts _ => current_of_atArrow, fun n ts d hreached hd => ?_⟩
  · obtain ⟨j, hj, hrest⟩ := hstates (hreached.returned n hr)
    refine ⟨j, ?_, hj, hrest⟩
    have hlt := r.2.length_lt
    rw [hrest, List.length_drop, List.length_drop] at hlt
    omega
  · have hyields : Moves i ts (n.move s i ts) := n.move_yields
    rw [hd] at hyields
    obtain ⟨x, hx, hdigit⟩ := hyields
    have hsuffix := (hreached.resumes (resumes_of_tokenize h)).2
    have hmem := flatMap_mono hsuffix.subset hx
    exact ⟨x, hmem, hi x hmem ▸ hdigit⟩

end

end Grammar

section

variable {s : List Char} {tokens : List Token}

/-- The reader of expressions runs on the tokens with its cursor in bounds. It reads the
interpolations, which are shorter than the text, by themselves, and fails for want of syntax or
where one of them has a symbolic digit. -/
theorem cursor_bounded (h : tokenize s = .ok tokens) :
    ∃ interpolation : List Char → Except SymbolicDigit Expr,
      (∀ x ∈ tokenInterpolations tokens,
        x.length < s.length ∧ interpolation x = parseLeniently x) ∧
      parse s = Grammar.whole s interpolation tokens ∧
      Grammar.CursorBounded s interpolation tokens ∧
      ∀ d, parse s = .error (.symbolicDigit d) →
        ∃ x ∈ tokenInterpolations tokens, parseLeniently x = .error d := by
  obtain ⟨interpolation, hlenient, hparse⟩ := parse_step s
  have hreader := hlenient tokens h
  refine ⟨interpolation, fun x hx => ⟨(infix_of_mem_tokenInterpolations h hx).2, hreader x hx⟩, ?_,
    Grammar.cursorBounded_of_tokenize h hreader, fun d hd => ?_⟩
  · rw [hparse, h]
    rfl
  · rcases error_of_parse hd with hd | ⟨ts, hts, hx⟩
    · cases h.symm.trans hd
    · cases h.symm.trans hts
      exact hx

/-- An arrow function that makes an optional call, with a hole in an array and an interpolation. -/
def optionalCall : List Char := "(x) => f?.([, `p-$\x7bx ? 1 : 2\x7d`])".toList

def optionalCallTokens : List Token := [⟨.punct "(", 0⟩, ⟨.ident "x", 1⟩, ⟨.punct ")", 2⟩,
  ⟨.punct "=>", 4⟩, ⟨.ident "f", 7⟩, ⟨.punct "?.", 8⟩, ⟨.punct "(", 10⟩, ⟨.punct "[", 11⟩,
  ⟨.punct ",", 12⟩,
  ⟨.template "`p-$\x7bx ? 1 : 2\x7d`" ⟨['p', '-'], [("x ? 1 : 2".toList, [])]⟩, 14⟩,
  ⟨.punct "]", 30⟩, ⟨.punct ")", 31⟩, ⟨.eof, 32⟩]

theorem cursor_bounded_optionalCall : tokenize optionalCall = .ok optionalCallTokens ∧
    ∃ interpolation : List Char → Except SymbolicDigit Expr,
      (∀ x ∈ tokenInterpolations optionalCallTokens,
        x.length < 32 ∧ interpolation x = parseLeniently x) ∧
      parse optionalCall = Grammar.whole optionalCall interpolation optionalCallTokens ∧
      Grammar.CursorBounded optionalCall interpolation optionalCallTokens ∧
      ∀ d, parse optionalCall = .error (.symbolicDigit d) →
        ∃ x ∈ tokenInterpolations optionalCallTokens, parseLeniently x = .error d := by
  have h : tokenize optionalCall = .ok optionalCallTokens := by cbv
  exact ⟨h, cursor_bounded h⟩

end

end DesignTokens.Script
