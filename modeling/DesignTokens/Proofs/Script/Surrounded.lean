import DesignTokens.Proofs.Script.Break
import DesignTokens.Proofs.Script.Grammar
import DesignTokens.Proofs.Script.Parse
import DesignTokens.Proofs.Text.Blank

/-!
# Expressions inside other texts

The rules of the grammar stop at a closing bracket as they do at the end of the text. Only the look
ahead for an arrow may go past it, and finds none if nothing stands behind (`closeAll_none`). So
where the tokens of a text stand inside another one, with such a stop behind them (`Resumes`), every
rule that succeeds on them alone succeeds there, with the same value, and stops at the same token.
There is one lemma per rule, given that the rules it calls on what is left do so (`RulesResume`); by
induction on the length of the list all do (`rules_resume`). No rule that succeeds tells the end of
the text from a bracket, since an expression begins with neither (`expr_barren`).
-/

namespace DesignTokens.Script

/-- Where a rule that succeeds may stop, besides a brace and a separator. -/
def Lexeme.stops : List Lexeme := [.eof, .punct ")", .punct "]"]

/-- What stands around a text: other text in front, and behind it blanks, a stop and nothing more
than end marks. -/
structure Surroundings where
  front : List Char
  gap : List Char
  behind : List Char
  stop : Lexeme
  ends : List Token
  blank : ∀ c ∈ gap, Text.isBlank c
  stops : stop ∈ Lexeme.stops
  ended : ∀ t ∈ ends, t.lexeme = .eof

namespace Surroundings

/-- Nothing stands around the text. -/
def nothing : Surroundings := ⟨[], [], [], .eof, [], by simp, by decide, by simp⟩

variable (f : Surroundings) (s : List Char)

/-- The text with its surroundings. -/
def around : List Char := f.front ++ (s ++ (f.gap ++ f.behind))

/-- The tokens behind those of the text. -/
def rest : List Token := ⟨f.stop, f.front.length + (s.length + f.gap.length)⟩ :: f.ends

end Surroundings

/-- Where `p` succeeds `p'` does, with a related result. -/
def Follows {α β : Type} (R : α → β → Prop) (p : Except ParseError α) (p' : Except ParseError β) :
    Prop :=
  ∀ a, p = .ok a → ∃ b, p' = .ok b ∧ R a b

namespace Follows

variable {α β γ δ : Type} {R : α → β → Prop} {S : γ → δ → Prop} {p : Except ParseError α}
  {p' : Except ParseError β} {f : α → Except ParseError γ} {f' : β → Except ParseError δ}

theorem error {e : ParseError} : Follows R (.error e) p' := fun a h => by cases h

theorem ok {a : α} {b : β} (h : R a b) : Follows R (.ok a) (.ok b) := by
  intro a' ha
  cases ha
  exact ⟨b, rfl, h⟩

theorem bind (h : Follows R p p') (hf : ∀ a b, R a b → Follows S (f a) (f' b)) :
    Follows S (p >>= f) (p' >>= f') := by
  intro c hc
  obtain ⟨a, ha, hfa⟩ := ok_of_bind hc
  obtain ⟨b, rfl, hR⟩ := h a ha
  exact hf a b hR c hfa

theorem map {f : α → γ} {f' : β → δ} (h : Follows R p p') (hf : ∀ a b, R a b → S (f a) (f' b)) :
    Follows S (p.map f) (p'.map f') := by
  intro c hc
  cases hp : p with
  | error e =>
    rw [hp] at hc
    cases hc
  | ok a =>
    obtain ⟨b, rfl, hR⟩ := h a hp
    rw [hp] at hc
    cases hc
    exact ⟨f' b, rfl, hf a b hR⟩

end Follows

theorem Lexeme.isPunct_eq_false {l : Lexeme} {q : String} (h : l ≠ .punct q) :
    l.isPunct q = false := by
  cases l with
  | punct p =>
    have hne : q ≠ p := fun hq => h (congrArg Lexeme.punct hq.symm)
    simpa [Lexeme.isPunct] using hne
  | _ => rfl

namespace Grammar

/-! ### No expression begins with a stop -/

/-- The lexemes that neither begin an expression nor spread one. -/
def barren : List Lexeme := [.eof, .punct ")", .punct "]", .punct ","]

section

variable {source : List Char} {i : List Char → Except SymbolicDigit Expr} {ts : List Token}

theorem expr_barren (h : current ts ∈ .punct "..." :: barren) :
    ∃ e, expr source i ts = .error e := by
  have hfront : atArrow ts = false ∧ ∃ e, primary source i ts = .error e := by
    cases ts with
    | nil =>
      rw [primary]
      exact ⟨rfl, _, rfl⟩
    | cons t r =>
      obtain ⟨l, o⟩ := t
      have hl : l ∈ .punct "..." :: barren := h
      simp only [barren, List.mem_cons, List.not_mem_nil, or_false] at hl
      rcases hl with rfl | rfl | rfl | rfl | rfl <;> rw [primary] <;> exact ⟨rfl, _, rfl⟩
  obtain ⟨harrow, e, he⟩ := hfront
  have hunary : ∀ l ∈ .punct "..." :: barren, l.isUnary = false := by decide
  refine ⟨e, ?_⟩
  rw [expr, harrow, if_neg (by simp), conditional, logical, conjunction, binary, unary,
    skipIf?_eq_none (hunary _ h)]
  dsimp only
  rw [postfixed, he]
  rfl

theorem spreadable_barren (h : current ts ∈ barren) : ∃ e, spreadable source i ts = .error e := by
  have hspread : ∀ l ∈ barren, l.isPunct "..." = false := by decide
  rw [spreadable, skip?_eq_none (hspread _ h)]
  exact expr_barren (List.mem_cons_of_mem _ h)

theorem spreadable_end (source : List Char) (i : List Char → Except SymbolicDigit Expr) (o : Nat) :
    ∃ e, spreadable source i [⟨.eof, o⟩] = .error e :=
  spreadable_barren (by simp [current, barren])

/-- What begins an expression is no closing bracket, no comma and spreads nothing. -/
theorem start_of_expr {e : Expr} {r : List Token} (h : Gives (expr source i ts) e r) :
    current ts ≠ .eof ∧ (current ts).isPunct ")" = false ∧ (current ts).isPunct "]" = false ∧
      (current ts).isPunct "," = false ∧ (current ts).isPunct "..." = false := by
  have hstart : current ts ∉ Lexeme.punct "..." :: barren := by
    intro hbarren
    obtain ⟨tail, h⟩ := h
    obtain ⟨d, hd⟩ : ∃ d, expr source i ts = .error d := expr_barren hbarren
    cases h.symm.trans hd
  simp only [barren, List.mem_cons, List.not_mem_nil, or_false, not_or] at hstart
  obtain ⟨hspread, heof, hparen, hbracket, hcomma⟩ := hstart
  exact ⟨heof, Lexeme.isPunct_eq_false hparen, Lexeme.isPunct_eq_false hbracket,
    Lexeme.isPunct_eq_false hcomma, Lexeme.isPunct_eq_false hspread⟩

end

/-! ### Lists that go on elsewhere -/

/-- The tokens of the text `s` from some token on, alone and inside the surroundings; the readers of
interpolations agree on theirs. -/
inductive Resumes (f : Surroundings) (s : List Char)
    (i i' : List Char → Except SymbolicDigit Expr) : List Token → List Token → Prop
  | stop : Resumes f s i i' [⟨.eof, s.length⟩] (f.rest s)
  | token {t : Token} {r r' : List Token} : t.lexeme ≠ .eof → t.pos ≤ s.length →
    (∀ x ∈ t.lexeme.interpolations, i x = i' x) → Resumes f s i i' r r' →
    Resumes f s i i' (t :: r) (⟨t.lexeme, f.front.length + t.pos⟩ :: r')

section

-- the surroundings, the text, and the readers of interpolations of the two runs
variable {f : Surroundings} {s : List Char} {i i' : List Char → Except SymbolicDigit Expr}
variable {r r' ts ts' us : List Token} {t : Token} {p : Lexeme → Bool} {q : String}

theorem closeAll?_ended (h : ∀ t ∈ ts, t.lexeme = .eof) (opens closes : Lexeme → Bool)
    (depth : Nat) : closeAll? opens closes depth ts = none := by
  cases ts with
  | nil => rfl
  | cons t r => rw [closeAll?, if_pos (h t List.mem_cons_self)]

/-- A bracket in front of the end marks is the last one that can be closed. -/
theorem closeAll?_last {opens closes : Lexeme → Bool} {depth : Nat}
    {q : { u : List Token // Tail u (t :: r) }} (h : ∀ t ∈ r, t.lexeme = .eof)
    (hq : closeAll? opens closes depth (t :: r) = some q) : q.1 = r := by
  rw [closeAll?] at hq
  split at hq
  · cases hq
  split at hq
  · cases hq
    rfl
  · dsimp only at hq
    rw [closeAll?_ended h] at hq
    cases hq

theorem current_ended (h : ∀ t ∈ ts, t.lexeme = .eof) : current ts = .eof := by
  cases ts with
  | nil => rfl
  | cons t r => exact h t List.mem_cons_self

namespace Resumes

theorem of_append (hplain : ∀ t ∈ us, t.lexeme ≠ .eof ∧ t.pos ≤ s.length)
    (hreaders : ∀ x ∈ tokenInterpolations us, i x = i' x) :
    Resumes f s i i' (us ++ [⟨.eof, s.length⟩]) (us.map (.shift f.front.length) ++ f.rest s) := by
  induction us with
  | nil => exact .stop
  | cons t us ih =>
    obtain ⟨⟨heof, hpos⟩, hplain⟩ := List.forall_mem_cons.1 hplain
    obtain ⟨hreader, hreaders⟩ := List.forall_mem_append.1 hreaders
    exact .token heof hpos hreader (ih hplain hreaders)

/-- A predicate that holds for no stop sees the same token. -/
theorem current (h : Resumes f s i i' ts ts') (hp : ∀ l ∈ Lexeme.stops, p l = false) :
    p (current ts') = p (current ts) := by
  cases h with
  | stop => exact (hp _ f.stops).trans (hp .eof (by decide)).symm
  | token => rfl

theorem current_eof (h : Resumes f s i i' ts ts') (hts : Script.current ts = .eof) :
    ts' = f.rest s := by
  cases h with
  | stop => rfl
  | token heof => exact absurd hts heof

/-! ### The text between two tokens -/

theorem place (h : Resumes f s i i' ts ts') : place s ts ≤ s.length ∧
    (place (f.around s) ts' = f.front.length + place s ts ∨ place s ts = s.length ∧
      place (f.around s) ts' = f.front.length + (s.length + f.gap.length)) := by
  cases h with
  | stop => exact ⟨Nat.le_refl _, .inr ⟨rfl, rfl⟩⟩
  | token _ hpos => exact ⟨hpos, .inl rfl⟩

theorem text (h : Resumes f s i i' ts ts') (hr : Resumes f s i i' r r') :
    textBetween s ts r = textBetween (f.around s) ts' r' := by
  obtain ⟨hle, hplace⟩ := h.place
  obtain ⟨hle', hplace'⟩ := hr.place
  unfold textBetween
  generalize Grammar.place s ts = a at hle hplace ⊢
  generalize Grammar.place s r = b at hle' hplace' ⊢
  generalize Grammar.place (f.around s) ts' = a' at hplace ⊢
  generalize Grammar.place (f.around s) r' = b' at hplace' ⊢
  refine congrArg String.ofList ?_
  rcases hplace with rfl | ⟨rfl, rfl⟩
  · have hdrop : (f.around s).drop (f.front.length + a) = s.drop a ++ (f.gap ++ f.behind) := by
      rw [Surroundings.around, List.drop_length_add_append, List.drop_append_of_le_length hle]
    rw [hdrop]
    rcases hplace' with rfl | ⟨rfl, rfl⟩
    · rw [Nat.add_sub_add_left, List.take_append_of_le_length (by simp; omega)]
    · -- the blanks behind the text are trimmed
      have hlength : f.front.length + (s.length + f.gap.length) - (f.front.length + a) =
          (s.drop a ++ f.gap).length := by
        rw [List.length_append, List.length_drop]
        omega
      rw [hlength, ← List.append_assoc, List.take_left, Text.trim_append f.blank,
        List.take_of_length_le (by simp)]
  · have hnone : b - s.length = 0 := by omega
    have hnone' : b' - (f.front.length + (s.length + f.gap.length)) = 0 := by omega
    rw [hnone, hnone', List.take_zero, List.take_zero]

theorem opaqueExpr (h : Resumes f s i i' ts ts') (hr : Resumes f s i i' r r') (kind : String) :
    opaqueExpr s kind ts r = opaqueExpr (f.around s) kind ts' r' :=
  congrArg (Expr.other kind) (h.text hr)

end Resumes

/-! ### Moving over tokens -/

/-- Both readers find nothing, or they leave lists of which the one resumes the other. -/
def SkipsOn (f : Surroundings) (s : List Char) (i i' : List Char → Except SymbolicDigit Expr)
    (q : Option { r : List Token // Tail r ts }) (q' : Option { r : List Token // Tail r ts' }) :
    Prop :=
  q = none ∧ q' = none ∨ ∃ r r', q = some r ∧ q' = some r' ∧ Resumes f s i i' r.1 r'.1

namespace Resumes

/-- At the end of the text a rule may take a bracket inside the surroundings; nowhere else do the
lists differ. -/
theorem skipIf_or (h : Resumes f s i i' ts ts') (p : Lexeme → Bool) :
    ts = [⟨.eof, s.length⟩] ∨ SkipsOn f s i i' (skipIf? p ts) (skipIf? p ts') := by
  cases h with
  | stop => exact .inl rfl
  | @token t r r' _ _ _ hr =>
    refine .inr ?_
    by_cases hp : p t.lexeme
    · exact .inr ⟨_, _, if_pos hp, if_pos hp, hr⟩
    · exact .inl ⟨if_neg hp, if_neg hp⟩

theorem skip_or (h : Resumes f s i i' ts ts') (q : String) :
    ts = [⟨.eof, s.length⟩] ∨ SkipsOn f s i i' (skip? q ts) (skip? q ts') :=
  h.skipIf_or _

theorem skipIf (h : Resumes f s i i' ts ts') (hp : ∀ l ∈ Lexeme.stops, p l = false) :
    SkipsOn f s i i' (skipIf? p ts) (skipIf? p ts') := by
  rcases h.skipIf_or p with rfl | hskips
  · rw [h.current_eof rfl]
    exact .inl ⟨skipIf?_eq_none (hp .eof (by decide)), skipIf?_eq_none (hp _ f.stops)⟩
  · exact hskips

theorem skip (h : Resumes f s i i' ts ts') (hq : ∀ l ∈ Lexeme.stops, l.isPunct q = false) :
    SkipsOn f s i i' (skip? q ts) (skip? q ts') :=
  h.skipIf hq

theorem closeAll_some (h : Resumes f s i i' ts ts') {opens closes : Lexeme → Bool} {depth : Nat}
    {q : { r : List Token // Tail r ts }} (hq : closeAll? opens closes depth ts = some q) :
    ∃ q', closeAll? opens closes depth ts' = some q' ∧ Resumes f s i i' q.1 q'.1 := by
  induction h generalizing depth with
  | stop => cases hq
  | @token t r r' heof _ _ hr ih =>
    rw [closeAll?, if_neg heof] at hq ⊢
    split at hq
    · rename_i hlast
      cases hq
      exact ⟨_, if_pos hlast, hr⟩
    · rename_i hlast
      rw [if_neg hlast]
      dsimp only
      obtain ⟨q₁, hq₁, rfl⟩ := Option.map_eq_some_iff.1 hq
      obtain ⟨q', hq', hresumes⟩ := ih hq₁
      exact ⟨_, by rw [hq']; rfl, hresumes⟩

/-- A bracket that the text leaves open is closed by no more than the stop. -/
theorem closeAll_none (h : Resumes f s i i' ts ts') {opens closes : Lexeme → Bool} {depth : Nat}
    {q' : { r : List Token // Tail r ts' }} (hq : closeAll? opens closes depth ts = none)
    (hq' : closeAll? opens closes depth ts' = some q') : Script.current q'.1 = .eof := by
  induction h generalizing depth with
  | stop =>
    rw [closeAll?_last f.ended hq']
    exact current_ended f.ended
  | @token t r r' heof _ _ hr ih =>
    rw [closeAll?, if_neg heof] at hq hq'
    split at hq
    · cases hq
    · rename_i hlast
      rw [if_neg hlast] at hq'
      obtain ⟨q₁, hq₁, rfl⟩ := Option.map_eq_some_iff.1 hq'
      exact ih (Option.map_eq_none_iff.1 hq) hq₁

theorem atArrow (h : Resumes f s i i' ts ts') : atArrow ts' = atArrow ts := by
  cases h with
  | stop =>
    have hstops := f.stops
    rw [Surroundings.rest]
    simp only [Lexeme.stops, List.mem_cons, List.not_mem_nil, or_false] at hstops
    rcases hstops with hstop | hstop | hstop <;> rw [hstop] <;> rfl
  | @token t r r' _ _ _ hr =>
    unfold Script.atArrow
    dsimp only
    rw [hr.current (p := (·.isPunct "=>")) (by decide),
      hr.current (p := Lexeme.isIdent) (by decide), hr.current (p := (·.isPunct "(")) (by decide)]
    split
    · rfl
    · cases hq : closeAll? Lexeme.opensBracket Lexeme.closesBracket 1 r with
      | some q =>
        obtain ⟨q', hq', hresumes⟩ := hr.closeAll_some hq
        rw [hq']
        exact hresumes.current (p := (·.isPunct "=>")) (by decide)
      | none =>
        cases hq' : closeAll? Lexeme.opensBracket Lexeme.closesBracket 1 r' with
        | none => rfl
        | some q' =>
          show (Script.current q'.1).isPunct "=>" = false
          rw [hr.closeAll_none hq hq']
          rfl
    · rfl

theorem logicalOp (h : Resumes f s i i' ts ts') :
    logicalOp? ts = none ∧ logicalOp? ts' = none ∨ ∃ op r r', logicalOp? ts = some (op, r) ∧
      logicalOp? ts' = some (op, r') ∧ Resumes f s i i' r.1 r'.1 := by
  unfold logicalOp?
  rcases h.skip (q := "||") (by decide) with ⟨hor, hor'⟩ | ⟨q, q', hor, hor', hr⟩
  · rw [hor, hor']
    rcases h.skip (q := "??") (by decide) with ⟨hq, hq'⟩ | ⟨q, q', hq, hq', hr⟩
    · rw [hq, hq']
      exact .inl ⟨rfl, rfl⟩
    · rw [hq, hq']
      exact .inr ⟨.nullish, q, q', rfl, rfl, hr⟩
  · rw [hor, hor']
    exact .inr ⟨.or, q, q', rfl, rfl, hr⟩

end Resumes

/-! ### Parts without expressions -/

/-- Where the first rule moves on the second does. -/
abbrev MovesOn (f : Surroundings) (s : List Char) (i i' : List Char → Except SymbolicDigit Expr)
    (p : Except ParseError { r : List Token // Tail r ts })
    (p' : Except ParseError { r : List Token // Tail r ts' }) : Prop :=
  Follows (fun r r' => Resumes f s i i' r.1 r'.1) p p'

namespace Resumes

theorem expect (h : Resumes f s i i' ts ts') (q : String) :
    MovesOn f s i i' (expect s q ts) (expect (f.around s) q ts') := by
  unfold Grammar.expect
  rcases h.skip_or q with rfl | ⟨hq, hq'⟩ | ⟨r, r', hq, hq', hr⟩
  · exact .error
  · rw [hq]
    exact .error
  · rw [hq, hq']
    exact .ok hr

theorem skipBlock (h : Resumes f s i i' ts ts') :
    MovesOn f s i i' (skipBlock s ts) (skipBlock (f.around s) ts') := by
  refine (h.expect "\x7b").bind fun body body' hbody => ?_
  cases hq : closeAll? (·.isPunct "\x7b") (·.isPunct "\x7d") 1 body.1 with
  | none => exact .error
  | some q =>
    obtain ⟨q', hq', hr⟩ := hbody.closeAll_some hq
    rw [hq']
    exact .ok hr

theorem bare (h : Resumes f s i i' ts ts') :
    Resumes f s i i' (if Script.current ts = .ident "async" then ts.tail else ts)
      (if Script.current ts' = .ident "async" then ts'.tail else ts') := by
  cases h with
  | stop =>
    have hstop : ∀ l ∈ Lexeme.stops, l ≠ .ident "async" := by decide
    show Resumes f s i i' (if Lexeme.eof = _ then _ else _) (if f.stop = _ then _ else _)
    rw [if_neg (hstop .eof (by decide)), if_neg (hstop _ f.stops)]
    exact .stop
  | @token t r r' heof hpos hreader hr =>
    show Resumes f s i i' (if t.lexeme = _ then r else _) (if t.lexeme = _ then r' else _)
    split
    · exact hr
    · exact .token heof hpos hreader hr

theorem expect_tail (h : Resumes f s i i' ts ts') (q : String) :
    MovesOn f s i i' (Grammar.expect s q ts.tail) (Grammar.expect (f.around s) q ts'.tail) := by
  cases h with
  | stop => exact .error
  | token _ _ _ hr => exact hr.expect q

theorem skipArrowHead (h : Resumes f s i i' ts ts') :
    MovesOn f s i i' (skipArrowHead s ts) (skipArrowHead (f.around s) ts') := by
  unfold Grammar.skipArrowHead
  dsimp only
  have hbare := h.bare
  rcases hbare.skip (q := "(") (by decide) with ⟨hq, hq'⟩ | ⟨q, q', hq, hq', hr⟩
  · rw [hq, hq']
    exact (hbare.expect_tail "=>").bind fun r r' hr => .ok hr
  · rw [hq, hq']
    dsimp only
    cases hclose : closeAll? Lexeme.opensBracket Lexeme.closesBracket 1 q.1 with
    | none => exact .error
    | some c =>
      obtain ⟨c', hclose', hr⟩ := hr.closeAll_some hclose
      rw [hclose']
      exact (hr.expect "=>").bind fun r r' hr => .ok hr

end Resumes

/-! ### The rules

Each rule follows if the rules that it calls do; a rule called on what is left is given for all
shorter lists. -/

/-- Where the first rule succeeds the second does, with the same value. -/
abbrev ReadsOn {α : Type} (f : Surroundings) (s : List Char)
    (i i' : List Char → Except SymbolicDigit Expr) (p : Parsed α ts) (p' : Parsed α ts') : Prop :=
  Follows (fun a a' => a.value = a'.value ∧ Resumes f s i i' a.rest a'.rest) p p'

/-- How the rules that are called on what is left follow. -/
structure RulesResume (f : Surroundings) (s : List Char)
    (i i' : List Char → Except SymbolicDigit Expr) (ts ts' : List Token) : Prop where
  expr : ReadsOn f s i i' (expr s i ts) (expr (f.around s) i' ts')
  conjunction : ReadsOn f s i i' (conjunction s i ts) (conjunction (f.around s) i' ts')
  binary : ReadsOn f s i i' (binary s i ts) (binary (f.around s) i' ts')
  unary : ReadsOn f s i i' (unary s i ts) (unary (f.around s) i' ts')
  arguments : ReadsOn f s i i' (arguments s i ts) (arguments (f.around s) i' ts')
  elements : ReadsOn f s i i' (elements s i ts) (elements (f.around s) i' ts')
  sequenceTail : ReadsOn f s i i' (sequenceTail s i ts) (sequenceTail (f.around s) i' ts')

variable (later : ∀ r r', Tail r ts → Resumes f s i i' r r' → RulesResume f s i i' r r')
include later

theorem arrow_resumes (h : Resumes f s i i' ts ts') :
    ReadsOn f s i i' (arrow s i ts) (arrow (f.around s) i' ts') := by
  rw [arrow, arrow]
  refine h.skipArrowHead.bind fun head head' hhead => ?_
  refine Follows.bind (R := fun r r' => Resumes f s i i' r.1 r'.1) ?_
    fun r r' hr => .ok ⟨h.opaqueExpr hr _, hr⟩
  rw [hhead.current (p := (·.isPunct "\x7b")) (by decide)]
  split
  · exact hhead.skipBlock
  · exact (later _ _ head.2 hhead).expr.map fun _ _ h => h.2

theorem conditional_resumes
    (hlogical : ReadsOn f s i i' (logical s i ts) (logical (f.around s) i' ts')) :
    ReadsOn f s i i' (conditional s i ts) (conditional (f.around s) i' ts') := by
  rw [conditional, conditional]
  refine hlogical.bind fun test test' h => ?_
  obtain ⟨htest, hrest⟩ := h
  rcases hrest.skip (q := "?") (by decide) with ⟨hq, hq'⟩ | ⟨q, q', hq, hq', hr⟩
  · rw [hq, hq']
    exact .ok ⟨htest, hrest⟩
  · rw [hq, hq']
    dsimp only
    have hq := q.2.trans test.tail
    refine (later _ _ hq hr).expr.bind fun c c' h => ?_
    obtain ⟨hc, hrest⟩ := h
    refine (hrest.expect ":").bind fun colon colon' hr => ?_
    have hcolon := colon.2.trans (c.tail.trans hq)
    refine (later _ _ hcolon hr).expr.bind fun a a' h => .ok ⟨?_, h.2⟩
    simp only [Read.after, Read.map, htest, hc, h.1]

theorem logicalTail_resumes {left : Read Expr ts} {left' : Read Expr ts'}
    (hleft : left.value = left'.value) (hrest : Resumes f s i i' left.rest left'.rest) :
    ReadsOn f s i i' (logicalTail s i ts left) (logicalTail (f.around s) i' ts' left') := by
  induction hn : left.rest.length using Nat.strongRecOn generalizing left left' with
  | ind n ih =>
    subst hn
    rw [logicalTail, logicalTail]
    rcases hrest.logicalOp with ⟨hq, hq'⟩ | ⟨op, q, q', hq, hq', hr⟩
    · rw [hq, hq']
      exact .ok ⟨hleft, hrest⟩
    · rw [hq, hq']
      dsimp only
      refine (later _ _ (q.2.trans left.tail) hr).conjunction.bind fun right right' h => ?_
      obtain ⟨hright, hrest⟩ := h
      refine ih _ (right.tail.trans q.2).length_lt ?_ hrest rfl
      simp only [hleft, hright]

theorem logical_resumes
    (hconjunction : ReadsOn f s i i' (conjunction s i ts) (conjunction (f.around s) i' ts')) :
    ReadsOn f s i i' (logical s i ts) (logical (f.around s) i' ts') := by
  rw [logical, logical]
  exact hconjunction.bind fun _ _ h => logicalTail_resumes later h.1 h.2

theorem conjunctionTail_resumes {left : Read Expr ts} {left' : Read Expr ts'}
    (hleft : left.value = left'.value) (hrest : Resumes f s i i' left.rest left'.rest) :
    ReadsOn f s i i' (conjunctionTail s i ts left)
      (conjunctionTail (f.around s) i' ts' left') := by
  induction hn : left.rest.length using Nat.strongRecOn generalizing left left' with
  | ind n ih =>
    subst hn
    rw [conjunctionTail, conjunctionTail]
    rcases hrest.skip (q := "&&") (by decide) with ⟨hq, hq'⟩ | ⟨q, q', hq, hq', hr⟩
    · rw [hq, hq']
      exact .ok ⟨hleft, hrest⟩
    · rw [hq, hq']
      dsimp only
      refine (later _ _ (q.2.trans left.tail) hr).binary.bind fun right right' h => ?_
      obtain ⟨hright, hrest⟩ := h
      refine ih _ (right.tail.trans q.2).length_lt ?_ hrest rfl
      simp only [hleft, hright]

theorem conjunction_resumes
    (hbinary : ReadsOn f s i i' (binary s i ts) (binary (f.around s) i' ts')) :
    ReadsOn f s i i' (conjunction s i ts) (conjunction (f.around s) i' ts') := by
  rw [conjunction, conjunction]
  exact hbinary.bind fun _ _ h => conjunctionTail_resumes later h.1 h.2

theorem binaryTail_resumes (h : Resumes f s i i' ts ts') {left : Read Expr ts}
    {left' : Read Expr ts'} (hleft : left.value = left'.value)
    (hrest : Resumes f s i i' left.rest left'.rest) :
    ReadsOn f s i i' (binaryTail s i ts left) (binaryTail (f.around s) i' ts' left') := by
  induction hn : left.rest.length using Nat.strongRecOn generalizing left left' with
  | ind n ih =>
    subst hn
    rw [binaryTail, binaryTail]
    rcases hrest.skipIf (p := Lexeme.isBinary) (by decide) with
      ⟨hq, hq'⟩ | ⟨q, q', hq, hq', hr⟩
    · rw [hq, hq']
      exact .ok ⟨hleft, hrest⟩
    · rw [hq, hq']
      dsimp only
      refine (later _ _ (q.2.trans left.tail) hr).unary.bind fun right right' hright => ?_
      exact ih _ (right.tail.trans q.2).length_lt (h.opaqueExpr hright.2 _) hright.2 rfl

theorem binary_resumes (h : Resumes f s i i' ts ts')
    (hunary : ReadsOn f s i i' (unary s i ts) (unary (f.around s) i' ts')) :
    ReadsOn f s i i' (binary s i ts) (binary (f.around s) i' ts') := by
  rw [binary, binary]
  exact hunary.bind fun _ _ hleft => binaryTail_resumes later h hleft.1 hleft.2

theorem unary_resumes (h : Resumes f s i i' ts ts')
    (hpostfixed : ReadsOn f s i i' (postfixed s i ts) (postfixed (f.around s) i' ts')) :
    ReadsOn f s i i' (unary s i ts) (unary (f.around s) i' ts') := by
  rw [unary, unary]
  rcases h.skipIf (p := Lexeme.isUnary) (by decide) with ⟨hq, hq'⟩ | ⟨q, q', hq, hq', hr⟩
  · rw [hq, hq']
    exact hpostfixed
  · rw [hq, hq']
    dsimp only
    exact (later _ _ q.2 hr).unary.bind fun _ _ he => .ok ⟨h.opaqueExpr he.2 _, he.2⟩

theorem postfixTail_resumes (h : Resumes f s i i' ts ts') (named : Bool) {e : Read Expr ts}
    {e' : Read Expr ts'} (he : e.value = e'.value) (hrest : Resumes f s i i' e.rest e'.rest) :
    ReadsOn f s i i' (postfixTail s i ts named e) (postfixTail (f.around s) i' ts' named e') := by
  induction hn : e.rest.length using Nat.strongRecOn generalizing named e e' with
  | ind n ih =>
    subst hn
    rw [postfixTail, postfixTail]
    rcases hrest.skipIf (p := isMemberAccess) (by decide) with ⟨hq, hq'⟩ | ⟨q, q', hq, hq', hr⟩
    case inr =>
      rw [hq, hq']
      dsimp only
      rw [hr.current (p := fun l => l.isPunct "(" || l.isPunct "[") (by decide)]
      split
      · exact ih _ q.2.length_lt named he hr rfl
      · rcases hr.skipIf (p := Lexeme.isIdent) (by decide) with
          ⟨hname, hname'⟩ | ⟨r, r', hname, hname', hr⟩
        · rw [hname]
          exact .error
        · rw [hname, hname']
          exact ih _ (r.2.trans q.2).length_lt named (h.opaqueExpr hr _) hr rfl
    rw [hq, hq']
    dsimp only
    rcases hrest.skip (q := "[") (by decide) with ⟨hq, hq'⟩ | ⟨q, q', hq, hq', hr⟩
    case inr =>
      rw [hq, hq']
      dsimp only
      refine (later _ _ (q.2.trans e.tail) hr).expr.bind fun index index' hindex => ?_
      refine (hindex.2.expect "]").bind fun r r' hr => ?_
      exact ih _ (r.2.trans (index.tail.trans q.2)).length_lt false (h.opaqueExpr hr _) hr rfl
    rw [hq, hq']
    dsimp only
    rcases hrest.skip (q := "(") (by decide) with ⟨hq, hq'⟩ | ⟨q, q', hq, hq', hr⟩
    case inr =>
      rw [hq, hq']
      dsimp only
      refine (later _ _ (q.2.trans e.tail) hr).arguments.bind fun args args' hargs => ?_
      refine ih _ (args.tail.trans q.2).length_lt false ?_ hargs.2 rfl
      simp only [he, hargs.1, h.text hrest]
    rw [hq, hq']
    dsimp only
    rcases hrest.skip (q := "!") (by decide) with ⟨hq, hq'⟩ | ⟨q, q', hq, hq', hr⟩
    case inr =>
      rw [hq, hq']
      dsimp only
      rw [hr.current (p := (·.isPunct "=")) (by decide)]
      split
      · exact .ok ⟨he, hrest⟩
      · exact ih _ q.2.length_lt named he hr rfl
    rw [hq, hq']
    rcases hrest.skipIf (p := Lexeme.isTemplate) (by decide) with
      ⟨hq, hq'⟩ | ⟨q, q', hq, hq', hr⟩
    · rw [hq, hq']
      exact .ok ⟨he, hrest⟩
    · rw [hq, hq']
      dsimp only
      split
      · exact ih _ q.2.length_lt false (h.opaqueExpr hr _) hr rfl
      · exact .ok ⟨he, hrest⟩

theorem postfixed_resumes (h : Resumes f s i i' ts ts')
    (hprimary : ReadsOn f s i i' (primary s i ts) (primary (f.around s) i' ts')) :
    ReadsOn f s i i' (postfixed s i ts) (postfixed (f.around s) i' ts') := by
  rw [postfixed, postfixed]
  refine hprimary.bind fun e e' he => ?_
  obtain ⟨he, hrest⟩ := he
  rw [← he]
  exact postfixTail_resumes later h _ he hrest

theorem expr_resumes (h : Resumes f s i i' ts ts')
    (hconditional : ReadsOn f s i i' (conditional s i ts) (conditional (f.around s) i' ts')) :
    ReadsOn f s i i' (expr s i ts) (expr (f.around s) i' ts') := by
  rw [expr, expr, h.atArrow]
  split
  · exact arrow_resumes later h
  · exact hconditional

theorem spreadable_resumes (h : Resumes f s i i' ts ts')
    (hexpr : ReadsOn f s i i' (expr s i ts) (expr (f.around s) i' ts')) :
    ReadsOn f s i i' (spreadable s i ts) (spreadable (f.around s) i' ts') := by
  rw [spreadable, spreadable]
  rcases h.skip (q := "...") (by decide) with ⟨hq, hq'⟩ | ⟨q, q', hq, hq', hr⟩
  · rw [hq, hq']
    exact hexpr
  · rw [hq, hq']
    exact (later _ _ q.2 hr).expr.bind fun _ _ he => .ok ⟨h.opaqueExpr he.2 _, he.2⟩

theorem arguments_resumes (h : Resumes f s i i' ts ts')
    (hspreadable : ReadsOn f s i i' (spreadable s i ts) (spreadable (f.around s) i' ts')) :
    ReadsOn f s i i' (arguments s i ts) (arguments (f.around s) i' ts') := by
  rw [arguments, arguments]
  rcases h.skip_or ")" with rfl | ⟨hq, hq'⟩ | ⟨q, q', hq, hq', hr⟩
  · -- where the arguments go on alone, there is no closing parenthesis yet
    obtain ⟨e, he⟩ := spreadable_end s i s.length
    rw [skip?_eq_none (by rfl)]
    dsimp only
    rw [he]
    exact .error
  case inr.inr =>
    rw [hq, hq']
    exact .ok ⟨rfl, hr⟩
  rw [hq, hq']
  dsimp only
  refine hspreadable.bind fun e e' he => ?_
  obtain ⟨he, hrest⟩ := he
  rcases hrest.skip (q := ",") (by decide) with ⟨hq, hq'⟩ | ⟨q, q', hq, hq', hr⟩
  · rw [hq, hq']
    exact (hrest.expect ")").bind fun r r' hr => .ok ⟨congrArg ([·]) he, hr⟩
  · rw [hq, hq']
    dsimp only
    exact (later _ _ (q.2.trans e.tail) hr).arguments.bind fun more more' h =>
      .ok ⟨congrArg₂ List.cons he h.1, h.2⟩

theorem elements_resumes (h : Resumes f s i i' ts ts')
    (hspreadable : ReadsOn f s i i' (spreadable s i ts) (spreadable (f.around s) i' ts')) :
    ReadsOn f s i i' (elements s i ts) (elements (f.around s) i' ts') := by
  rw [elements, elements]
  rcases h.skip_or "]" with rfl | ⟨hq, hq'⟩ | ⟨q, q', hq, hq', hr⟩
  · obtain ⟨e, he⟩ := spreadable_end s i s.length
    rw [skip?_eq_none (by rfl), skip?_eq_none (by rfl)]
    dsimp only
    rw [he]
    exact .error
  case inr.inr =>
    rw [hq, hq']
    exact .ok ⟨rfl, hr⟩
  rw [hq, hq']
  rcases h.skip (q := ",") (by decide) with ⟨hq, hq'⟩ | ⟨q, q', hq, hq', hr⟩
  case inr =>
    rw [hq, hq']
    exact (later _ _ q.2 hr).elements.bind fun more more' h =>
      .ok ⟨congrArg (none :: ·) h.1, h.2⟩
  rw [hq, hq']
  dsimp only
  refine hspreadable.bind fun e e' he => ?_
  obtain ⟨he, hrest⟩ := he
  rcases hrest.skip (q := ",") (by decide) with ⟨hq, hq'⟩ | ⟨q, q', hq, hq', hr⟩
  · rw [hq, hq']
    exact (hrest.expect "]").bind fun r r' hr => .ok ⟨congrArg ([some ·]) he, hr⟩
  · rw [hq, hq']
    dsimp only
    exact (later _ _ (q.2.trans e.tail) hr).elements.bind fun more more' h =>
      .ok ⟨congrArg₂ (fun e es => some e :: es) he h.1, h.2⟩

theorem sequenceTail_resumes
    (hexpr : ReadsOn f s i i' (expr s i ts) (expr (f.around s) i' ts')) :
    ReadsOn f s i i' (sequenceTail s i ts) (sequenceTail (f.around s) i' ts') := by
  rw [sequenceTail, sequenceTail]
  refine hexpr.bind fun e e' he => ?_
  have hrest := he.2
  rcases hrest.skip (q := ",") (by decide) with ⟨hq, hq'⟩ | ⟨q, q', hq, hq', hr⟩
  · rw [hq, hq']
    exact (hrest.expect ")").bind fun r r' hr => .ok ⟨rfl, hr⟩
  · rw [hq, hq']
    dsimp only
    exact (later _ _ (q.2.trans e.tail) hr).sequenceTail.bind fun _ _ h => .ok ⟨rfl, h.2⟩

theorem primary_resumes (h : Resumes f s i i' ts ts') :
    ReadsOn f s i i' (primary s i ts) (primary (f.around s) i' ts') := by
  have hblock := h.skipBlock
  have htext (kind : String) {r r' : List Token} (hr : Resumes f s i i' r r') :=
    h.opaqueExpr hr kind
  cases h with
  | stop =>
    rw [primary]
    exact .error
  | @token t r r' _ _ hreader hr =>
    have htail := Tail.one t r
    rw [primary.eq_def, primary.eq_def]
    dsimp only
    split
    · exact .ok ⟨rfl, hr⟩
    · rename_i text c hc
      rw [hc] at hreader
      have hreads : c.interpolations.mapM i = c.interpolations.mapM i' := mapM_congr hreader
      refine Follows.bind (R := Eq) ?_ fun es es' hes => ?_
      · rw [hreads]
        exact fun es hes => ⟨es, hes, rfl⟩
      · subst hes
        exact .ok ⟨rfl, hr⟩
    · exact .ok ⟨rfl, hr⟩
    · exact .ok ⟨rfl, hr⟩
    · refine (later _ _ htail hr).expr.bind fun e e' he => ?_
      obtain ⟨he, hrest⟩ := he
      rcases hrest.skip (q := ",") (by decide) with ⟨hq, hq'⟩ | ⟨q, q', hq, hq', hr⟩
      · rw [hq, hq']
        exact (hrest.expect ")").bind fun close close' hr => .ok ⟨he, hr⟩
      · rw [hq, hq']
        dsimp only
        exact (later _ _ ((q.2.trans e.tail).trans htail) hr).sequenceTail.bind
          fun _ _ h => .ok ⟨htext _ h.2, h.2⟩
    · exact (later _ _ htail hr).elements.bind fun _ _ h => .ok ⟨congrArg Expr.array h.1, h.2⟩
    · exact hblock.bind fun _ _ hr => .ok ⟨htext _ hr, hr⟩
    · exact .error

omit later in
theorem rules_resume (h : Resumes f s i i' ts ts') : RulesResume f s i i' ts ts' := by
  induction hn : ts.length using Nat.strongRecOn generalizing ts ts' with
  | ind n ih =>
    subst hn
    have later (r r' : List Token) (hr : Tail r ts) (h : Resumes f s i i' r r') :
        RulesResume f s i i' r r' := ih _ hr.length_lt h rfl
    have hunary := unary_resumes later h (postfixed_resumes later h (primary_resumes later h))
    have hbinary := binary_resumes later h hunary
    have hconjunction := conjunction_resumes later hbinary
    have hexpr := expr_resumes later h
      (conditional_resumes later (logical_resumes later hconjunction))
    have hspreadable := spreadable_resumes later h hexpr
    exact ⟨hexpr, hconjunction, hbinary, hunary, arguments_resumes later h hspreadable,
      elements_resumes later h hspreadable, sequenceTail_resumes later hexpr⟩

/-! ### The readers of interpolations -/

omit later in
theorem Resumes.eq_of_nothing (h : Resumes .nothing s i i' ts ts') : ts' = ts := by
  induction h with
  | stop => simp [Surroundings.rest, Surroundings.nothing]
  | token _ _ _ _ ih => simp [Surroundings.nothing, ih]

omit later in
/-- The rule for expressions reads interpolations of the tokens only. -/
theorem expr_reader {e : Expr} (htokens : tokenize s = .ok ts)
    (hi : ∀ x ∈ tokenInterpolations ts, i x = i' x) (h : Gives (expr s i ts) e r) :
    Gives (expr s i' ts) e r := by
  obtain ⟨us, rfl, hplain, -⟩ := lexed_before_break htokens (Nat.le_refl _)
  have hresumes : Resumes .nothing s i i' (us ++ [⟨.eof, s.length⟩]) _ :=
    .of_append hplain fun x hx => hi x (by
      rw [tokenInterpolations, List.flatMap_append]
      exact List.mem_append_left _ hx)
  rw [hresumes.eq_of_nothing] at hresumes
  obtain ⟨tail, h⟩ := h
  obtain ⟨⟨value, rest, tail'⟩, ha, hvalue, hrest⟩ := (rules_resume hresumes).expr _ h
  obtain rfl : e = value := hvalue
  obtain rfl : rest = r := hrest.eq_of_nothing
  have haround : Surroundings.nothing.around s = s := by
    simp [Surroundings.nothing, Surroundings.around]
  rw [haround] at ha
  exact ⟨tail', ha⟩

end

end Grammar

/-- A text with tokens is read by the rule for expressions, up to its end or a type cast. -/
theorem parse_eq_ok_iff {s : List Char} {e : Expr} {ts : List Token}
    (htokens : tokenize s = .ok ts) (hts : current ts ≠ .eof) :
    parse s = .ok e ↔ ∃ r, Grammar.Gives (Grammar.expr s parseLeniently ts) e r ∧
      (current r = .eof ∨ ∃ w, castKeywords.contains w ∧ current r = .ident w) := by
  obtain ⟨i, hi, hparse⟩ := parse_step s
  rw [hparse, htokens]
  refine (Grammar.whole_eq_ok_iff hts).trans (exists_congr fun r => and_congr_left fun _ => ?_)
  have hreader := hi ts htokens
  exact ⟨Grammar.expr_reader htokens hreader,
    Grammar.expr_reader htokens fun x hx => (hreader x hx).symm⟩

end DesignTokens.Script
