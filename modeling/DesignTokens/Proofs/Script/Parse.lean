import DesignTokens.Proofs.ClassName.Normal
import DesignTokens.Proofs.Script.Built
import DesignTokens.Proofs.Text.Blank

/-!
# Expressions are drawn from their tokens

`Drawn ts names p`: the class names in what the rule `p` gives are class names of the tokens `ts`,
and a symbolic digit that stops it comes from an interpolation of theirs. What is built from tokens
has no other class names (`Built.classNames_subset`), so the rule for a whole text has this.
`infix_of_mem_classNames` and `occurs_of_parse` carry it over to the text. Markup is no expression
(`parseLeniently_angle`).
-/

namespace DesignTokens.Script

def Lexeme.classNames (l : Lexeme) : List String :=
  l.statics.flatMap fun x => classWords (String.ofList x)

def tokenClassNames (ts : List Token) : List String := ts.flatMap (·.lexeme.classNames)

/-- What is built from tokens has no class names but theirs. -/
theorem Built.classNames_subset {interpolation : List Char → Except SymbolicDigit Expr}
    {ts : List Token} {e : Expr} (h : Built interpolation ts e) :
    e.classNames ⊆ tokenClassNames ts := by
  have htoken {t : Token} (ht : t ∈ ts) : t.lexeme.classNames ⊆ tokenClassNames ts :=
    fun c hc => List.mem_flatMap.2 ⟨t, ht, hc⟩
  induction h with
  | other => exact List.nil_subset _
  | @string t v ht hv =>
    have hnames : (Expr.string v).classNames = t.lexeme.classNames := by
      simp [hv, Expr.classNames, Lexeme.classNames, Lexeme.statics]
    exact hnames ▸ htoken ht
  | @template t text c es ht hc =>
    have hnames : (Expr.template (c.quasis.map String.ofList) es).classNames =
        t.lexeme.classNames := by
      simp [hc, Expr.classNames, Lexeme.classNames, Lexeme.statics, List.flatMap_map]
    exact hnames ▸ htoken ht
  | call _ _ ih =>
    intro c hc
    rw [Expr.classNames, argumentClassNames_eq] at hc
    obtain ⟨e, he, hc⟩ := List.mem_flatMap.1 hc
    exact ih e he hc
  | array _ ih =>
    intro c hc
    rw [Expr.classNames, memberClassNames_eq] at hc
    obtain ⟨e, he, hc⟩ := List.mem_flatMap.1 hc
    exact ih e (List.reduceOption_mem_iff.1 he) hc
  | logical _ _ _ ihl ihr => exact List.append_subset.2 ⟨ihr, ihl⟩
  | conditional _ _ _ _ ihc iha => exact List.append_subset.2 ⟨ihc, iha⟩

namespace Grammar

/-- The class names in what is read are those of the tokens, and a symbolic digit comes from one of
their interpolations. -/
def Drawn {α : Type} (interpolation : List Char → Except SymbolicDigit Expr) (ts : List Token)
    (names : α → List String) : Except ParseError α → Prop
  | .ok a => names a ⊆ tokenClassNames ts
  | .error (.malformed ..) => True
  | .error (.symbolicDigit d) => ∃ x ∈ tokenInterpolations ts, interpolation x = .error d

theorem whole_drawn {source : List Char} {interpolation : List Char → Except SymbolicDigit Expr}
    (ts : List Token) :
    Drawn interpolation ts Expr.classNames (whole source interpolation ts) := by
  have h : Yields interpolation ts _ (whole source interpolation ts) := whole_built ts
  match whole source interpolation ts, h with
  | .ok e, h => exact h.classNames_subset
  | .error (.malformed ..), _ => trivial
  | .error (.symbolicDigit d), h => exact h

end Grammar

/-! ### Texts -/

variable {s : List Char} {ts : List Token} {d : SymbolicDigit} {e : Expr}

theorem infix_of_mem_classWords {x : List Char} {c : String}
    (hc : c ∈ classWords (String.ofList x)) : c.toList <:+: x := by
  obtain ⟨w, hw, rfl⟩ := List.mem_map.1 hc
  simpa using Text.infix_of_mem_words hw

/-- An interpolation stands in the text, with its template around it. -/
theorem infix_of_mem_tokenInterpolations (h : tokenize s = .ok ts) {x : List Char}
    (hx : x ∈ tokenInterpolations ts) : x <:+: s ∧ x.length < s.length := by
  obtain ⟨t, ht, hx⟩ := List.mem_flatMap.1 hx
  rcases stands_of_mem_tokensFrom h t ht with heof | ⟨s', r, hs', hstands, -⟩
  · rw [heof] at hx
    cases hx
  · exact ⟨(hstands.infix_of_mem_interpolations hx).trans hs'.isInfix,
      Nat.lt_of_lt_of_le (hstands.length_lt_of_mem_interpolations hx) hs'.length_le⟩

theorem infix_of_mem_tokenClassNames (h : tokenize s = .ok ts) (hs : '\\' ∉ s) {c : String}
    (hc : c ∈ tokenClassNames ts) : c.toList <:+: s := by
  obtain ⟨t, ht, hc⟩ := List.mem_flatMap.1 hc
  obtain ⟨x, hx, hc⟩ := List.mem_flatMap.1 hc
  rcases stands_of_mem_tokensFrom h t ht with heof | ⟨s', r, hs', hstands, -⟩
  · rw [heof] at hx
    cases hx
  · have hx' := hstands.infix_of_mem_statics (fun h' => hs (hs'.subset h')) hx
    exact (infix_of_mem_classWords hc).trans (hx'.trans hs'.isInfix)

theorem error_of_orUnparsed {p : Except ParseError Expr} (h : orUnparsed s p = .error d) :
    p = .error (.symbolicDigit d) := by
  unfold orUnparsed at h
  split at h <;> cases h
  rfl

/-- The parser reads a text by its tokens, and texts shorter than it as it reads attribute
values. -/
theorem parse_shorter (s : List Char) : ∃ interpolation : List Char → Except SymbolicDigit Expr,
    (∀ x, x.length < s.length → interpolation x = parseLeniently x) ∧
    parse s =
      ((tokenize s).mapError TokenError.toParseError >>= Grammar.whole s interpolation) := by
  refine ⟨fun t => if t.length < s.length then orUnparsed t (parse t) else .ok (.unparsed t),
    fun x hx => if_pos hx, ?_⟩
  rw [parse]
  rfl

/-- The interpolations among the tokens of a text are read as attribute values are. -/
theorem parse_step (s : List Char) : ∃ interpolation : List Char → Except SymbolicDigit Expr,
    (∀ ts, tokenize s = .ok ts → ∀ x ∈ tokenInterpolations ts,
      interpolation x = parseLeniently x) ∧
    parse s =
      ((tokenize s).mapError TokenError.toParseError >>= Grammar.whole s interpolation) := by
  obtain ⟨interpolation, hlenient, hparse⟩ := parse_shorter s
  exact ⟨interpolation,
    fun ts hts x hx => hlenient x (infix_of_mem_tokenInterpolations hts hx).2, hparse⟩

/-- A symbolic digit stops the parser where the tokenizer stops, or in an interpolation. -/
theorem error_of_parse (h : parse s = .error (.symbolicDigit d)) :
    tokenize s = .error (.symbolicDigit d) ∨ ∃ ts, tokenize s = .ok ts ∧
      ∃ x ∈ tokenInterpolations ts, parseLeniently x = .error d := by
  obtain ⟨interpolation, hlenient, hstep⟩ := parse_step s
  rw [hstep] at h
  rcases error_of_bind h with h | ⟨ts, hts, h⟩
  · obtain ⟨e, he, hed⟩ := error_of_mapError h
    cases e with
    | malformed => cases hed
    | symbolicDigit d' => cases hed; exact .inl he
  · have hdrawn : Grammar.Drawn interpolation ts Expr.classNames
        (Grammar.whole s interpolation ts) := Grammar.whole_drawn ts
    rw [h] at hdrawn
    obtain ⟨x, hx, hd⟩ := hdrawn
    rw [hlenient ts (ok_of_mapError hts) x hx] at hd
    exact .inr ⟨ts, ok_of_mapError hts, x, hx, hd⟩

theorem occurs_of_parse (h : parse s = .error (.symbolicDigit d)) : d.Occurs s := by
  induction hn : s.length using Nat.strongRecOn generalizing s with
  | ind n ih =>
    subst hn
    rcases error_of_parse h with h | ⟨ts, hts, x, hx, hd⟩
    · exact occurs_of_tokenize h
    · obtain ⟨hxs, hlt⟩ := infix_of_mem_tokenInterpolations hts hx
      exact (ih _ hlt (error_of_orUnparsed hd) rfl).mono hxs

theorem infix_of_mem_classNames (h : parse s = .ok e) (hs : '\\' ∉ s) {c : String}
    (hc : c ∈ e.classNames) : c.toList <:+: s := by
  obtain ⟨interpolation, -, hstep⟩ := parse_step s
  rw [hstep] at h
  obtain ⟨ts, hts, h⟩ := ok_of_bind h
  have hdrawn : Grammar.Drawn interpolation ts Expr.classNames
      (Grammar.whole s interpolation ts) := Grammar.whole_drawn ts
  rw [h] at hdrawn
  exact infix_of_mem_tokenClassNames (ok_of_mapError hts) hs (hdrawn hc)

/-! ### Attribute values -/

/-- A text that is no expression stands for itself. -/
theorem parseLeniently_eq_ok (h : parseLeniently s = .ok e) :
    parse s = .ok e ∨ e = .unparsed s := by
  unfold parseLeniently orUnparsed at h
  split at h
  · rename_i e' hparse
    cases h
    exact .inl hparse
  · cases h
    exact .inr rfl
  · cases h

theorem occurs_of_parseLeniently (h : parseLeniently s = .error d) : d.Occurs s :=
  occurs_of_parse (error_of_orUnparsed h)

theorem infix_of_mem_parseLeniently (h : parseLeniently s = .ok e) (hs : '\\' ∉ s) {c : String}
    (hc : c ∈ e.classNames) : c.toList <:+: s := by
  rcases parseLeniently_eq_ok h with h | rfl
  · exact infix_of_mem_classNames h hs hc
  · cases hc

/-! ### Markup is no expression -/

/-- The punctuators that begin with `<`. -/
def angles : List String := ["<<=", "<=", "<<", "<"]

namespace Grammar

variable {source : List Char} {interpolation : List Char → Except SymbolicDigit Expr}

/-- No expression begins with `<`. -/
theorem whole_of_angle {p : String} (hp : p ∈ angles) (pos : Nat) (ts : List Token) :
    whole source interpolation (⟨.punct p, pos⟩ :: ts) =
      failAt source (.unexpectedToken (Lexeme.punct p).text) (⟨.punct p, pos⟩ :: ts) := by
  have harrow : atArrow (⟨.punct p, pos⟩ :: ts) = false := by
    unfold atArrow
    dsimp only
    split
    · cases ‹Lexeme.punct p = _›
    · rename_i h
      cases h
      exact absurd hp (by decide)
    · rfl
  have hunary : skipIf? Lexeme.isUnary (⟨.punct p, pos⟩ :: ts) = none := by
    have hnone : ∀ p ∈ angles, (Lexeme.punct p).isUnary = false := by decide
    exact if_neg (Bool.eq_false_iff.1 (hnone p hp))
  have hprimary : primary source interpolation (⟨.punct p, pos⟩ :: ts) =
      failAt source (.unexpectedToken (Lexeme.punct p).text) (⟨.punct p, pos⟩ :: ts) := by
    rw [primary.eq_def]
    dsimp only
    split
    case h_8 => rfl
    all_goals
      rename_i h
      cases h
    all_goals exact absurd hp (by decide)
  rw [whole, if_neg (by simp [current]), expr, if_neg (by simp [harrow]), conditional, logical,
    conjunction, binary, unary, hunary]
  dsimp only
  rw [postfixed, hprimary]
  rfl

end Grammar

variable {r : List Char}

theorem punct_of_angle (h : tokenize ('<' :: r) = .ok ts) :
    ∃ p ∈ angles, ∃ pos ts', ts = ⟨.punct p, pos⟩ :: ts' := by
  unfold tokenize at h
  generalize hsize : ('<' :: r).length = size at h
  have step := tokensFrom_step size ('<' :: r)
  generalize tokensFrom size ('<' :: r) = answer at step h
  cases step with
  | done hs => cases hs
  | gap hgap =>
    cases hgap with
    | blank _ hblank => exact absurd hblank (by decide)
  | malformed => cases h
  | symbolicDigit => cases h
  | lexeme hstands =>
    obtain ⟨ts', -, h⟩ := ok_of_bind h
    cases h
    cases hstands with
    | string hquote => exact absurd hquote (by decide)
    | number hstart => cases hstart
    | ident hstart => exact absurd hstart (by decide)
    | @punct _ _ p hp =>
      refine ⟨p, ?_, _, ts', rfl⟩
      have hangle : ∀ p ∈ punctuators, p.toList.head?.all (· == '<') → p ∈ angles := by decide
      have hfits := List.find?_some hp
      simp only [punctuatorFits, Bool.and_eq_true] at hfits
      refine hangle p (List.mem_of_find?_eq_some hp) ?_
      cases hchars : p.toList with
      | nil => rfl
      | cons c r' =>
        rw [hchars, List.isPrefixOf_cons_cons, Bool.and_eq_true] at hfits
        exact hfits.1.1

/-- Text that begins with `<` stands for itself. -/
theorem parseLeniently_angle (h : ∀ c ∈ '<' :: r, Text.isDigit c → Text.isDecimalDigit c) :
    parseLeniently ('<' :: r) = .ok (.unparsed ('<' :: r)) := by
  cases hlenient : parseLeniently ('<' :: r) with
  | error d =>
    have hd := occurs_of_parseLeniently hlenient
    exact absurd (h d.digit hd.mem hd.digit) (by simp [hd.symbolic])
  | ok e =>
    rcases parseLeniently_eq_ok hlenient with hparse | rfl
    · obtain ⟨interpolation, -, hstep⟩ := parse_step ('<' :: r)
      rw [hstep] at hparse
      obtain ⟨ts, hts, hparse⟩ := ok_of_bind hparse
      obtain ⟨p, hp, pos, ts', rfl⟩ := punct_of_angle (ok_of_mapError hts)
      rw [Grammar.whole_of_angle hp] at hparse
      cases hparse
    · rfl

end DesignTokens.Script
