import DesignTokens.Script.Parse
import DesignTokens.Proofs.Text.Reading

/-!
# What the rules of the grammar give

`Gives p a r`: the rule `p` reads `a` and leaves `r`. For each way in which a rule can read the
tokens of a written expression there is one lemma, from what the rules that it calls give. What
may stand behind an operand (`endsOperand`) and behind an expression (`endsExpr`) says that no
rule goes on there.
-/

namespace DesignTokens.Script

variable {ts r u : List Token} {l : Lexeme} {p : Lexeme → Bool} {q : String}

theorem skipIf?_eq_none (h : p (current ts) = false) : skipIf? p ts = none := by
  cases ts with
  | nil => rfl
  | cons t ts => exact if_neg (Bool.eq_false_iff.1 h)

theorem skipIf?_cons {t : Token} (h : p t.lexeme) : skipIf? p (t :: r) = some ⟨r, .one t r⟩ :=
  if_pos h

theorem skip?_eq_none (h : (current ts).isPunct q = false) : skip? q ts = none :=
  skipIf?_eq_none h

theorem skip?_cons (o : Nat) : skip? q (⟨.punct q, o⟩ :: r) = some ⟨r, .one _ r⟩ :=
  skipIf?_cons (by simp [Lexeme.isPunct])

namespace Lexeme

/-- No rule goes on with this token behind an operand. -/
def endsOperand (l : Lexeme) : Bool :=
  !(Grammar.isMemberAccess l || l.isPunct "[" || l.isPunct "(" || l.isPunct "!" || l.isTemplate ||
    l.isBinary)

/-- No rule goes on with this token behind operands and the operators between them. -/
def endsLogical (l : Lexeme) : Bool :=
  l.endsOperand && !(l.isPunct "&&" || l.isPunct "||" || l.isPunct "??")

/-- No rule goes on with this token behind an expression. -/
def endsExpr (l : Lexeme) : Bool := l.endsLogical && !(l.isPunct "?" || l.isPunct "=>")

/-- The token may begin an operand, and is no operator. -/
def startsOperand (l : Lexeme) : Bool :=
  !(l.isUnary || l.isPunct ")" || l.isPunct "]" || l.isPunct "," || l.isPunct "..." || l == eof)

theorem ends_of_expr (h : l.endsExpr) :
    l.endsLogical ∧ l.isPunct "?" = false ∧ l.isPunct "=>" = false := by
  simp only [endsExpr, Bool.and_eq_true, Bool.not_eq_true', Bool.or_eq_false_iff] at h
  exact h

theorem ends_of_logical (h : l.endsLogical) : l.endsOperand ∧ l.isPunct "&&" = false ∧
    l.isPunct "||" = false ∧ l.isPunct "??" = false := by
  simp only [endsLogical, Bool.and_eq_true, Bool.not_eq_true', Bool.or_eq_false_iff] at h
  exact ⟨h.1, h.2.1.1, h.2.1.2, h.2.2⟩

/-- What begins an operand ends no list, is no comma and spreads nothing. -/
theorem start_of_operand (h : l.startsOperand) : l.isPunct ")" = false ∧ l.isPunct "]" = false ∧
    l.isPunct "," = false ∧ l.isPunct "..." = false ∧ l ≠ .eof := by
  simp only [startsOperand, Bool.not_eq_true', Bool.or_eq_false_iff, beq_eq_false_iff_ne] at h
  exact ⟨h.1.1.1.1.2, h.1.1.1.2, h.1.1.2, h.1.2, h.2⟩

end Lexeme

namespace Grammar

variable {source : List Char} {interpolation : List Char → Except SymbolicDigit Expr}
variable {α : Type} {a b c e : Expr} {args : List Expr} {es : List (Option Expr)} {o : Nat}

/-- The rule reads `a` and leaves `r`. -/
def Gives (p : Parsed α ts) (a : α) (r : List Token) : Prop := ∃ tail, p = .ok ⟨a, r, tail⟩

/-! ### Behind an operand -/

theorem postfixTail_ends {named : Bool} {e : Read Expr ts} (h : (current e.rest).endsOperand) :
    postfixTail source interpolation ts named e = .ok e := by
  simp only [Lexeme.endsOperand, Bool.not_eq_true', Bool.or_eq_false_iff] at h
  obtain ⟨⟨⟨⟨⟨hmember, hindex⟩, hcall⟩, hmark⟩, htemplate⟩, -⟩ := h
  rw [postfixTail, skipIf?_eq_none hmember, skip?_eq_none hindex, skip?_eq_none hcall,
    skip?_eq_none hmark, skipIf?_eq_none htemplate]

theorem binaryTail_ends {e : Read Expr ts} (h : (current e.rest).endsOperand) :
    binaryTail source interpolation ts e = .ok e := by
  simp only [Lexeme.endsOperand, Bool.not_eq_true', Bool.or_eq_false_iff] at h
  rw [binaryTail, skipIf?_eq_none h.2]

theorem binary_of_postfixed (hstart : (current ts).startsOperand)
    (h : Gives (postfixed source interpolation ts) e r) (hr : (current r).endsOperand) :
    Gives (binary source interpolation ts) e r := by
  obtain ⟨tail, h⟩ := h
  simp only [Lexeme.startsOperand, Bool.not_eq_true', Bool.or_eq_false_iff] at hstart
  have hunary : unary source interpolation ts = .ok ⟨e, r, tail⟩ := by
    rw [unary, skipIf?_eq_none hstart.1.1.1.1.1, h]
  refine ⟨tail, ?_⟩
  rw [binary, hunary]
  exact binaryTail_ends hr

theorem postfixed_of_primary (h : Gives (primary source interpolation ts) e r)
    (hr : (current r).endsOperand) : Gives (postfixed source interpolation ts) e r := by
  obtain ⟨tail, h⟩ := h
  refine ⟨tail, ?_⟩
  rw [postfixed, h]
  exact postfixTail_ends hr

/-! ### Operators -/

theorem conjunctionTail_ends {e : Read Expr ts} (h : (current e.rest).isPunct "&&" = false) :
    conjunctionTail source interpolation ts e = .ok e := by
  rw [conjunctionTail, skip?_eq_none h]

theorem logicalTail_ends {e : Read Expr ts} (h : (current e.rest).endsLogical) :
    logicalTail source interpolation ts e = .ok e := by
  obtain ⟨-, -, hor, hnullish⟩ := Lexeme.ends_of_logical h
  rw [logicalTail, logicalOp?, skip?_eq_none hor, skip?_eq_none hnullish]
  rfl

theorem conjunction_of_binary (h : Gives (binary source interpolation ts) e r)
    (hr : (current r).isPunct "&&" = false) : Gives (conjunction source interpolation ts) e r := by
  obtain ⟨tail, h⟩ := h
  refine ⟨tail, ?_⟩
  rw [conjunction, h]
  exact conjunctionTail_ends hr

theorem logical_of_binary (h : Gives (binary source interpolation ts) e r)
    (hr : (current r).endsLogical) : Gives (logical source interpolation ts) e r := by
  obtain ⟨tail, h⟩ := conjunction_of_binary h (Lexeme.ends_of_logical hr).2.1
  refine ⟨tail, ?_⟩
  rw [logical, h]
  exact logicalTail_ends hr

theorem conjunctionTail_step (h : Tail (⟨.punct "&&", o⟩ :: r) ts)
    (hb : Gives (binary source interpolation r) b u) :
    ∃ h', conjunctionTail source interpolation ts ⟨a, ⟨.punct "&&", o⟩ :: r, h⟩ =
      conjunctionTail source interpolation ts ⟨.logical .and a b, u, h'⟩ := by
  obtain ⟨tail, hb⟩ := hb
  refine ⟨(tail.trans (.one _ r)).trans h, ?_⟩
  rw [conjunctionTail]
  dsimp only
  rw [skip?_cons]
  dsimp only
  rw [hb]
  rfl

theorem conjunctionTail_and (h : Tail (⟨.punct "&&", o⟩ :: r) ts)
    (hb : Gives (binary source interpolation r) b u)
    (hu : (current u).isPunct "&&" = false) :
    Gives (conjunctionTail source interpolation ts ⟨a, ⟨.punct "&&", o⟩ :: r, h⟩)
      (.logical .and a b) u := by
  obtain ⟨tail, hstep⟩ := conjunctionTail_step (a := a) h hb
  exact ⟨tail, hstep.trans (conjunctionTail_ends hu)⟩

theorem logicalTail_step {op : LogicalOp} (h : Tail (⟨.punct q, o⟩ :: r) ts)
    (hop : logicalOp? (⟨.punct q, o⟩ :: r) = some (op, ⟨r, .one _ r⟩))
    (hb : Gives (conjunction source interpolation r) b u) :
    ∃ h', logicalTail source interpolation ts ⟨a, ⟨.punct q, o⟩ :: r, h⟩ =
      logicalTail source interpolation ts ⟨.logical op a b, u, h'⟩ := by
  obtain ⟨tail, hb⟩ := hb
  refine ⟨(tail.trans (.one _ r)).trans h, ?_⟩
  rw [logicalTail]
  dsimp only
  rw [hop]
  dsimp only
  rw [hb]
  rfl

theorem logicalTail_op {op : LogicalOp} (h : Tail (⟨.punct q, o⟩ :: r) ts)
    (hop : logicalOp? (⟨.punct q, o⟩ :: r) = some (op, ⟨r, .one _ r⟩))
    (hb : Gives (conjunction source interpolation r) b u) (hu : (current u).endsLogical) :
    Gives (logicalTail source interpolation ts ⟨a, ⟨.punct q, o⟩ :: r, h⟩)
      (.logical op a b) u := by
  obtain ⟨tail, hstep⟩ := logicalTail_step (a := a) h hop hb
  exact ⟨tail, hstep.trans (logicalTail_ends hu)⟩

theorem logical_operator {op : LogicalOp} (hq : op.text = q)
    (ha : Gives (binary source interpolation ts) a (⟨.punct q, o⟩ :: r))
    (hb : Gives (binary source interpolation r) b u) (hu : (current u).endsLogical) :
    Gives (logical source interpolation ts) (.logical op a b) u := by
  have hand := (Lexeme.ends_of_logical hu).2.1
  have hright := conjunction_of_binary hb hand
  subst hq
  cases op with
  | and =>
    obtain ⟨tail, ha⟩ := ha
    obtain ⟨tail, hboth⟩ := conjunctionTail_and tail hb hand
    have hconjunction : conjunction source interpolation ts = .ok ⟨.logical .and a b, u, tail⟩ := by
      rw [conjunction, ha]
      exact hboth
    refine ⟨tail, ?_⟩
    rw [logical, hconjunction]
    exact logicalTail_ends hu
  | or =>
    obtain ⟨tail, ha⟩ := conjunction_of_binary ha rfl
    obtain ⟨tail, hboth⟩ := logicalTail_op tail rfl hright hu
    refine ⟨tail, ?_⟩
    rw [logical, ha]
    exact hboth
  | nullish =>
    obtain ⟨tail, ha⟩ := conjunction_of_binary ha rfl
    obtain ⟨tail, hboth⟩ := logicalTail_op tail rfl hright hu
    refine ⟨tail, ?_⟩
    rw [logical, ha]
    exact hboth

/-! ### Conditionals, and whole expressions -/

theorem conditional_of_logical (h : Gives (logical source interpolation ts) e r)
    (hr : (current r).isPunct "?" = false) : Gives (conditional source interpolation ts) e r := by
  obtain ⟨tail, h⟩ := h
  refine ⟨tail, ?_⟩
  rw [conditional, h]
  dsimp only [bind, Except.bind]
  rw [skip?_eq_none hr]
  rfl

theorem expect_cons (o : Nat) :
    expect source q (⟨.punct q, o⟩ :: r) = .ok ⟨r, .one _ r⟩ := by
  rw [expect, skip?_cons]

theorem conditional_question {o' : Nat} {r' : List Token}
    (ha : Gives (logical source interpolation ts) a (⟨.punct "?", o⟩ :: r))
    (hb : Gives (expr source interpolation r) b (⟨.punct ":", o'⟩ :: r'))
    (hc : Gives (expr source interpolation r') c u) :
    Gives (conditional source interpolation ts) (.conditional a b c) u := by
  obtain ⟨tail, ha⟩ := ha
  obtain ⟨tail', hb⟩ := hb
  obtain ⟨tail'', hc⟩ := hc
  have hcolon := (Tail.one ⟨.punct ":", o'⟩ r').trans (tail'.trans ((Tail.one _ r).trans tail))
  refine ⟨tail''.trans hcolon, ?_⟩
  rw [conditional, ha]
  dsimp only [bind, Except.bind]
  rw [skip?_cons]
  dsimp only
  rw [hb]
  dsimp only
  rw [expect_cons]
  dsimp only
  rw [hc]
  rfl

theorem expr_of_conditional (harrow : atArrow ts = false)
    (h : Gives (conditional source interpolation ts) e r) :
    Gives (expr source interpolation ts) e r := by
  obtain ⟨tail, h⟩ := h
  refine ⟨tail, ?_⟩
  rw [expr, harrow]
  exact h

theorem expr_of_binary (harrow : atArrow ts = false)
    (h : Gives (binary source interpolation ts) e r) (hr : (current r).endsExpr) :
    Gives (expr source interpolation ts) e r := by
  obtain ⟨hlogical, hquestion, -⟩ := Lexeme.ends_of_expr hr
  exact expr_of_conditional harrow
    (conditional_of_logical (logical_of_binary h hlogical) hquestion)

/-- The whole list is an expression that ends with it, or in front of a type cast. -/
theorem whole_eq_ok_iff (hts : current ts ≠ .eof) : whole source interpolation ts = .ok e ↔
    ∃ r, Gives (expr source interpolation ts) e r ∧
      (current r = .eof ∨ ∃ w, castKeywords.contains w ∧ current r = .ident w) := by
  unfold whole
  rw [if_neg hts]
  constructor
  · intro h
    obtain ⟨⟨value, r, tail⟩, he, h⟩ := ok_of_bind h
    dsimp only at h
    split at h
    · rename_i hr
      cases h
      exact ⟨r, ⟨tail, he⟩, .inl hr⟩
    · rename_i w hr
      split at h
      · rename_i hw
        cases h
        exact ⟨r, ⟨tail, he⟩, .inr ⟨w, hw, hr⟩⟩
      · cases h
    · cases h
  · rintro ⟨r, ⟨tail, he⟩, hr | ⟨w, hw, hr⟩⟩
    · rw [he]
      dsimp only [bind, Except.bind]
      rw [hr]
      rfl
    · rw [he]
      dsimp only [bind, Except.bind]
      rw [hr]
      exact if_pos hw

/-! ### Operands -/

theorem primary_string (v : String) :
    Gives (primary source interpolation (⟨.string v, o⟩ :: r)) (.string v) r := by
  rw [primary]
  exact ⟨_, rfl⟩

theorem primary_name {w : String} :
    Gives (primary source interpolation (⟨.ident w, o⟩ :: r))
      (.other (if literalKeywords.contains w then "literal" else "identifier") w) r := by
  rw [primary]
  exact ⟨_, rfl⟩

theorem primary_template {text : String} {t : Template} {es : List Expr}
    (h : t.interpolations.mapM interpolation = .ok es) :
    Gives (primary source interpolation (⟨.template text t, o⟩ :: r))
      (.template (t.quasis.map String.ofList) es) r := by
  rw [primary]
  dsimp only
  rw [h]
  exact ⟨_, rfl⟩

theorem primary_paren {o' : Nat}
    (h : Gives (expr source interpolation r) e (⟨.punct ")", o'⟩ :: u)) :
    Gives (primary source interpolation (⟨.punct "(", o⟩ :: r)) e u := by
  obtain ⟨tail, h⟩ := h
  rw [primary]
  dsimp only
  rw [h]
  dsimp only [bind, Except.bind]
  rw [skip?_eq_none (by rfl), expect_cons]
  exact ⟨_, rfl⟩

theorem primary_bracket (h : Gives (elements source interpolation r) es u) :
    Gives (primary source interpolation (⟨.punct "[", o⟩ :: r)) (.array es) u := by
  obtain ⟨tail, h⟩ := h
  rw [primary]
  dsimp only
  rw [h]
  exact ⟨_, rfl⟩

/-! ### Arguments and members -/

theorem spreadable_of_expr (hts : (current ts).isPunct "..." = false)
    (h : Gives (expr source interpolation ts) e r) :
    Gives (spreadable source interpolation ts) e r := by
  obtain ⟨tail, h⟩ := h
  refine ⟨tail, ?_⟩
  rw [spreadable, skip?_eq_none hts]
  exact h

theorem arguments_end : Gives (arguments source interpolation (⟨.punct ")", o⟩ :: r)) [] r := by
  rw [arguments, skip?_cons]
  exact ⟨_, rfl⟩

/-- The last argument may begin with an operator too. -/
theorem arguments_one (hclose : (current ts).isPunct ")" = false)
    (hspread : (current ts).isPunct "..." = false)
    (h : Gives (expr source interpolation ts) e (⟨.punct ")", o⟩ :: u)) :
    Gives (arguments source interpolation ts) [e] u := by
  obtain ⟨tail, h⟩ := spreadable_of_expr hspread h
  rw [arguments, skip?_eq_none hclose]
  dsimp only
  rw [h]
  dsimp only [bind, Except.bind]
  rw [skip?_eq_none (by rfl), expect_cons]
  exact ⟨_, rfl⟩

theorem arguments_last (hts : (current ts).startsOperand)
    (h : Gives (expr source interpolation ts) e (⟨.punct ")", o⟩ :: u)) :
    Gives (arguments source interpolation ts) [e] u := by
  obtain ⟨hclose, -, -, hspread, -⟩ := Lexeme.start_of_operand hts
  exact arguments_one hclose hspread h

theorem arguments_more (hts : (current ts).startsOperand)
    (h : Gives (expr source interpolation ts) e (⟨.punct ",", o⟩ :: r))
    (hargs : Gives (arguments source interpolation r) args u) :
    Gives (arguments source interpolation ts) (e :: args) u := by
  obtain ⟨hclose, -, -, hspread, -⟩ := Lexeme.start_of_operand hts
  obtain ⟨tail, h⟩ := spreadable_of_expr hspread h
  obtain ⟨tail', hargs⟩ := hargs
  rw [arguments, skip?_eq_none hclose]
  dsimp only
  rw [h]
  dsimp only [bind, Except.bind]
  rw [skip?_cons]
  dsimp only
  rw [hargs]
  exact ⟨_, rfl⟩

theorem elements_end : Gives (elements source interpolation (⟨.punct "]", o⟩ :: r)) [] r := by
  rw [elements, skip?_cons]
  exact ⟨_, rfl⟩

theorem elements_hole (h : Gives (elements source interpolation r) es u) :
    Gives (elements source interpolation (⟨.punct ",", o⟩ :: r)) (none :: es) u := by
  obtain ⟨tail, h⟩ := h
  rw [elements, skip?_eq_none (by rfl), skip?_cons]
  dsimp only
  rw [h]
  exact ⟨_, rfl⟩

/-- The last member may begin with an operator too. -/
theorem elements_one (hclose : (current ts).isPunct "]" = false)
    (hcomma : (current ts).isPunct "," = false) (hspread : (current ts).isPunct "..." = false)
    (h : Gives (expr source interpolation ts) e (⟨.punct "]", o⟩ :: u)) :
    Gives (elements source interpolation ts) [some e] u := by
  obtain ⟨tail, h⟩ := spreadable_of_expr hspread h
  rw [elements, skip?_eq_none hclose, skip?_eq_none hcomma]
  dsimp only
  rw [h]
  dsimp only [bind, Except.bind]
  rw [skip?_eq_none (by rfl), expect_cons]
  exact ⟨_, rfl⟩

theorem elements_last (hts : (current ts).startsOperand)
    (h : Gives (expr source interpolation ts) e (⟨.punct "]", o⟩ :: u)) :
    Gives (elements source interpolation ts) [some e] u := by
  obtain ⟨-, hclose, hcomma, hspread, -⟩ := Lexeme.start_of_operand hts
  exact elements_one hclose hcomma hspread h

theorem elements_more (hts : (current ts).startsOperand)
    (h : Gives (expr source interpolation ts) e (⟨.punct ",", o⟩ :: r))
    (hes : Gives (elements source interpolation r) es u) :
    Gives (elements source interpolation ts) (some e :: es) u := by
  obtain ⟨-, hclose, hcomma, hspread, -⟩ := Lexeme.start_of_operand hts
  obtain ⟨tail, h⟩ := spreadable_of_expr hspread h
  obtain ⟨tail', hes⟩ := hes
  rw [elements, skip?_eq_none hclose, skip?_eq_none hcomma]
  dsimp only
  rw [h]
  dsimp only [bind, Except.bind]
  rw [skip?_cons]
  dsimp only
  rw [hes]
  exact ⟨_, rfl⟩

/-! ### Calls -/

/-- Accesses to members, one after another. -/
inductive Members : List Token → Prop
  | nil : Members []
  | cons {ms : List Token} (o o' : Nat) (w : String) : Members ms →
    Members (⟨.punct ".", o⟩ :: ⟨.ident w, o'⟩ :: ms)

theorem postfixTail_member {named : Bool} {o' : Nat} {w : String}
    (h : Tail (⟨.punct ".", o⟩ :: ⟨.ident w, o'⟩ :: r) ts) :
    postfixTail source interpolation ts named ⟨e, ⟨.punct ".", o⟩ :: ⟨.ident w, o'⟩ :: r, h⟩ =
      postfixTail source interpolation ts named ⟨opaqueExpr source "member" ts r, r,
        (Tail.one _ r).trans ((Tail.one _ _).trans h)⟩ := by
  rw [postfixTail]
  dsimp only
  rw [skipIf?_cons (by rfl)]
  dsimp only
  rw [if_neg (by simp [current, Lexeme.isPunct]), skipIf?_cons (by rfl)]

theorem postfixTail_call (h : Tail (⟨.punct "(", o⟩ :: r) ts)
    (hargs : Gives (arguments source interpolation r) args u) (hu : (current u).endsOperand) :
    Gives (postfixTail source interpolation ts true ⟨e, ⟨.punct "(", o⟩ :: r, h⟩)
      (.call (textBetween source ts (⟨.punct "(", o⟩ :: r)) args) u := by
  obtain ⟨tail, hargs⟩ := hargs
  rw [postfixTail]
  dsimp only
  rw [skipIf?_eq_none (by rfl), skip?_eq_none (by rfl), skip?_cons]
  dsimp only
  rw [hargs]
  dsimp only [bind, Except.bind]
  rw [postfixTail_ends hu]
  exact ⟨_, rfl⟩

theorem postfixTail_members {ms : List Token} (hms : Members ms)
    (h : Tail (ms ++ ⟨.punct "(", o⟩ :: r) ts)
    (hargs : Gives (arguments source interpolation r) args u) (hu : (current u).endsOperand) :
    Gives (postfixTail source interpolation ts true ⟨e, ms ++ ⟨.punct "(", o⟩ :: r, h⟩)
      (.call (textBetween source ts (⟨.punct "(", o⟩ :: r)) args) u := by
  induction hms generalizing e with
  | nil => exact postfixTail_call h hargs hu
  | @cons ms o₁ o₂ w _ ih =>
    show Gives (postfixTail source interpolation ts true
      ⟨e, ⟨.punct ".", o₁⟩ :: ⟨.ident w, o₂⟩ :: (ms ++ ⟨.punct "(", o⟩ :: r), h⟩) _ _
    rw [postfixTail_member]
    exact ih _

theorem postfixed_call {w : String} {o' : Nat} {ms : List Token}
    (hw : literalKeywords.contains w = false) (hms : Members ms)
    (hargs : Gives (arguments source interpolation r) args u) (hu : (current u).endsOperand) :
    Gives (postfixed source interpolation (⟨.ident w, o⟩ :: (ms ++ ⟨.punct "(", o'⟩ :: r)))
      (.call (textBetween source (⟨.ident w, o⟩ :: (ms ++ ⟨.punct "(", o'⟩ :: r))
        (⟨.punct "(", o'⟩ :: r)) args) u := by
  obtain ⟨tail, hname⟩ : Gives (primary source interpolation
      (⟨.ident w, o⟩ :: (ms ++ ⟨.punct "(", o'⟩ :: r))) _ _ := primary_name
  rw [hw] at hname
  rw [postfixed, hname]
  exact postfixTail_members hms tail hargs hu

/-! ### No arrow -/

/-- What is left behind the bracket that closes `depth` open ones. -/
def closeRest? (depth : Nat) (ts : List Token) : Option (List Token) :=
  (closeAll? Lexeme.opensBracket Lexeme.closesBracket depth ts).map (·.1)

theorem closeRest?_cons {depth : Nat} (hl : l ≠ .eof) : closeRest? depth (⟨l, o⟩ :: r) =
    if l.closesBracket ∧ depth ≤ 1 then some r
    else closeRest? (if l.opensBracket then depth + 1
      else if l.closesBracket then depth - 1 else depth) r := by
  rw [closeRest?, closeAll?, if_neg hl]
  dsimp only
  split
  · rfl
  · rw [Option.map_map]
    rfl

/-- The brackets in the tokens match, and the text does not end there. -/
def Nested (ts : List Token) : Prop :=
  ∀ depth r, closeRest? (depth + 1) (ts ++ r) = closeRest? (depth + 1) r

namespace Nested

variable {l' : Lexeme} {o' : Nat} {ts' : List Token}

theorem nil : Nested [] := fun _ _ => rfl

theorem append (h : Nested ts) (h' : Nested ts') : Nested (ts ++ ts') := by
  intro depth r
  rw [List.append_assoc, h, h']

theorem one (hopen : l.opensBracket = false) (hclose : l.closesBracket = false) (hl : l ≠ .eof) :
    Nested [⟨l, o⟩] := by
  intro depth r
  show closeRest? (depth + 1) (⟨l, o⟩ :: r) = _
  rw [closeRest?_cons hl, if_neg (by simp [hclose]), if_neg (by simp [hopen]),
    if_neg (by simp [hclose])]

theorem brackets (hopen : l.opensBracket) (hclose : l.closesBracket = false) (hl : l ≠ .eof)
    (hopen' : l'.opensBracket = false) (hclose' : l'.closesBracket) (hl' : l' ≠ .eof)
    (h : Nested ts) : Nested (⟨l, o⟩ :: (ts ++ [⟨l', o'⟩])) := by
  intro depth r
  rw [List.cons_append, List.append_assoc, closeRest?_cons hl, if_neg (by simp [hclose]),
    if_pos hopen, h]
  show closeRest? (depth + 1 + 1) (⟨l', o'⟩ :: r) = _
  rw [closeRest?_cons hl', if_neg (by omega), if_neg (by simp [hopen']), if_pos hclose',
    Nat.add_sub_cancel]

theorem parens (h : Nested ts) : Nested (⟨.punct "(", o⟩ :: (ts ++ [⟨.punct ")", o'⟩])) :=
  .brackets (by decide) (by decide) nofun (by decide) (by decide) nofun h

theorem squares (h : Nested ts) : Nested (⟨.punct "[", o⟩ :: (ts ++ [⟨.punct "]", o'⟩])) :=
  .brackets (by decide) (by decide) nofun (by decide) (by decide) nofun h

end Nested

theorem Members.nested {ms : List Token} (hms : Members ms) : Nested ms := by
  induction hms with
  | nil => exact .nil
  | cons o o' w _ ih =>
    have hpoint : Nested [⟨.punct ".", o⟩] := .one (by decide) (by decide) nofun
    have hname : Nested [⟨.ident w, o'⟩] := .one rfl rfl nofun
    exact hpoint.append (hname.append ih)

theorem atArrow_paren {o' : Nat} (h : Nested ts) (hr : (current r).isPunct "=>" = false) :
    atArrow (⟨.punct "(", o⟩ :: (ts ++ ⟨.punct ")", o'⟩ :: r)) = false := by
  have hclose : closeRest? 1 (ts ++ ⟨.punct ")", o'⟩ :: r) = some r := by
    rw [h 0, closeRest?_cons (by decide), if_pos ⟨by decide, Nat.le_refl 1⟩]
  have hmap : atArrow (⟨.punct "(", o⟩ :: (ts ++ ⟨.punct ")", o'⟩ :: r)) =
      ((closeRest? 1 (ts ++ ⟨.punct ")", o'⟩ :: r)).map
        fun r => (current r).isPunct "=>").getD false := by
    rw [closeRest?, Option.map_map]
    rfl
  rw [hmap, hclose]
  exact hr

theorem atArrow_name {w : String} (hw : w ≠ "async") (hr : (current r).isPunct "=>" = false) :
    atArrow (⟨.ident w, o⟩ :: r) = false := by
  simp [atArrow, hr, hw]

end Grammar

end DesignTokens.Script
