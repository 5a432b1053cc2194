import Mathlib
import DesignTokens.Proofs.Script.Layout
import DesignTokens.Proofs.Script.Parse

/-!
# Expressions do not depend on the layout

Positions of tokens serve only to cut texts out of the source and to place errors. So on two lists
with the same lexemes (`Twin`) every rule of the grammar does the same: it fails for one cause, or
gives expressions that are equal without those texts (`Expr.bare`), and leaves twins. There is one
lemma per rule, given that the rules it calls on what is left agree (`RulesAlike`). By induction on
the length of the list all do (`rules_alike`), and `layout_irrelevant` carries it over to the
layouts of a text.
-/

namespace DesignTokens.Script

/-! ### Expressions without the texts they were read from -/

namespace Expr

mutual

/-- The expression without the source of what is not looked into, and without names of callees. -/
def bare : Expr → Expr
  | string v => .string v
  | template qs es => .template qs (bareArguments es)
  | call _ args => .call "" (bareArguments args)
  | array es => .array (bareMembers es)
  | logical op l r => .logical op l.bare r.bare
  | conditional t c a => .conditional t.bare c.bare a.bare
  | other kind _ => .other kind ""
termination_by structural e => e

def bareArguments : List Expr → List Expr
  | [] => []
  | e :: es => e.bare :: bareArguments es
termination_by structural es => es

def bareMembers : List (Option Expr) → List (Option Expr)
  | [] => []
  | e :: es => bareHole e :: bareMembers es
termination_by structural es => es

def bareHole : Option Expr → Option Expr
  | none => none
  | some e => some e.bare
termination_by structural e => e

end

mutual

theorem classNames_bare : (e : Expr) → e.bare.classNames = e.classNames
  | string _ => rfl
  | template _ _ => rfl
  | call _ args => argumentClassNames_bare args
  | array es => memberClassNames_bare es
  | logical _ l r => congrArg₂ (· ++ ·) (classNames_bare r) (classNames_bare l)
  | conditional _ c a => congrArg₂ (· ++ ·) (classNames_bare c) (classNames_bare a)
  | other _ _ => rfl
termination_by structural e => e

theorem argumentClassNames_bare :
    (es : List Expr) → argumentClassNames (bareArguments es) = argumentClassNames es
  | [] => rfl
  | e :: es => congrArg₂ (· ++ ·) (classNames_bare e) (argumentClassNames_bare es)
termination_by structural es => es

theorem memberClassNames_bare :
    (es : List (Option Expr)) → memberClassNames (bareMembers es) = memberClassNames es
  | [] => rfl
  | e :: es => congrArg₂ (· ++ ·) (valueClassNames_bare e) (memberClassNames_bare es)
termination_by structural es => es

theorem valueClassNames_bare : (e : Option Expr) → valueClassNames (bareHole e) = valueClassNames e
  | none => rfl
  | some e => classNames_bare e
termination_by structural e => e

end

variable {e e' : Expr}

theorem isIdentifier_of_bare (h : e.bare = e'.bare) : e.isIdentifier = e'.isIdentifier := by
  have hbare (e : Expr) : e.bare.isIdentifier = e.isIdentifier := by cases e <;> rfl
  rw [← hbare e, h, hbare e']

end Expr

/-! ### Outcomes that agree -/

/-- The errors have one cause; their places may differ. -/
inductive ParseError.Alike : ParseError → ParseError → Prop
  | malformed (cause : SyntaxCause) (pos pos' : Nat) :
    Alike (.malformed cause pos) (.malformed cause pos')
  | symbolicDigit (d : SymbolicDigit) : Alike (.symbolicDigit d) (.symbolicDigit d)

/-- Both fail for one cause, or both succeed with related results. -/
def Agree {α β : Type} (R : α → β → Prop) : Except ParseError α → Except ParseError β → Prop
  | .ok a, .ok b => R a b
  | .error e, .error e' => e.Alike e'
  | _, _ => False

theorem ParseError.Alike.refl (e : ParseError) : e.Alike e := by
  cases e with
  | malformed => exact .malformed ..
  | symbolicDigit => exact .symbolicDigit _

namespace Agree

theorem refl {α : Type} (p : Except ParseError α) : Agree Eq p p := by
  cases p with
  | ok a => exact rfl
  | error e => exact ParseError.Alike.refl e

variable {α β γ δ : Type} {R : α → β → Prop} {S : γ → δ → Prop} {p : Except ParseError α}
  {p' : Except ParseError β} {f : α → Except ParseError γ} {f' : β → Except ParseError δ}

theorem bind (h : Agree R p p') (hf : ∀ a b, R a b → Agree S (f a) (f' b)) :
    Agree S (p >>= f) (p' >>= f') := by
  match p, p', h with
  | .ok a, .ok b, h => exact hf a b h
  | .error e, .error e', h => exact h

theorem mono {R' : α → β → Prop} (h : Agree R p p') (hR : ∀ a b, R a b → R' a b) :
    Agree R' p p' := by
  match p, p', h with
  | .ok a, .ok b, h => exact hR a b h
  | .error e, .error e', h => exact h

theorem map {f : α → γ} {f' : β → δ} (h : Agree R p p') (hf : ∀ a b, R a b → S (f a) (f' b)) :
    Agree S (p.map f) (p'.map f') := by
  match p, p', h with
  | .ok a, .ok b, h => exact hf a b h
  | .error e, .error e', h => exact h

end Agree

namespace Grammar

/-- The lists have the same lexemes, and their interpolations are read in the same way. -/
structure Twin (i i' : List Char → Except SymbolicDigit Expr) (ts ts' : List Token) : Prop where
  lexemes : lexemes ts = lexemes ts'
  readers : ∀ x ∈ tokenInterpolations ts, i x = i' x

section

-- the readers of interpolations of the two runs, and their sources
variable {i i' : List Char → Except SymbolicDigit Expr} {source source' : List Char}
variable {r r' ts ts' : List Token} {t : Token}

namespace Twin

theorem nil : Twin i i' [] [] := ⟨rfl, fun _ h => absurd h List.not_mem_nil⟩

theorem of_cons (h : Twin i i' (t :: r) (t' :: r')) :
    t.lexeme = t'.lexeme ∧ (∀ x ∈ t.lexeme.interpolations, i x = i' x) ∧ Twin i i' r r' := by
  obtain ⟨hlexeme, hlexemes⟩ := List.cons.inj h.lexemes
  obtain ⟨hreader, hreaders⟩ := List.forall_mem_append.1 h.readers
  exact ⟨hlexeme, hreader, hlexemes, hreaders⟩

theorem exists_cons (h : Twin i i' (t :: r) ts') : ∃ o r', ts' = ⟨t.lexeme, o⟩ :: r' ∧
    (∀ x ∈ t.lexeme.interpolations, i x = i' x) ∧ Twin i i' r r' := by
  cases ts' with
  | nil => cases h.lexemes
  | cons t' r' =>
    obtain ⟨hlexeme, hlexemes⟩ := List.cons.inj h.lexemes
    obtain ⟨hreader, hreaders⟩ := List.forall_mem_append.1 h.readers
    obtain ⟨l, o⟩ := t'
    obtain rfl : t.lexeme = l := hlexeme
    exact ⟨o, r', rfl, hreader, hlexemes, hreaders⟩

theorem eq_nil (h : Twin i i' [] ts') : ts' = [] := List.map_eq_nil_iff.1 h.lexemes.symm

theorem current (h : Twin i i' ts ts') : current ts' = current ts := by
  cases ts with
  | nil => rw [h.eq_nil]
  | cons t r =>
    obtain ⟨o, r', rfl, -, -⟩ := h.exists_cons
    rfl

theorem tail (h : Twin i i' ts ts') : Twin i i' ts.tail ts'.tail := by
  cases ts with
  | nil =>
    obtain rfl := h.eq_nil
    exact h
  | cons t r =>
    obtain ⟨o, r', rfl, -, hr⟩ := h.exists_cons
    exact hr

end Twin

/-- Both readers find nothing, or they leave twins. -/
def Skips (i i' : List Char → Except SymbolicDigit Expr)
    (q : Option { r : List Token // Tail r ts }) (q' : Option { r : List Token // Tail r ts' }) :
    Prop :=
  q = none ∧ q' = none ∨ ∃ r r', q = some r ∧ q' = some r' ∧ Twin i i' r.1 r'.1

theorem Twin.skipIf (h : Twin i i' ts ts') (p : Lexeme → Bool) :
    Skips i i' (skipIf? p ts) (skipIf? p ts') := by
  cases ts with
  | nil =>
    rw [h.eq_nil]
    exact .inl ⟨rfl, rfl⟩
  | cons t r =>
    obtain ⟨o, r', rfl, -, hr⟩ := h.exists_cons
    by_cases hp : p t.lexeme
    · exact .inr ⟨_, _, if_pos hp, if_pos hp, hr⟩
    · exact .inl ⟨if_neg hp, if_neg hp⟩

theorem Twin.skip (h : Twin i i' ts ts') (q : String) : Skips i i' (skip? q ts) (skip? q ts') :=
  h.skipIf _

theorem Twin.closeAll (h : Twin i i' ts ts') (opens closes : Lexeme → Bool) (depth : Nat) :
    Skips i i' (closeAll? opens closes depth ts) (closeAll? opens closes depth ts') := by
  induction ts generalizing ts' depth with
  | nil =>
    rw [h.eq_nil]
    exact .inl ⟨rfl, rfl⟩
  | cons t r ih =>
    obtain ⟨o, r', rfl, -, hr⟩ := h.exists_cons
    rw [closeAll?, closeAll?]
    dsimp only
    split
    · exact .inl ⟨rfl, rfl⟩
    split
    · exact .inr ⟨_, _, rfl, rfl, hr⟩
    rcases ih hr (if opens t.lexeme then depth + 1
      else if closes t.lexeme then depth - 1 else depth) with ⟨hq, hq'⟩ | ⟨q, q', hq, hq', hq''⟩
    · exact .inl ⟨by rw [hq]; rfl, by rw [hq']; rfl⟩
    · exact .inr ⟨_, _, by rw [hq]; rfl, by rw [hq']; rfl, hq''⟩

theorem Twin.atArrow (h : Twin i i' ts ts') : atArrow ts' = atArrow ts := by
  cases ts with
  | nil => rw [h.eq_nil]
  | cons t r =>
    obtain ⟨o, r', rfl, -, hr⟩ := h.exists_cons
    unfold Script.atArrow
    dsimp only
    rw [hr.current]
    rcases hr.closeAll Lexeme.opensBracket Lexeme.closesBracket 1 with
      ⟨hq, hq'⟩ | ⟨q, q', hq, hq', htwin⟩
    · rw [hq, hq']
      rfl
    · rw [hq, hq']
      simp only [Option.map_some, htwin.current]

theorem Twin.logicalOp (h : Twin i i' ts ts') :
    logicalOp? ts = none ∧ logicalOp? ts' = none ∨ ∃ op r r', logicalOp? ts = some (op, r) ∧
      logicalOp? ts' = some (op, r') ∧ Twin i i' r.1 r'.1 := by
  unfold logicalOp?
  rcases h.skip "||" with ⟨hor, hor'⟩ | ⟨q, q', hor, hor', hr⟩
  · rw [hor, hor']
    rcases h.skip "??" with ⟨hq, hq'⟩ | ⟨q, q', hq, hq', hr⟩
    · rw [hq, hq']
      exact .inl ⟨rfl, rfl⟩
    · rw [hq, hq']
      exact .inr ⟨.nullish, q, q', rfl, rfl, hr⟩
  · rw [hor, hor']
    exact .inr ⟨.or, q, q', rfl, rfl, hr⟩

/-! ### Parts without expressions -/

/-- The rules agree, and leave twins. -/
abbrev MovesAlike (i i' : List Char → Except SymbolicDigit Expr)
    (p : Except ParseError { r : List Token // Tail r ts })
    (p' : Except ParseError { r : List Token // Tail r ts' }) : Prop :=
  Agree (fun r r' => Twin i i' r.1 r'.1) p p'

theorem agree_failAt {α β : Type} {R : α → β → Prop} (cause : SyntaxCause) (ts ts' : List Token) :
    Agree R (failAt source cause ts) (failAt source' cause ts') :=
  .malformed cause _ _

theorem Twin.expect (h : Twin i i' ts ts') (q : String) :
    MovesAlike i i' (expect source q ts) (expect source' q ts') := by
  unfold Grammar.expect
  rcases h.skip q with ⟨hq, hq'⟩ | ⟨r, r', hq, hq', hr⟩
  · rw [hq, hq', h.current]
    exact agree_failAt ..
  · rw [hq, hq']
    exact hr

theorem Twin.skipBlock (h : Twin i i' ts ts') :
    MovesAlike i i' (skipBlock source ts) (skipBlock source' ts') := by
  refine (h.expect "\x7b").bind fun body body' hbody => ?_
  rcases hbody.closeAll (·.isPunct "\x7b") (·.isPunct "\x7d") 1 with
    ⟨hq, hq'⟩ | ⟨q, q', hq, hq', hr⟩
  · rw [hq, hq']
    exact .malformed ..
  · rw [hq, hq']
    exact hr

theorem Twin.skipArrowHead (h : Twin i i' ts ts') :
    MovesAlike i i' (skipArrowHead source ts) (skipArrowHead source' ts') := by
  unfold Grammar.skipArrowHead
  dsimp only
  have hbare : Twin i i' (if Script.current ts = .ident "async" then ts.tail else ts)
      (if Script.current ts' = .ident "async" then ts'.tail else ts') := by
    rw [h.current]
    split
    · exact h.tail
    · exact h
  rcases hbare.skip "(" with ⟨hq, hq'⟩ | ⟨q, q', hq, hq', hr⟩
  · rw [hq, hq']
    exact (hbare.tail.expect "=>").bind fun r r' hr => hr
  · rw [hq, hq']
    dsimp only
    rcases hr.closeAll Lexeme.opensBracket Lexeme.closesBracket 1 with
      ⟨hq, hq'⟩ | ⟨q, q', hq, hq', hr⟩
    · rw [hq, hq']
      exact agree_failAt ..
    · rw [hq, hq']
      exact (hr.expect "=>").bind fun r r' hr => hr

/-! ### The rules

Each rule agrees on twins if the rules that it calls do; a rule called on what is left is given for
all shorter lists. -/

/-- The rules agree up to `f`, and leave twins. -/
abbrev ReadsAlike {α γ : Type} (i i' : List Char → Except SymbolicDigit Expr) (f : α → γ)
    (p : Parsed α ts) (p' : Parsed α ts') : Prop :=
  Agree (fun a a' => f a.value = f a'.value ∧ Twin i i' a.rest a'.rest) p p'

/-- How the rules that are called on what is left agree, when called on twins. -/
structure RulesAlike (source source' : List Char) (i i' : List Char → Except SymbolicDigit Expr)
    (ts ts' : List Token) : Prop where
  expr : ReadsAlike i i' Expr.bare (expr source i ts) (expr source' i' ts')
  conjunction : ReadsAlike i i' Expr.bare (conjunction source i ts) (conjunction source' i' ts')
  binary : ReadsAlike i i' Expr.bare (binary source i ts) (binary source' i' ts')
  unary : ReadsAlike i i' Expr.bare (unary source i ts) (unary source' i' ts')
  arguments : ReadsAlike i i' Expr.bareArguments (arguments source i ts) (arguments source' i' ts')
  elements : ReadsAlike i i' Expr.bareMembers (elements source i ts) (elements source' i' ts')
  sequenceTail : ReadsAlike i i' (fun _ => ()) (sequenceTail source i ts)
    (sequenceTail source' i' ts')

variable (later : ∀ r r', Tail r ts → Twin i i' r r' → RulesAlike source source' i i' r r')
include later

theorem arrow_alike (twin : Twin i i' ts ts') :
    ReadsAlike i i' Expr.bare (arrow source i ts) (arrow source' i' ts') := by
  rw [arrow, arrow]
  refine twin.skipArrowHead.bind fun head head' hhead => ?_
  refine Agree.bind (R := fun r r' => Twin i i' r.1 r'.1) ?_ fun r r' hr => ⟨rfl, hr⟩
  rw [hhead.current]
  split
  · exact hhead.skipBlock
  · exact (later _ _ head.2 hhead).expr.map fun _ _ h => h.2

theorem conditional_alike
    (hlogical : ReadsAlike i i' Expr.bare (logical source i ts) (logical source' i' ts')) :
    ReadsAlike i i' Expr.bare (conditional source i ts) (conditional source' i' ts') := by
  rw [conditional, conditional]
  refine hlogical.bind fun test test' h => ?_
  obtain ⟨htest, hrest⟩ := h
  rcases hrest.skip "?" with ⟨hq, hq'⟩ | ⟨q, q', hq, hq', hr⟩
  · rw [hq, hq']
    exact ⟨htest, hrest⟩
  · rw [hq, hq']
    dsimp only
    have hq := q.2.trans test.tail
    refine (later _ _ hq hr).expr.bind fun c c' h => ?_
    obtain ⟨hc, hrest⟩ := h
    refine (hrest.expect ":").bind fun colon colon' hr => ?_
    have hcolon := colon.2.trans (c.tail.trans hq)
    refine (later _ _ hcolon hr).expr.bind fun a a' h => ⟨?_, h.2⟩
    simp only [Read.after, Read.map, Expr.bare, htest, hc, h.1]

theorem logicalTail_alike {left : Read Expr ts} {left' : Read Expr ts'}
    (hleft : left.value.bare = left'.value.bare) (hrest : Twin i i' left.rest left'.rest) :
    ReadsAlike i i' Expr.bare (logicalTail source i ts left)
      (logicalTail source' i' ts' left') := by
  induction hn : left.rest.length using Nat.strongRecOn generalizing left left' with
  | ind n ih =>
    subst hn
    rw [logicalTail, logicalTail]
    rcases hrest.logicalOp with ⟨hq, hq'⟩ | ⟨op, q, q', hq, hq', hr⟩
    · rw [hq, hq']
      exact ⟨hleft, hrest⟩
    · rw [hq, hq']
      dsimp only
      refine (later _ _ (q.2.trans left.tail) hr).conjunction.bind fun right right' h => ?_
      obtain ⟨hright, hrest⟩ := h
      refine ih _ (right.tail.trans q.2).length_lt ?_ hrest rfl
      simp only [Expr.bare, hleft, hright]

theorem logical_alike
    (hconjunction : ReadsAlike i i' Expr.bare (conjunction source i ts)
      (conjunction source' i' ts')) :
    ReadsAlike i i' Expr.bare (logical source i ts) (logical source' i' ts') := by
  rw [logical, logical]
  exact hconjunction.bind fun _ _ h => logicalTail_alike later h.1 h.2

theorem conjunctionTail_alike {left : Read Expr ts} {left' : Read Expr ts'}
    (hleft : left.value.bare = left'.value.bare) (hrest : Twin i i' left.rest left'.rest) :
    ReadsAlike i i' Expr.bare (conjunctionTail source i ts left)
      (conjunctionTail source' i' ts' left') := by
  induction hn : left.rest.length using Nat.strongRecOn generalizing left left' with
  | ind n ih =>
    subst hn
    rw [conjunctionTail, conjunctionTail]
    rcases hrest.skip "&&" with ⟨hq, hq'⟩ | ⟨q, q', hq, hq', hr⟩
    · rw [hq, hq']
      exact ⟨hleft, hrest⟩
    · rw [hq, hq']
      dsimp only
      refine (later _ _ (q.2.trans left.tail) hr).binary.bind fun right right' h => ?_
      obtain ⟨hright, hrest⟩ := h
      refine ih _ (right.tail.trans q.2).length_lt ?_ hrest rfl
      simp only [Expr.bare, hleft, hright]

theorem conjunction_alike
    (hbinary : ReadsAlike i i' Expr.bare (binary source i ts) (binary source' i' ts')) :
    ReadsAlike i i' Expr.bare (conjunction source i ts) (conjunction source' i' ts') := by
  rw [conjunction, conjunction]
  exact hbinary.bind fun _ _ h => conjunctionTail_alike later h.1 h.2

theorem binaryTail_alike {left : Read Expr ts} {left' : Read Expr ts'}
    (hleft : left.value.bare = left'.value.bare) (hrest : Twin i i' left.rest left'.rest) :
    ReadsAlike i i' Expr.bare (binaryTail source i ts left) (binaryTail source' i' ts' left') := by
  induction hn : left.rest.length using Nat.strongRecOn generalizing left left' with
  | ind n ih =>
    subst hn
    rw [binaryTail, binaryTail]
    rcases hrest.skipIf Lexeme.isBinary with ⟨hq, hq'⟩ | ⟨q, q', hq, hq', hr⟩
    · rw [hq, hq']
      exact ⟨hleft, hrest⟩
    · rw [hq, hq']
      dsimp only
      refine (later _ _ (q.2.trans left.tail) hr).unary.bind fun right right' h => ?_
      exact ih _ (right.tail.trans q.2).length_lt rfl h.2 rfl

theorem binary_alike
    (hunary : ReadsAlike i i' Expr.bare (unary source i ts) (unary source' i' ts')) :
    ReadsAlike i i' Expr.bare (binary source i ts) (binary source' i' ts') := by
  rw [binary, binary]
  exact hunary.bind fun _ _ h => binaryTail_alike later h.1 h.2

theorem unary_alike (twin : Twin i i' ts ts')
    (hpostfixed : ReadsAlike i i' Expr.bare (postfixed source i ts) (postfixed source' i' ts')) :
    ReadsAlike i i' Expr.bare (unary source i ts) (unary source' i' ts') := by
  rw [unary, unary]
  rcases twin.skipIf Lexeme.isUnary with ⟨hq, hq'⟩ | ⟨q, q', hq, hq', hr⟩
  · rw [hq, hq']
    exact hpostfixed
  · rw [hq, hq']
    dsimp only
    exact (later _ _ q.2 hr).unary.bind fun _ _ h => ⟨rfl, h.2⟩

/-- Whether a name is called depends on the shape of the callee only. -/
theorem postfixTail_alike (named : Bool) {e : Read Expr ts} {e' : Read Expr ts'}
    (he : e.value.bare = e'.value.bare) (hrest : Twin i i' e.rest e'.rest) :
    ReadsAlike i i' Expr.bare (postfixTail source i ts named e)
      (postfixTail source' i' ts' named e') := by
  induction hn : e.rest.length using Nat.strongRecOn generalizing named e e' with
  | ind n ih =>
    subst hn
    rw [postfixTail, postfixTail]
    rcases hrest.skipIf isMemberAccess with ⟨hq, hq'⟩ | ⟨q, q', hq, hq', hr⟩
    case inr =>
      rw [hq, hq']
      dsimp only
      rw [hr.current]
      split
      · exact ih _ q.2.length_lt named he hr rfl
      · rcases hr.skipIf Lexeme.isIdent with ⟨hname, hname'⟩ | ⟨r, r', hname, hname', hr⟩
        · rw [hname, hname']
          exact agree_failAt ..
        · rw [hname, hname']
          exact ih _ (r.2.trans q.2).length_lt named rfl hr rfl
    rw [hq, hq']
    dsimp only
    rcases hrest.skip "[" with ⟨hq, hq'⟩ | ⟨q, q', hq, hq', hr⟩
    case inr =>
      rw [hq, hq']
      dsimp only
      refine (later _ _ (q.2.trans e.tail) hr).expr.bind fun index index' h => ?_
      refine (h.2.expect "]").bind fun r r' hr => ?_
      exact ih _ (r.2.trans (index.tail.trans q.2)).length_lt false rfl hr rfl
    rw [hq, hq']
    dsimp only
    rcases hrest.skip "(" with ⟨hq, hq'⟩ | ⟨q, q', hq, hq', hr⟩
    case inr =>
      rw [hq, hq']
      dsimp only
      refine (later _ _ (q.2.trans e.tail) hr).arguments.bind fun args args' h => ?_
      exact ih _ (args.tail.trans q.2).length_lt false (congrArg (Expr.call "") h.1) h.2 rfl
    rw [hq, hq']
    dsimp only
    rcases hrest.skip "!" with ⟨hq, hq'⟩ | ⟨q, q', hq, hq', hr⟩
    case inr =>
      rw [hq, hq']
      dsimp only
      rw [hr.current]
      split
      · exact ⟨he, hrest⟩
      · exact ih _ q.2.length_lt named he hr rfl
    rw [hq, hq']
    rcases hrest.skipIf Lexeme.isTemplate with ⟨hq, hq'⟩ | ⟨q, q', hq, hq', hr⟩
    · rw [hq, hq']
      exact ⟨he, hrest⟩
    · rw [hq, hq']
      dsimp only
      split
      · exact ih _ q.2.length_lt false rfl hr rfl
      · exact ⟨he, hrest⟩

theorem postfixed_alike
    (hprimary : ReadsAlike i i' Expr.bare (primary source i ts) (primary source' i' ts')) :
    ReadsAlike i i' Expr.bare (postfixed source i ts) (postfixed source' i' ts') := by
  rw [postfixed, postfixed]
  refine hprimary.bind fun e e' h => ?_
  obtain ⟨he, hrest⟩ := h
  rw [← Expr.isIdentifier_of_bare he]
  exact postfixTail_alike later _ he hrest

theorem expr_alike (twin : Twin i i' ts ts')
    (hconditional : ReadsAlike i i' Expr.bare (conditional source i ts)
      (conditional source' i' ts')) :
    ReadsAlike i i' Expr.bare (expr source i ts) (expr source' i' ts') := by
  rw [expr, expr, twin.atArrow]
  split
  · exact arrow_alike later twin
  · exact hconditional

theorem spreadable_alike (twin : Twin i i' ts ts')
    (hexpr : ReadsAlike i i' Expr.bare (expr source i ts) (expr source' i' ts')) :
    ReadsAlike i i' Expr.bare (spreadable source i ts) (spreadable source' i' ts') := by
  rw [spreadable, spreadable]
  rcases twin.skip "..." with ⟨hq, hq'⟩ | ⟨q, q', hq, hq', hr⟩
  · rw [hq, hq']
    exact hexpr
  · rw [hq, hq']
    exact (later _ _ q.2 hr).expr.bind fun _ _ h => ⟨rfl, h.2⟩

theorem arguments_alike (twin : Twin i i' ts ts')
    (hspreadable : ReadsAlike i i' Expr.bare (spreadable source i ts) (spreadable source' i' ts')) :
    ReadsAlike i i' Expr.bareArguments (arguments source i ts) (arguments source' i' ts') := by
  rw [arguments, arguments]
  rcases twin.skip ")" with ⟨hq, hq'⟩ | ⟨q, q', hq, hq', hr⟩
  case inr =>
    rw [hq, hq']
    exact ⟨rfl, hr⟩
  rw [hq, hq']
  dsimp only
  refine hspreadable.bind fun e e' h => ?_
  obtain ⟨he, hrest⟩ := h
  rcases hrest.skip "," with ⟨hq, hq'⟩ | ⟨q, q', hq, hq', hr⟩
  · rw [hq, hq']
    exact (hrest.expect ")").bind fun r r' hr => ⟨congrArg ([·]) he, hr⟩
  · rw [hq, hq']
    dsimp only
    exact (later _ _ (q.2.trans e.tail) hr).arguments.bind fun more more' h =>
      ⟨congrArg₂ List.cons he h.1, h.2⟩

theorem elements_alike (twin : Twin i i' ts ts')
    (hspreadable : ReadsAlike i i' Expr.bare (spreadable source i ts) (spreadable source' i' ts')) :
    ReadsAlike i i' Expr.bareMembers (elements source i ts) (elements source' i' ts') := by
  rw [elements, elements]
  rcases twin.skip "]" with ⟨hq, hq'⟩ | ⟨q, q', hq, hq', hr⟩
  case inr =>
    rw [hq, hq']
    exact ⟨rfl, hr⟩
  rw [hq, hq']
  rcases twin.skip "," with ⟨hq, hq'⟩ | ⟨q, q', hq, hq', hr⟩
  case inr =>
    rw [hq, hq']
    exact (later _ _ q.2 hr).elements.bind fun more more' h =>
      ⟨congrArg (none :: ·) h.1, h.2⟩
  rw [hq, hq']
  dsimp only
  refine hspreadable.bind fun e e' h => ?_
  obtain ⟨he, hrest⟩ := h
  rcases hrest.skip "," with ⟨hq, hq'⟩ | ⟨q, q', hq, hq', hr⟩
  · rw [hq, hq']
    exact (hrest.expect "]").bind fun r r' hr => ⟨congrArg ([some ·]) he, hr⟩
  · rw [hq, hq']
    dsimp only
    exact (later _ _ (q.2.trans e.tail) hr).elements.bind fun more more' h =>
      ⟨congrArg₂ (fun e es => some e :: es) he h.1, h.2⟩

theorem sequenceTail_alike
    (hexpr : ReadsAlike i i' Expr.bare (expr source i ts) (expr source' i' ts')) :
    ReadsAlike i i' (fun _ => ()) (sequenceTail source i ts) (sequenceTail source' i' ts') := by
  rw [sequenceTail, sequenceTail]
  refine hexpr.bind fun e e' h => ?_
  have hrest := h.2
  rcases hrest.skip "," with ⟨hq, hq'⟩ | ⟨q, q', hq, hq', hr⟩
  · rw [hq, hq']
    exact (hrest.expect ")").bind fun r r' hr => ⟨rfl, hr⟩
  · rw [hq, hq']
    dsimp only
    exact (later _ _ (q.2.trans e.tail) hr).sequenceTail.bind fun _ _ h => ⟨rfl, h.2⟩

theorem primary_alike (twin : Twin i i' ts ts') :
    ReadsAlike i i' Expr.bare (primary source i ts) (primary source' i' ts') := by
  cases ts with
  | nil =>
    obtain rfl := twin.eq_nil
    rw [primary.eq_def, primary.eq_def]
    exact agree_failAt ..
  | cons t r =>
    obtain ⟨o, r', rfl, hreader, hr⟩ := twin.exists_cons
    have htail := Tail.one t r
    rw [primary.eq_def, primary.eq_def]
    dsimp only
    split
    · exact ⟨rfl, hr⟩
    · rename_i text c hc
      refine Agree.bind (R := Eq) ?_ fun es es' hes => ?_
      · rw [hc] at hreader
        have hreads : c.interpolations.mapM i = c.interpolations.mapM i' := mapM_congr hreader
        rw [hreads]
        exact .refl _
      · subst hes
        exact ⟨rfl, hr⟩
    · exact ⟨rfl, hr⟩
    · exact ⟨rfl, hr⟩
    · refine (later _ _ htail hr).expr.bind fun e e' h => ?_
      obtain ⟨he, hrest⟩ := h
      rcases hrest.skip "," with ⟨hq, hq'⟩ | ⟨q, q', hq, hq', hr⟩
      · rw [hq, hq']
        exact (hrest.expect ")").bind fun close close' hr => ⟨he, hr⟩
      · rw [hq, hq']
        dsimp only
        exact (later _ _ ((q.2.trans e.tail).trans htail) hr).sequenceTail.bind
          fun _ _ h => ⟨rfl, h.2⟩
    · exact (later _ _ htail hr).elements.bind fun _ _ h => ⟨congrArg Expr.array h.1, h.2⟩
    · exact twin.skipBlock.bind fun _ _ hr => ⟨rfl, hr⟩
    · exact agree_failAt ..

omit later in
theorem rules_alike (twin : Twin i i' ts ts') : RulesAlike source source' i i' ts ts' := by
  induction hn : ts.length using Nat.strongRecOn generalizing ts ts' with
  | ind n ih =>
    subst hn
    have later (r r' : List Token) (hr : Tail r ts) (twin : Twin i i' r r') :
        RulesAlike source source' i i' r r' := ih _ hr.length_lt twin rfl
    have hunary := unary_alike later twin (postfixed_alike later (primary_alike later twin))
    have hbinary := binary_alike later hunary
    have hconjunction := conjunction_alike later hbinary
    have hexpr := expr_alike later twin
      (conditional_alike later (logical_alike later hconjunction))
    have hspreadable := spreadable_alike later twin hexpr
    exact ⟨hexpr, hconjunction, hbinary, hunary, arguments_alike later twin hspreadable,
      elements_alike later twin hspreadable, sequenceTail_alike later hexpr⟩

omit later in
theorem whole_alike (twin : Twin i i' ts ts') :
    Agree (fun e e' => e.bare = e'.bare) (whole source i ts) (whole source' i' ts') := by
  unfold whole
  rw [twin.current]
  split
  · exact rfl
  · refine (rules_alike twin).expr.bind fun e e' h => ?_
    obtain ⟨he, hrest⟩ := h
    rw [hrest.current]
    split
    · exact he
    · split
      · exact he
      · exact agree_failAt ..
    · exact agree_failAt ..

end

end Grammar

/-! ### Texts -/

section

variable {s s' : List Char} {ts ts' : List Token}

theorem interpolations_of_lexemes (h : lexemes ts = lexemes ts') :
    tokenInterpolations ts = tokenInterpolations ts' := by
  have hmap (ts : List Token) :
      tokenInterpolations ts = (lexemes ts).flatMap Lexeme.interpolations := by
    rw [lexemes, List.flatMap_map]
    rfl
  rw [hmap, h, ← hmap]

theorem parse_alike (h : tokenize s = .ok ts) (h' : tokenize s' = .ok ts')
    (hlexemes : lexemes ts = lexemes ts') :
    Agree (fun e e' => e.bare = e'.bare) (parse s) (parse s') := by
  obtain ⟨i, hi, hparse⟩ := parse_step s
  obtain ⟨i', hi', hparse'⟩ := parse_step s'
  rw [hparse, hparse', h, h']
  refine Grammar.whole_alike ⟨hlexemes, fun x hx => ?_⟩
  rw [hi ts h x hx, hi' ts' h' x (interpolations_of_lexemes hlexemes ▸ hx)]

/-- A text that has tokens is their texts with blanks and comments around them. In every other
layout that sets the tokens apart the tokens are the same up to their positions, and either none of
the two is an expression, or the expressions differ in source texts and callees at most; so their
class names are the same. -/
theorem layout_irrelevant (h : tokenize s = .ok ts) :
    (∃ g gs, gs.length = (pieces s ts).length ∧ (∀ g' ∈ g :: gs, Vacant g') ∧
      weave g (pieces s ts) gs = s) ∧
    ∀ g gs, Spacing g → SetsApart gs → gs.length = (pieces s ts).length →
      ∃ ts', tokenize (weave g (pieces s ts) gs) = .ok ts' ∧ lexemes ts' = lexemes ts ∧
        Agree (fun e e' => e.bare = e'.bare ∧ e.classNames = e'.classNames) (parse s)
          (parse (weave g (pieces s ts) gs)) := by
  obtain ⟨hlaid, hother⟩ := tokenize_weave h
  refine ⟨hlaid, fun g gs hg hgs hlength => ?_⟩
  obtain ⟨ts', hts', hlexemes⟩ := hother g gs hg hgs hlength
  refine ⟨ts', hts', hlexemes, (parse_alike h hts' hlexemes.symm).mono fun e e' he => ⟨he, ?_⟩⟩
  rw [← e.classNames_bare, he, e'.classNames_bare]

/-- A question mark before a fraction stands alone in any layout. -/
theorem layout_irrelevant_fraction :
    tokenize "x?.5:y".toList = .ok [⟨.ident "x", 0⟩, ⟨.punct "?", 1⟩, ⟨.number ".5", 2⟩,
      ⟨.punct ":", 4⟩, ⟨.ident "y", 5⟩, ⟨.eof, 6⟩] ∧
    ∃ ts', tokenize " x\n? /* half */ .5 : y".toList = .ok ts' ∧
      lexemes ts' = [.ident "x", .punct "?", .number ".5", .punct ":", .ident "y", .eof] ∧
      Agree (fun e e' => e.bare = e'.bare ∧ e.classNames = e'.classNames)
        (parse "x?.5:y".toList) (parse " x\n? /* half */ .5 : y".toList) := by
  have h : tokenize "x?.5:y".toList = .ok [⟨.ident "x", 0⟩, ⟨.punct "?", 1⟩, ⟨.number ".5", 2⟩,
      ⟨.punct ":", 4⟩, ⟨.ident "y", 5⟩, ⟨.eof, 6⟩] := by cbv
  refine ⟨h, ?_⟩
  have hblank : Spacing [' '] := .blank (by decide) .nil
  have hcomment : Spacing " /* half */ ".toList :=
    .blank (by decide) (.comment (z := " half ".toList) (by decide) hblank)
  have hspaces : SetsApart [['\n'], " /* half */ ".toList, [' '], [' '], []] := by
    refine ⟨?_, by decide, by decide⟩
    simp only [List.forall_mem_cons, List.not_mem_nil, false_imp_iff, implies_true, and_true]
    exact ⟨.blank (by decide) .nil, hcomment, hblank, hblank, .nil⟩
  exact (layout_irrelevant h).2 [' '] [['\n'], " /* half */ ".toList, [' '], [' '], []]
    hblank hspaces rfl

end

end DesignTokens.Script
