import DesignTokens.Script.Parse
import DesignTokens.Proofs.Script.Token

/-!
# Expressions are built from their tokens

`Built interpolation ts e`: the strings and templates in `e` are those of the tokens `ts`, and all
else is made of such parts. Each rule of the grammar gives what is built from its tokens if the
rules that it calls do (one lemma per rule), so by induction on the length of the token list every
rule does (`rules`). What holds of every expression that is read is so proved on the constructors
of `Built`, without the grammar.
-/

namespace DesignTokens.Script

def tokenInterpolations (ts : List Token) : List (List Char) := ts.flatMap (·.lexeme.interpolations)

theorem flatMap_mono {α β : Type} {f : α → List β} {xs ys : List α} (h : xs ⊆ ys) :
    xs.flatMap f ⊆ ys.flatMap f := by
  intro b hb
  obtain ⟨a, ha, hab⟩ := List.mem_flatMap.1 hb
  exact List.mem_flatMap.2 ⟨a, h ha, hab⟩

/-- The expression is made of strings and templates that stand among the tokens, and of what is not
looked into. -/
inductive Built (interpolation : List Char → Except SymbolicDigit Expr) (ts : List Token) :
    Expr → Prop
  | other (kind source : String) : Built interpolation ts (.other kind source)
  | string {t : Token} {v : String} : t ∈ ts → t.lexeme = .string v →
    Built interpolation ts (.string v)
  | template {t : Token} {text : String} {c : Template} {es : List Expr} : t ∈ ts →
    t.lexeme = .template text c → c.interpolations.mapM interpolation = .ok es →
    Built interpolation ts (.template (c.quasis.map String.ofList) es)
  | call {args : List Expr} (callee : String) : (∀ e ∈ args, Built interpolation ts e) →
    Built interpolation ts (.call callee args)
  | array {es : List (Option Expr)} : (∀ e, some e ∈ es → Built interpolation ts e) →
    Built interpolation ts (.array es)
  | logical {l r : Expr} (op : LogicalOp) : Built interpolation ts l → Built interpolation ts r →
    Built interpolation ts (.logical op l r)
  | conditional {t c a : Expr} : Built interpolation ts t → Built interpolation ts c →
    Built interpolation ts a → Built interpolation ts (.conditional t c a)

theorem Built.mono {interpolation : List Char → Except SymbolicDigit Expr} {ts r : List Token}
    {e : Expr} (hr : r ⊆ ts) (h : Built interpolation r e) : Built interpolation ts e := by
  induction h with
  | other kind source => exact .other kind source
  | string ht hv => exact .string (hr ht) hv
  | template ht hc hes => exact .template (hr ht) hc hes
  | call callee _ ih => exact .call callee ih
  | array _ ih => exact .array ih
  | logical op _ _ ihl ihr => exact .logical op ihl ihr
  | conditional _ _ _ iht ihc iha => exact .conditional iht ihc iha

namespace Grammar

section
variable (interpolation : List Char → Except SymbolicDigit Expr) (ts : List Token)

/-- What is read has the property, and a symbolic digit that stops the rule comes from an
interpolation of the tokens. -/
def Yields {α : Type} (P : α → Prop) : Except ParseError α → Prop
  | .ok a => P a
  | .error (.malformed ..) => True
  | .error (.symbolicDigit d) => ∃ x ∈ tokenInterpolations ts, interpolation x = .error d

/-- A rule that gives no expression but moves on. -/
abbrev Moves {α : Type} (p : Except ParseError α) : Prop :=
  Yields interpolation ts (fun _ => True) p

/-- A rule that reads an expression. -/
abbrev Builds {r : List Token} (p : Parsed Expr r) : Prop :=
  Yields interpolation ts (fun a => Built interpolation ts a.value) p

end

variable {source : List Char} {interpolation : List Char → Except SymbolicDigit Expr}
variable {α β : Type} {ts r r' : List Token}

namespace Yields

variable {P P' : α → Prop} {Q : β → Prop} {p : Except ParseError α} {f : α → Except ParseError β}

theorem mono (hr : r ⊆ ts) (h : Yields interpolation r P p) (hP : ∀ a, P a → P' a) :
    Yields interpolation ts P' p := by
  match p, h with
  | .ok a, h => exact hP a h
  | .error (.malformed ..), _ => trivial
  | .error (.symbolicDigit d), ⟨x, hx, hd⟩ => exact ⟨x, flatMap_mono hr hx, hd⟩

theorem bind (h : Yields interpolation ts P p) (hf : ∀ a, P a → Yields interpolation ts Q (f a)) :
    Yields interpolation ts Q (p >>= f) := by
  match p, h with
  | .ok a, h => exact hf a h
  | .error (.malformed ..), _ => trivial
  | .error (.symbolicDigit d), h => exact h

theorem map {g : α → β} (h : Yields interpolation ts P p) (hg : ∀ a, P a → Q (g a)) :
    Yields interpolation ts Q (p.map g) := by
  match p, h with
  | .ok a, h => exact hg a h
  | .error (.malformed ..), _ => trivial
  | .error (.symbolicDigit d), h => exact h

end Yields

/-! ### Parts without expressions -/

theorem moves_expect (p : String) (r : List Token) :
    Moves interpolation ts (expect source p r) := by
  unfold expect
  split <;> trivial

theorem moves_skipBlock (r : List Token) : Moves interpolation ts (skipBlock source r) := by
  refine (moves_expect "\x7b" r).bind fun body _ => ?_
  split <;> trivial

theorem moves_skipArrowHead (r : List Token) :
    Moves interpolation ts (skipArrowHead source r) := by
  unfold skipArrowHead
  dsimp only
  split
  · exact (moves_expect "=>" _).bind fun _ _ => trivial
  · split
    · trivial
    · exact (moves_expect "=>" _).bind fun _ _ => trivial

/-! ### The rules

Each rule builds from the tokens what its parts build; a rule called on what is left is given for
all shorter lists. -/

/-- What the rules that are called on what is left build from the tokens `ts`, when called on
`r`. -/
structure Rules (source : List Char) (interpolation : List Char → Except SymbolicDigit Expr)
    (ts r : List Token) : Prop where
  expr : Builds interpolation ts (expr source interpolation r)
  conjunction : Builds interpolation ts (conjunction source interpolation r)
  binary : Builds interpolation ts (binary source interpolation r)
  unary : Builds interpolation ts (unary source interpolation r)
  arguments : Yields interpolation ts (fun a => ∀ e ∈ a.value, Built interpolation ts e)
    (arguments source interpolation r)
  elements : Yields interpolation ts (fun a => ∀ e, some e ∈ a.value → Built interpolation ts e)
    (elements source interpolation r)
  sequenceTail : Moves interpolation ts (sequenceTail source interpolation r)

theorem Rules.mono (hr : r' ⊆ ts) (h : Rules source interpolation r' r) :
    Rules source interpolation ts r where
  expr := h.expr.mono hr fun _ ha => ha.mono hr
  conjunction := h.conjunction.mono hr fun _ ha => ha.mono hr
  binary := h.binary.mono hr fun _ ha => ha.mono hr
  unary := h.unary.mono hr fun _ ha => ha.mono hr
  arguments := h.arguments.mono hr fun _ ha e he => (ha e he).mono hr
  elements := h.elements.mono hr fun _ ha e he => (ha e he).mono hr
  sequenceTail := h.sequenceTail.mono hr fun _ ha => ha

variable (later : ∀ r, Tail r ts → Rules source interpolation ts r)
include later

theorem arrow_builds : Builds interpolation ts (arrow source interpolation ts) := by
  rw [arrow]
  refine (moves_skipArrowHead ts).bind fun head _ => ?_
  have hbody : Moves interpolation ts (if (current head.1).isPunct "\x7b" then
      skipBlock source head.1 else (expr source interpolation head.1).map fun e =>
        ⟨e.rest, e.tail⟩) := by
    split
    · exact moves_skipBlock _
    · exact (later _ head.2).expr.map fun _ _ => trivial
  exact hbody.bind fun _ _ => .other ..

theorem conditional_builds
    (hlogical : Builds interpolation ts (logical source interpolation ts)) :
    Builds interpolation ts (conditional source interpolation ts) := by
  rw [conditional]
  refine hlogical.bind fun test htest => ?_
  split
  · exact htest
  · rename_i q _
    have hq := q.2.trans test.tail
    refine (later _ hq).expr.bind fun c hc => ?_
    refine (moves_expect ":" _).bind fun colon _ => ?_
    have hcolon := colon.2.trans (c.tail.trans hq)
    exact (later _ hcolon).expr.bind fun a ha => .conditional htest hc ha

theorem logicalTail_builds (left : Read Expr ts) (hleft : Built interpolation ts left.value) :
    Builds interpolation ts (logicalTail source interpolation ts left) := by
  induction hn : left.rest.length using Nat.strongRecOn generalizing left with
  | ind n ih =>
    subst hn
    rw [logicalTail]
    split
    · exact hleft
    · rename_i op q _
      refine (later _ (q.2.trans left.tail)).conjunction.bind fun right hright => ?_
      exact ih _ (right.tail.trans q.2).length_lt _ (.logical op hleft hright) rfl

theorem logical_builds
    (hconjunction : Builds interpolation ts (conjunction source interpolation ts)) :
    Builds interpolation ts (logical source interpolation ts) := by
  rw [logical]
  exact hconjunction.bind fun left hleft => logicalTail_builds later left hleft

theorem conjunctionTail_builds (left : Read Expr ts) (hleft : Built interpolation ts left.value) :
    Builds interpolation ts (conjunctionTail source interpolation ts left) := by
  induction hn : left.rest.length using Nat.strongRecOn generalizing left with
  | ind n ih =>
    subst hn
    rw [conjunctionTail]
    split
    · exact hleft
    · rename_i q _
      refine (later _ (q.2.trans left.tail)).binary.bind fun right hright => ?_
      exact ih _ (right.tail.trans q.2).length_lt _ (.logical .and hleft hright) rfl

theorem conjunction_builds (hbinary : Builds interpolation ts (binary source interpolation ts)) :
    Builds interpolation ts (conjunction source interpolation ts) := by
  rw [conjunction]
  exact hbinary.bind fun left hleft => conjunctionTail_builds later left hleft

theorem binaryTail_builds (left : Read Expr ts) (hleft : Built interpolation ts left.value) :
    Builds interpolation ts (binaryTail source interpolation ts left) := by
  induction hn : left.rest.length using Nat.strongRecOn generalizing left with
  | ind n ih =>
    subst hn
    rw [binaryTail]
    split
    · exact hleft
    · rename_i q _
      refine (later _ (q.2.trans left.tail)).unary.bind fun right _ => ?_
      exact ih _ (right.tail.trans q.2).length_lt _ (.other ..) rfl

theorem binary_builds (hunary : Builds interpolation ts (unary source interpolation ts)) :
    Builds interpolation ts (binary source interpolation ts) := by
  rw [binary]
  exact hunary.bind fun left hleft => binaryTail_builds later left hleft

theorem unary_builds (hpostfixed : Builds interpolation ts (postfixed source interpolation ts)) :
    Builds interpolation ts (unary source interpolation ts) := by
  rw [unary]
  split
  · exact hpostfixed
  · rename_i q _
    exact (later _ q.2).unary.bind fun e _ => .other ..

/-- After a primary expression only calls keep their parts. -/
theorem postfixTail_builds (named : Bool) (e : Read Expr ts)
    (he : Built interpolation ts e.value) :
    Builds interpolation ts (postfixTail source interpolation ts named e) := by
  induction hn : e.rest.length using Nat.strongRecOn generalizing named e with
  | ind n ih =>
    subst hn
    rw [postfixTail]
    split
    · rename_i q _
      dsimp only
      split
      · exact ih _ q.2.length_lt _ _ he rfl
      · split
        · trivial
        · rename_i r _
          exact ih _ (r.2.trans q.2).length_lt _ _ (.other ..) rfl
    split
    · rename_i q _
      refine (later _ (q.2.trans e.tail)).expr.bind fun index _ => ?_
      refine (moves_expect "]" _).bind fun r _ => ?_
      exact ih _ (r.2.trans (index.tail.trans q.2)).length_lt _ _ (.other ..) rfl
    split
    · rename_i q _
      refine (later _ (q.2.trans e.tail)).arguments.bind fun args hargs => ?_
      exact ih _ (args.tail.trans q.2).length_lt _ _ (.call _ hargs) rfl
    split
    · rename_i q _
      dsimp only
      split
      · exact he
      · exact ih _ q.2.length_lt _ _ he rfl
    · rename_i q _ _
      dsimp only
      split
      · exact ih _ q.2.length_lt _ _ (.other ..) rfl
      · exact he
    · exact he

theorem postfixed_builds (hprimary : Builds interpolation ts (primary source interpolation ts)) :
    Builds interpolation ts (postfixed source interpolation ts) := by
  rw [postfixed]
  exact hprimary.bind fun e he => postfixTail_builds later _ e he

theorem expr_builds
    (hconditional : Builds interpolation ts (conditional source interpolation ts)) :
    Builds interpolation ts (expr source interpolation ts) := by
  rw [expr]
  split
  · exact arrow_builds later
  · exact hconditional

theorem spreadable_builds (hexpr : Builds interpolation ts (expr source interpolation ts)) :
    Builds interpolation ts (spreadable source interpolation ts) := by
  rw [spreadable]
  split
  · exact hexpr
  · rename_i q _
    exact (later _ q.2).expr.bind fun e _ => .other ..

theorem arguments_build
    (hspreadable : Builds interpolation ts (spreadable source interpolation ts)) :
    Yields interpolation ts (fun a => ∀ e ∈ a.value, Built interpolation ts e)
      (arguments source interpolation ts) := by
  rw [arguments]
  split
  · exact List.forall_mem_nil _
  · refine hspreadable.bind fun e he => ?_
    split
    · exact (moves_expect ")" _).bind fun r _ => List.forall_mem_singleton.2 he
    · rename_i q _
      refine (later _ (q.2.trans e.tail)).arguments.bind fun more hmore => ?_
      exact List.forall_mem_cons.2 ⟨he, hmore⟩

theorem elements_build
    (hspreadable : Builds interpolation ts (spreadable source interpolation ts)) :
    Yields interpolation ts (fun a => ∀ e, some e ∈ a.value → Built interpolation ts e)
      (elements source interpolation ts) := by
  have hcons {e : Expr} {es : List (Option Expr)} (he : Built interpolation ts e)
      (hes : ∀ e, some e ∈ es → Built interpolation ts e) :
      ∀ e', some e' ∈ some e :: es → Built interpolation ts e' := by
    intro e' he'
    rcases List.mem_cons.1 he' with heq | he'
    · exact Option.some.inj heq ▸ he
    · exact hes e' he'
  rw [elements]
  split
  · exact fun _ he => absurd he List.not_mem_nil
  · rename_i q _ _
    refine (later _ q.2).elements.bind fun more hmore => ?_
    exact fun e he => hmore e ((List.mem_cons.1 he).resolve_left (Option.some_ne_none e))
  · refine hspreadable.bind fun e he => ?_
    split
    · exact (moves_expect "]" _).bind fun r _ =>
        hcons he fun _ he' => absurd he' List.not_mem_nil
    · rename_i q _
      exact (later _ (q.2.trans e.tail)).elements.bind fun more hmore => hcons he hmore

theorem sequenceTail_moves (hexpr : Builds interpolation ts (expr source interpolation ts)) :
    Moves interpolation ts (sequenceTail source interpolation ts) := by
  rw [sequenceTail]
  refine hexpr.bind fun e _ => ?_
  split
  · exact (moves_expect ")" _).bind fun r _ => trivial
  · rename_i q _
    exact (later _ (q.2.trans e.tail)).sequenceTail.bind fun more _ => trivial

theorem primary_builds : Builds interpolation ts (primary source interpolation ts) := by
  rw [primary.eq_def]
  split
  · trivial
  · rename_i t r
    have ht : t ∈ t :: r := List.mem_cons_self
    have htail := Tail.one t r
    split
    · rename_i v hv
      exact .string ht hv
    · rename_i text c hc
      cases hes : c.interpolations.mapM interpolation with
      | ok es => exact .template ht hc hes
      | error d =>
        obtain ⟨x, hx, hd⟩ := error_of_mapM hes
        refine ⟨x, List.mem_flatMap.2 ⟨t, ht, ?_⟩, hd⟩
        rwa [hc]
    · exact .other ..
    · exact .other ..
    · refine (later _ htail).expr.bind fun e he => ?_
      split
      · exact (moves_expect ")" _).bind fun close _ => he
      · rename_i q _
        have hq := (q.2.trans e.tail).trans htail
        exact (later _ hq).sequenceTail.bind fun more _ => .other ..
    · exact (later _ htail).elements.bind fun es hes => .array hes
    · exact (moves_skipBlock _).bind fun close _ => .other ..
    · trivial

omit later in
theorem rules (ts : List Token) : Rules source interpolation ts ts := by
  induction hn : ts.length using Nat.strongRecOn generalizing ts with
  | ind n ih =>
    subst hn
    have later (r : List Token) (hr : Tail r ts) : Rules source interpolation ts r :=
      (ih _ hr.length_lt r rfl).mono hr.suffix.subset
    have hunary := unary_builds later (postfixed_builds later (primary_builds later))
    have hbinary := binary_builds later hunary
    have hconjunction := conjunction_builds later hbinary
    have hexpr := expr_builds later (conditional_builds later (logical_builds later hconjunction))
    have hspreadable := spreadable_builds later hexpr
    exact ⟨hexpr, hconjunction, hbinary, hunary, arguments_build later hspreadable,
      elements_build later hspreadable, sequenceTail_moves later hexpr⟩

omit later in
theorem whole_built (ts : List Token) :
    Yields interpolation ts (Built interpolation ts) (whole source interpolation ts) := by
  unfold whole
  split
  · exact .other ..
  · refine (rules ts).expr.bind fun e he => ?_
    split
    · exact he
    · split
      · exact he
      · trivial
    · trivial

end Grammar

end DesignTokens.Script
