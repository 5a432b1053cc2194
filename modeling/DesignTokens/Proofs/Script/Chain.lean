import DesignTokens.Proofs.Script.RoundTrip

/-!
# Chains without parentheses

Operands with short-circuit operators between them fall into runs: `Chain.runs` cuts a chain at each
operator other than `&&`. A run is a conjunction nested to the left, and so are the runs under the
operators between them (`Chain.tree`). The first lemma of each section lexes what is written, the
next ones follow the loop of one rule of the grammar over it; `chains_parsed` puts them together for
texts as operands, and says in which order their class names are found.
-/

namespace DesignTokens.Script

open Grammar (Gives)

/-- The text may stand between double quotes as it is. -/
def IsQuotable (v : String) : Prop := ∀ c ∈ v.toList, c ≠ '"' ∧ c ≠ '\\' ∧ c ≠ '\n'

/-! ### Runs -/

/-- Operators, each with the operand behind it. -/
abbrev Links (α : Type) := List (LogicalOp × α)

/-- What follows the first operand of a run: the operator before the run, its first operand, and
the others. -/
abbrev Runs (α : Type) := List (LogicalOp × α × List α)

namespace Chain

variable {α : Type}

/-- The operands that go on with the run before them, and the runs after it. -/
def runs : Links α → List α × Runs α
  | [] => ([], [])
  | (op, a) :: rest =>
    let (run, later) := runs rest
    if op = .and then (a :: run, later) else ([], (op, a, run) :: later)

/-- A run, nested to the left. -/
def conjunction (a : Expr) (run : List Expr) : Expr := run.foldl (.logical .and) a

/-- Runs under the operators between them, nested to the left. -/
def joined (a : Expr) (later : Runs Expr) : Expr :=
  later.foldl (fun left r => .logical r.1 left (conjunction r.2.1 r.2.2)) a

/-- The expression that a chain is. -/
def tree (first : Expr) (rest : Links Expr) : Expr :=
  joined (conjunction first (runs rest).1) (runs rest).2

/-- The operands behind the first one, as they are written. -/
def linkChars (rest : Links Expr) : List Char :=
  rest.flatMap fun p => ' ' :: (p.1.text.toList ++ ' ' :: p.2.chars)

/-- The operators other than `&&` stand between runs, and no operand is lost or moved. -/
theorem runs_operands (rest : Links α) :
    (runs rest).1 ++ (runs rest).2.flatMap (fun r => r.2.1 :: r.2.2) = rest.map (·.2) ∧
      ∀ r ∈ (runs rest).2, r.1 ≠ .and := by
  induction rest with
  | nil => exact ⟨rfl, nofun⟩
  | cons p rest ih =>
    obtain ⟨hoperands, hops⟩ := ih
    rw [runs]
    dsimp only
    split
    · exact ⟨congrArg (p.2 :: ·) hoperands, hops⟩
    · rename_i hop
      exact ⟨congrArg (p.2 :: ·) hoperands, List.forall_mem_cons.2 ⟨hop, hops⟩⟩

/-! ### Class names -/

variable {a first : Expr}

theorem classNames_conjunction (a : Expr) (run : List Expr) :
    (conjunction a run).classNames = (a :: run).reverse.flatMap Expr.classNames := by
  induction run generalizing a with
  | nil => simp [conjunction]
  | cons b run ih =>
    have hb := ih (.logical .and a b)
    simp only [conjunction, List.foldl_cons, List.reverse_cons, List.flatMap_append,
      List.flatMap_cons, List.flatMap_nil, List.append_nil, Expr.classNames] at hb ⊢
    rw [hb, List.append_assoc]

theorem classNames_joined (a : Expr) (later : Runs Expr) : (joined a later).classNames =
    (later.flatMap fun r => r.2.1 :: r.2.2).reverse.flatMap Expr.classNames ++ a.classNames := by
  induction later generalizing a with
  | nil => rfl
  | cons r later ih =>
    show (joined (.logical r.1 a (conjunction r.2.1 r.2.2)) later).classNames = _
    rw [ih, Expr.classNames, classNames_conjunction, List.flatMap_cons, List.reverse_append,
      List.flatMap_append, List.append_assoc]

/-- The class names of a chain come from its last operand to its first one. -/
theorem classNames_tree (first : Expr) (rest : Links Expr) : (tree first rest).classNames =
    (first :: rest.map (·.2)).reverse.flatMap Expr.classNames := by
  rw [tree, classNames_joined, classNames_conjunction, ← List.flatMap_append,
    ← List.reverse_append, List.cons_append, (runs_operands rest).1]

end Chain

/-! ### Reading runs -/

section

variable {source : List Char} {interpolation : List Char → Except SymbolicDigit Expr}
variable {a b first : Expr} {run : List Expr} {later : Runs Expr} {rest : Links Expr}
variable {r ts us vs : List Token} {h : Tail (us ++ r) ts}

variable (source interpolation) in
/-- Tokens of operators with operands behind them. -/
inductive ReadsLinks : Links Expr → List Token → Prop
  | nil : ReadsLinks [] []
  | cons {op : LogicalOp} {b : Expr} {rest : Links Expr} {ts us : List Token} (o : Nat) :
    ReadsAs source interpolation b ts → ReadsLinks rest us →
      ReadsLinks ((op, b) :: rest) (⟨.punct op.text, o⟩ :: (ts ++ us))

variable (source interpolation) in
/-- Tokens of runs with the operators before them. -/
inductive ReadsRuns : Runs Expr → List Token → Prop
  | nil : ReadsRuns [] []
  | cons {op : LogicalOp} {b : Expr} {run : List Expr} {later : Runs Expr}
    {ts us vs : List Token} (o : Nat) : op ≠ .and → ReadsAs source interpolation b ts →
      ReadsLinks source interpolation (run.map (.and, ·)) us → ReadsRuns later vs →
        ReadsRuns ((op, b, run) :: later) (⟨.punct op.text, o⟩ :: (ts ++ (us ++ vs)))

/-- Where the links are written in the text, and no name goes on behind them, they are read. -/
theorem lexed_links (hrest : ∀ p ∈ rest, Reads source interpolation p.2) {u : List Char}
    (hsuffix : Chain.linkChars rest ++ u <:+ source) (hu : u.head?.all (!isIdentPart ·)) :
    ∃ us, Lexed source.length (Chain.linkChars rest ++ u) us u ∧
      ReadsLinks source interpolation rest us := by
  induction rest with
  | nil => exact ⟨[], .nil, .nil⟩
  | cons p rest ih =>
    obtain ⟨op, b⟩ := p
    obtain ⟨hb, hrest⟩ := List.forall_mem_cons.1 hrest
    have hb : Reads source interpolation b := hb
    have hchars : Chain.linkChars ((op, b) :: rest) ++ u =
        ' ' :: (op.text.toList ++ ' ' :: (b.chars ++ (Chain.linkChars rest ++ u))) := by
      simp [Chain.linkChars]
    rw [hchars] at hsuffix ⊢
    have hright : b.chars ++ (Chain.linkChars rest ++ u) <:+ source :=
      .trans ⟨' ' :: (op.text.toList ++ [' ']), by simp⟩ hsuffix
    have hhead : (Chain.linkChars rest ++ u).head?.all (!isIdentPart ·) := by
      cases rest with
      | nil => exact hu
      | cons p rest => rfl
    obtain ⟨o, hsign, -⟩ := lexed_spaced source.length (operator_ends op).1
      (b.chars ++ (Chain.linkChars rest ++ u))
    obtain ⟨ts, hlexed, hreads⟩ := hb _ hright hhead
    obtain ⟨us, hlinks, hreadsLinks⟩ := ih hrest ((List.suffix_append _ _).trans hright)
    exact ⟨⟨.punct op.text, o⟩ :: (ts ++ us), hsign.append (hlexed.append hlinks),
      .cons o hreads hreadsLinks⟩

/-- The tokens of links are those of the run that goes on, and of the runs after it. -/
theorem ReadsLinks.split (h : ReadsLinks source interpolation rest us) : ∃ us₁ us₂,
    us = us₁ ++ us₂ ∧ ReadsLinks source interpolation ((Chain.runs rest).1.map (.and, ·)) us₁ ∧
      ReadsRuns source interpolation (Chain.runs rest).2 us₂ := by
  induction h with
  | nil => exact ⟨[], [], rfl, .nil, .nil⟩
  | @cons op b rest ts us o hb _ ih =>
    obtain ⟨us₁, us₂, rfl, hlinks, hruns⟩ := ih
    rw [Chain.runs]
    dsimp only
    split
    · rename_i hop
      subst hop
      refine ⟨⟨.punct LogicalOp.and.text, o⟩ :: (ts ++ us₁), us₂, by simp, ?_, hruns⟩
      exact .cons o hb hlinks
    · rename_i hop
      exact ⟨[], _, rfl, .nil, .cons o hop hb hlinks hruns⟩

/-! ### The loops of the grammar -/

theorem ReadsLinks.ends (h : ReadsLinks source interpolation rest us)
    (hr : (current r).endsOperand) : (current (us ++ r)).endsOperand := by
  cases h with
  | nil => exact hr
  | @cons op => exact (operator_ends op).2.1

/-- Runs are no part of the run before them. -/
theorem ReadsRuns.ends (h : ReadsRuns source interpolation later vs)
    (hr : (current r).endsLogical) :
    (current (vs ++ r)).endsOperand ∧ (current (vs ++ r)).isPunct "&&" = false := by
  cases h with
  | nil =>
    obtain ⟨hends, hand, -, -⟩ := Lexeme.ends_of_logical hr
    exact ⟨hends, hand⟩
  | @cons op _ _ _ _ _ _ _ hop =>
    refine ⟨(operator_ends op).2.1, ?_⟩
    cases op with
    | and => exact absurd rfl hop
    | or | nullish => rfl

namespace Grammar

theorem conjunctionTail_run (hrun : ReadsLinks source interpolation (run.map (.and, ·)) us)
    (hr : (current r).endsOperand) (hand : (current r).isPunct "&&" = false) :
    ∀ (a : Expr) (h : Tail (us ++ r) ts),
      Gives (conjunctionTail source interpolation ts ⟨a, us ++ r, h⟩)
        (Chain.conjunction a run) r := by
  induction run generalizing us with
  | nil =>
    cases hrun
    exact fun a h => ⟨h, conjunctionTail_ends hand⟩
  | cons b run ih =>
    cases hrun with
    | @cons _ _ _ tb us o hb hrun =>
      intro a
      have htokens : ⟨.punct LogicalOp.and.text, o⟩ :: (tb ++ us) ++ r =
          ⟨.punct LogicalOp.and.text, o⟩ :: (tb ++ (us ++ r)) := by simp
      rw [htokens]
      intro h
      obtain ⟨h', hstep⟩ := conjunctionTail_step (a := a) h (hb.binary _ (hrun.ends hr))
      obtain ⟨tail, hgives⟩ := ih hrun (.logical .and a b) h'
      exact ⟨tail, hstep.trans hgives⟩

theorem conjunction_run (ha : ReadsAs source interpolation a ts)
    (hrun : ReadsLinks source interpolation (run.map (.and, ·)) us)
    (hr : (current r).endsOperand) (hand : (current r).isPunct "&&" = false) :
    Gives (conjunction source interpolation (ts ++ (us ++ r))) (Chain.conjunction a run) r := by
  obtain ⟨h, ha⟩ := ha.binary _ (hrun.ends hr)
  obtain ⟨tail, hgives⟩ := conjunctionTail_run hrun hr hand a h
  refine ⟨tail, ?_⟩
  rw [conjunction, ha]
  exact hgives

theorem logicalOp?_cons {op : LogicalOp} (hop : op ≠ .and) (o : Nat) (r : List Token) :
    logicalOp? (⟨.punct op.text, o⟩ :: r) = some (op, ⟨r, .one _ r⟩) := by
  cases op with
  | and => exact absurd rfl hop
  | or | nullish => rfl

theorem logicalTail_runs (hlater : ReadsRuns source interpolation later vs)
    (hr : (current r).endsLogical) :
    ∀ (a : Expr) (h : Tail (vs ++ r) ts),
      Gives (logicalTail source interpolation ts ⟨a, vs ++ r, h⟩) (Chain.joined a later) r := by
  induction hlater with
  | nil => exact fun a h => ⟨h, logicalTail_ends hr⟩
  | @cons op b run later tb us vs o hop hb hrun hlater ih =>
    intro a
    have htokens : ⟨.punct op.text, o⟩ :: (tb ++ (us ++ vs)) ++ r =
        ⟨.punct op.text, o⟩ :: (tb ++ (us ++ (vs ++ r))) := by simp
    rw [htokens]
    intro h
    obtain ⟨hends, hand⟩ := hlater.ends hr
    obtain ⟨h', hstep⟩ := logicalTail_step (a := a) h (logicalOp?_cons hop o _)
      (conjunction_run hb hrun hends hand)
    obtain ⟨tail, hgives⟩ := ih (.logical op a (Chain.conjunction b run)) h'
    exact ⟨tail, hstep.trans hgives⟩

/-- The grammar gives the tree of a chain for the tokens of its operands and operators. -/
theorem logical_chain (hfirst : ReadsAs source interpolation first ts)
    (hlinks : ReadsLinks source interpolation rest us) (hr : (current r).endsLogical) :
    Gives (logical source interpolation (ts ++ (us ++ r))) (Chain.tree first rest) r := by
  obtain ⟨run, vs, rfl, hrun, hlater⟩ := hlinks.split
  obtain ⟨hends, hand⟩ := hlater.ends hr
  rw [List.append_assoc]
  obtain ⟨h, hconjunction⟩ := conjunction_run hfirst hrun hends hand
  obtain ⟨tail, hgives⟩ :=
    logicalTail_runs hlater hr (Chain.conjunction first (Chain.runs rest).1) h
  refine ⟨tail, ?_⟩
  rw [logical, hconjunction]
  exact hgives

end Grammar

theorem ReadsLinks.noArrow (h : ReadsLinks source interpolation rest us)
    (hr : (current r).isPunct "=>" = false) : (current (us ++ r)).isPunct "=>" = false := by
  cases h with
  | nil => exact hr
  | @cons op => exact (operator_ends op).2.2

/-! ### Chains of texts -/

namespace Chain

/-- A chain of texts, as it is written. -/
def textChars (first : String) (rest : Links String) : List Char :=
  (Expr.string first).chars ++ linkChars (rest.map fun p => (p.1, .string p.2))

/-- A chain of texts as an expression. -/
def textTree (first : String) (rest : Links String) : Expr :=
  tree (.string first) (rest.map fun p => (p.1, .string p.2))

theorem classNames_textTree (first : String) (rest : Links String) :
    (textTree first rest).classNames = (first :: rest.map (·.2)).reverse.flatMap classWords := by
  have hoperands : Expr.string first :: (rest.map fun p => (p.1, Expr.string p.2)).map (·.2) =
      (first :: rest.map (·.2)).map .string := by simp
  have hwords : (Expr.classNames ∘ .string : String → List String) = classWords := by
    funext v
    rw [Function.comp_apply, Expr.classNames]
  rw [textTree, classNames_tree, hoperands, ← List.map_reverse, List.flatMap_map]
  exact congrArg (List.flatMap · _) hwords

theorem parse_textChars {first : String} {rest : Links String} (hfirst : IsQuotable first)
    (hrest : ∀ p ∈ rest, IsQuotable p.2) :
    parse (textChars first rest) = .ok (textTree first rest) := by
  obtain ⟨interpolation, -, hparse⟩ := parse_shorter (textChars first rest)
  have hreadsRest : ∀ p ∈ rest.map fun p => (p.1, Expr.string p.2),
      Reads (textChars first rest) interpolation p.2 := by
    simp only [List.forall_mem_map]
    exact fun p hp => reads_string (hrest p hp)
  have hhead : (linkChars (rest.map fun p => (p.1, .string p.2))).head?.all
      (!isIdentPart ·) := by
    cases rest <;> rfl
  have hreadsFirst : Reads (textChars first rest) interpolation (.string first) :=
    reads_string hfirst
  obtain ⟨ts, hlexed, hreads⟩ := hreadsFirst _ (List.suffix_refl _) hhead
  obtain ⟨us, hlexedRest, hlinks⟩ := lexed_links hreadsRest (u := [])
    (by rw [List.append_nil]; exact List.suffix_append ..) rfl
  rw [List.append_nil] at hlexedRest
  refine parse_of_lexed hparse (hlexed.append hlexedRest) (starts_append hreads.starts us)
    fun r hr => ?_
  obtain ⟨hlogical, hquestion, harrow⟩ := Lexeme.ends_of_expr hr
  rw [List.append_assoc]
  exact Grammar.expr_of_conditional (hreads.noArrow _ (hlinks.noArrow harrow))
    (Grammar.conditional_of_logical (Grammar.logical_chain hreads hlinks hlogical) hquestion)

end Chain

/-! ### Chains of conditionals -/

/-- A variable and the text that it chooses. -/
abbrev Branch := String × String

namespace Branch

/-- Conditionals, each the alternative of the one before it. -/
def tree (branches : List Branch) (last : String) : Expr :=
  branches.foldr (fun b e => .conditional (.other "identifier" b.1) (.string b.2) e) (.string last)

/-- The conditionals as they are written, without parentheses. -/
def chars (branches : List Branch) (last : String) : List Char :=
  branches.foldr (fun b s => b.1.toList ++ ' ' :: ("?".toList ++ ' ' :: ((Expr.string b.2).chars ++
    ' ' :: (":".toList ++ ' ' :: s)))) (Expr.string last).chars

theorem classNames_tree (branches : List Branch) (last : String) :
    (tree branches last).classNames = (branches.map (·.2) ++ [last]).flatMap classWords := by
  induction branches with
  | nil => simp [tree, Expr.classNames]
  | cons b branches ih =>
    show (Expr.conditional _ (.string b.2) (tree branches last)).classNames = _
    rw [Expr.classNames, ih, Expr.classNames]
    rfl

/-- Where the conditionals end the text, the grammar gives their tree. -/
theorem reads_tree {branches : List Branch} {last : String}
    (hbranches : ∀ b ∈ branches, isVariable b.1.toList ∧ IsQuotable b.2) (hlast : IsQuotable last)
    (hs : chars branches last <:+ source) : ∃ ts, Lexed source.length (chars branches last) ts [] ∧
      (current ts).startsOperand ∧ ∀ r, (current r).endsExpr →
        Gives (Grammar.expr source interpolation (ts ++ r)) (tree branches last) r := by
  induction branches with
  | nil =>
    have hreads : Reads source interpolation (.string last) := reads_string hlast
    obtain ⟨ts, hlexed, hreads⟩ := hreads [] (by rwa [List.append_nil]) rfl
    rw [List.append_nil] at hlexed
    exact ⟨ts, hlexed, hreads.starts, fun _ => hreads.expr⟩
  | cons b branches ih =>
    obtain ⟨⟨htest, htext⟩, hbranches⟩ := List.forall_mem_cons.1 hbranches
    have hchars : chars (b :: branches) last = (Expr.other "identifier" b.1).chars ++ ' ' ::
        ("?".toList ++ ' ' :: ((Expr.string b.2).chars ++ ' ' :: (":".toList ++ ' ' ::
          chars branches last))) := by
      rw [(IsWord.of_variable htest).1.chars]
      rfl
    have htest : Reads source interpolation (.other "identifier" b.1) :=
      reads_other (.inl ⟨rfl, htest⟩)
    have htext : Reads source interpolation (.string b.2) := reads_string htext
    rw [hchars] at hs ⊢
    have hconsequent : (Expr.string b.2).chars ++ ' ' :: (":".toList ++ ' ' ::
        chars branches last) <:+ source :=
      .trans ⟨(Expr.other "identifier" b.1).chars ++ [' ', '?', ' '], by simp⟩ hs
    have halternate : chars branches last <:+ source :=
      .trans ⟨(Expr.string b.2).chars ++ [' ', ':', ' '], by simp⟩ hconsequent
    obtain ⟨tt, hlexedTest, htest⟩ := htest _ hs (by rfl)
    obtain ⟨o, hlexedQuestion, -⟩ := lexed_spaced source.length (p := "?") (by decide) _
    obtain ⟨tc, hlexedConsequent, hconsequent⟩ := htext _ hconsequent (by rfl)
    obtain ⟨o', hlexedColon, -⟩ := lexed_spaced source.length (p := ":") (by decide) _
    obtain ⟨ta, hlexedAlternate, -, halternate⟩ := ih hbranches halternate
    refine ⟨_, hlexedTest.append (hlexedQuestion.append (hlexedConsequent.append
      (hlexedColon.append hlexedAlternate))), starts_append htest.starts _, fun r hr => ?_⟩
    have htokens : tt ++ ([⟨.punct "?", o⟩] ++ (tc ++ ([⟨.punct ":", o'⟩] ++ ta))) ++ r =
        tt ++ ⟨.punct "?", o⟩ :: (tc ++ ⟨.punct ":", o'⟩ :: (ta ++ r)) := by simp
    rw [htokens]
    exact Grammar.expr_of_conditional (htest.noArrow _ (by rfl)) (Grammar.conditional_question
      (Grammar.logical_of_binary (htest.binary _ (by rfl)) (by rfl))
      (hconsequent.expr (by rfl)) (halternate r hr))

theorem parse_chars {branches : List Branch} {last : String}
    (hbranches : ∀ b ∈ branches, isVariable b.1.toList ∧ IsQuotable b.2)
    (hlast : IsQuotable last) : parse (chars branches last) = .ok (tree branches last) := by
  obtain ⟨interpolation, -, hparse⟩ := parse_shorter (chars branches last)
  obtain ⟨ts, hlexed, hstarts, hexpr⟩ :=
    @reads_tree _ interpolation branches last hbranches hlast (List.suffix_refl _)
  exact parse_of_lexed hparse hlexed hstarts hexpr

end Branch

end

/-! ### Trees and class names -/

/-- Chains of texts have the tree of their runs, and their class names come from the last text to
the first; chains of conditionals nest to the right, and their class names come in order. -/
theorem chains_parsed :
    (∀ (first : String) (rest : Links String), IsQuotable first → (∀ p ∈ rest, IsQuotable p.2) →
      parse (Chain.textChars first rest) = .ok (Chain.textTree first rest) ∧
        (Chain.textTree first rest).classNames =
          (first :: rest.map (·.2)).reverse.flatMap classWords) ∧
    ∀ (branches : List Branch) (last : String),
      (∀ b ∈ branches, isVariable b.1.toList ∧ IsQuotable b.2) → IsQuotable last →
      parse (Branch.chars branches last) = .ok (Branch.tree branches last) ∧
        (Branch.tree branches last).classNames =
          (branches.map (·.2) ++ [last]).flatMap classWords :=
  ⟨fun first rest hfirst hrest =>
      ⟨Chain.parse_textChars hfirst hrest, Chain.classNames_textTree first rest⟩,
    fun branches last hbranches hlast =>
      ⟨Branch.parse_chars hbranches hlast, Branch.classNames_tree branches last⟩⟩

theorem chains_parsed_button :
    parse "\"a\" && \"b\" || \"c d\" ?? \"e\" && \"f\"".toList =
        .ok (.logical .nullish (.logical .or (.logical .and (.string "a") (.string "b"))
          (.string "c d")) (.logical .and (.string "e") (.string "f"))) ∧
      parse "on ? \"x\" : wide ? \"y\" : \"z\"".toList =
        .ok (.conditional (.other "identifier" "on") (.string "x")
          (.conditional (.other "identifier" "wide") (.string "y") (.string "z"))) := by
  have htext (v : String) (hv : v.toList.all fun c => c ≠ '"' ∧ c ≠ '\\' ∧ c ≠ '\n') :
      IsQuotable v := List.all_iff_forall_prop.1 hv
  have hrest : ∀ p ∈ [(LogicalOp.and, "b"), (.or, "c d"), (.nullish, "e"), (.and, "f")],
      IsQuotable p.2 := by
    simp only [List.forall_mem_cons, List.not_mem_nil, false_imp_iff, implies_true, and_true]
    exact ⟨htext _ (by decide), htext _ (by decide), htext _ (by decide), htext _ (by decide)⟩
  have hbranches : ∀ b ∈ [("on", "x"), ("wide", "y")],
      isVariable b.1.toList ∧ IsQuotable b.2 := by
    simp only [List.forall_mem_cons, List.not_mem_nil, false_imp_iff, implies_true, and_true]
    exact ⟨⟨by decide, htext _ (by decide)⟩, by decide, htext _ (by decide)⟩
  exact ⟨(chains_parsed.1 "a" _ (htext _ (by decide)) hrest).1,
    (chains_parsed.2 _ "z" hbranches (htext _ (by decide))).1⟩

end DesignTokens.Script
