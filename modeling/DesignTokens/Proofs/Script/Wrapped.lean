import Mathlib
import DesignTokens.Proofs.Script.Surrounded

/-!
# Wrapped expressions

A wrapper puts parentheses, a call of `f` or an array around a text. A text that is read as one
expression (`Complete`) is read so inside any wrapper: its tokens stand there with those of the
wrapper around them (`Wrapper.tokens_around`), the expression is read up to the closing bracket
(`Complete.inside`), and no arrow is found behind that one, since the brackets nest. The wrapped
text is one expression again, so wrappers can be put around each other (`wrapping_transparent`).
-/

namespace DesignTokens.Script

open Grammar (Gives Nested Resumes closeRest? closeRest?_cons)

/-! ### Nested brackets -/

/-- The bracket that closes an opening one. -/
def Lexeme.closing : Lexeme → Lexeme
  | punct "(" => punct ")"
  | punct "[" => punct "]"
  | _ => punct "\x7d"

/-- The brackets of the tokens nest properly, where `closers` are left to close. -/
def bracketsNest (closers : List Lexeme) : List Token → Bool
  | [] => closers.isEmpty
  | t :: r =>
    if t.lexeme.opensBracket then bracketsNest (t.lexeme.closing :: closers) r
    else if t.lexeme.closesBracket then
      closers.head? == some t.lexeme && bracketsNest closers.tail r
    else bracketsNest closers r

section

variable {closers : List Lexeme} {l : Lexeme} {us : List Token} {o k : Nat}

theorem Lexeme.closesBracket_of_opens (h : l.opensBracket) : l.closesBracket = false := by
  cases l with
  | punct p =>
    simp only [opensBracket, isPunct, Bool.or_eq_true, beq_iff_eq] at h
    rcases h with (rfl | rfl) | rfl <;> rfl
  | _ => rfl

theorem bracketsNest_end : bracketsNest closers [⟨.eof, o⟩] ↔ closers = [] := by
  simp [bracketsNest, Lexeme.opensBracket, Lexeme.closesBracket, Lexeme.isPunct]

/-- Behind tokens whose brackets nest, those of other tokens nest or not as they do alone. -/
theorem bracketsNest_append (h : bracketsNest closers (us ++ [⟨.eof, o⟩])) (k : Nat)
    (outer : List Lexeme) (vs : List Token) :
    bracketsNest (closers ++ outer) (us.map (.shift k) ++ vs) = bracketsNest outer vs := by
  induction us generalizing closers with
  | nil =>
    obtain rfl := bracketsNest_end.1 h
    rfl
  | cons t us ih =>
    rw [List.cons_append, bracketsNest] at h
    rw [List.map_cons, List.cons_append, bracketsNest]
    rw [Token.shift_lexeme]
    by_cases hopen : t.lexeme.opensBracket
    · rw [if_pos hopen] at h ⊢
      exact ih h
    rw [if_neg hopen] at h ⊢
    by_cases hclose : t.lexeme.closesBracket
    · rw [if_pos hclose, Bool.and_eq_true, beq_iff_eq] at h
      rw [if_pos hclose]
      obtain ⟨hhead, h⟩ := h
      obtain ⟨closers, rfl⟩ := List.head?_eq_some_iff.1 hhead
      simpa using ih h
    · rw [if_neg hclose] at h ⊢
      exact ih h

/-- What closes an open bracket stands behind tokens whose brackets nest. -/
theorem closeRest?_of_bracketsNest (h : bracketsNest closers (us ++ [⟨.eof, o⟩]))
    (hplain : ∀ t ∈ us, t.lexeme ≠ .eof) (depth : Nat) (r : List Token) :
    closeRest? (depth + 1 + closers.length) (us ++ r) = closeRest? (depth + 1) r := by
  induction us generalizing closers with
  | nil =>
    obtain rfl := bracketsNest_end.1 h
    rfl
  | cons t us ih =>
    obtain ⟨l, o'⟩ := t
    obtain ⟨heof, hplain⟩ := List.forall_mem_cons.1 hplain
    rw [List.cons_append, bracketsNest] at h
    rw [List.cons_append, closeRest?_cons heof]
    dsimp only at h
    by_cases hopen : l.opensBracket
    · rw [if_pos hopen] at h
      rw [if_neg (by simp [Lexeme.closesBracket_of_opens hopen]), if_pos hopen]
      exact ih h hplain
    rw [if_neg hopen] at h
    rw [if_neg hopen]
    by_cases hclose : l.closesBracket
    · rw [if_pos hclose, Bool.and_eq_true, beq_iff_eq] at h
      obtain ⟨hhead, h⟩ := h
      obtain ⟨closers, rfl⟩ := List.head?_eq_some_iff.1 hhead
      rw [if_neg (by simp only [List.length_cons]; omega), if_pos hclose]
      exact ih h hplain
    · rw [if_neg hclose] at h
      rw [if_neg (by simp [hclose]), if_neg hclose]
      exact ih h hplain

theorem nested_of_bracketsNest (h : bracketsNest [] (us ++ [⟨.eof, o⟩]))
    (hplain : ∀ t ∈ us, t.lexeme ≠ .eof) : Nested us :=
  fun depth r => closeRest?_of_bracketsNest h hplain depth r

end

/-! ### Wrappers -/

/-- Parentheses, a call of `f` and an array, each around one expression. -/
inductive Wrapper
  | group
  | call
  | array
  deriving DecidableEq, Repr

section

variable {s : List Char} {e : Expr} {ts : List Token}

namespace Wrapper

def opening : Wrapper → List Char
  | group => ['(']
  | call => ['f', '(']
  | array => ['[']

def closing : Wrapper → Char
  | array => ']'
  | _ => ')'

/-- The wrapped text; the closing bracket stands on a line of its own, behind any line comment. -/
def around (w : Wrapper) (s : List Char) : List Char := w.opening ++ (s ++ ['\n', w.closing])

/-- What the wrapper makes of the expression in it. -/
def apply : Wrapper → Expr → Expr
  | group, e => e
  | call, e => .call "f" [e]
  | array, e => .array [some e]

def openingTokens : Wrapper → List Token
  | group => [⟨.punct "(", 0⟩]
  | call => [⟨.ident "f", 0⟩, ⟨.punct "(", 1⟩]
  | array => [⟨.punct "[", 0⟩]

def surroundings (w : Wrapper) (s : List Char) : Surroundings where
  front := w.opening
  gap := ['\n']
  behind := [w.closing]
  stop := match w with
    | array => .punct "]"
    | _ => .punct ")"
  ends := [⟨.eof, (w.around s).length⟩]
  blank := List.forall_mem_singleton.2 (by decide)
  stops := by cases w <;> decide
  ended := by simp

theorem classNames_apply (w : Wrapper) (e : Expr) : (w.apply e).classNames = e.classNames := by
  cases w <;> simp [apply, Expr.classNames, argumentClassNames, memberClassNames, valueClassNames]

theorem lexed_opening (w : Wrapper) (x : List Char) :
    Lexed (w.opening ++ x).length (w.opening ++ x) w.openingTokens x := by
  cases w with
  | group | array =>
    have hbracket (c : Char) (hc : c ∈ ['(', ')', '[', ']']) :
        Lexed (c :: x).length (c :: x) [⟨.punct (String.singleton c), 0⟩] x := by
      have hlexed : Lexed (c :: x).length (c :: x) _ x := .bracket hc
      rwa [Nat.sub_self] at hlexed
    exact hbracket _ (by decide)
  | call =>
    have hpart : isIdentPart '(' = false := by decide
    have hname : Lexed (x.length + 2) (['f'] ++ '(' :: x) _ ('(' :: x) :=
      .name (by decide) (by simp [hpart])
    have hparen : Lexed (x.length + 2) ('(' :: x) _ x := .bracket (by decide)
    have hplace : x.length + 2 - (['f'] ++ '(' :: x).length = 0 := by simp
    have hplace' : x.length + 2 - ('(' :: x).length = 1 := by simp
    rw [hplace] at hname
    rw [hplace'] at hparen
    exact hname.append hparen

/-- The tokens of a wrapped text are those of the text, with those of the wrapper around them. -/
theorem tokens_around (w : Wrapper) (h : tokenize s = .ok ts) :
    ∃ us, ts = us ++ [⟨.eof, s.length⟩] ∧ (∀ t ∈ us, t.lexeme ≠ .eof ∧ t.pos ≤ s.length) ∧
      tokenize (w.around s) = .ok (w.openingTokens ++
        (us.map (.shift w.opening.length) ++ (w.surroundings s).rest s)) := by
  obtain ⟨us, hts, hplain, hlexed⟩ := lexed_before_break h (Nat.le_refl _)
  refine ⟨us, hts, hplain, ?_⟩
  have hlength : (w.around s).length = w.opening.length + (s.length + 2) := by
    simp [around]
  have hclosing : Lexed (w.around s).length [w.closing]
      [⟨(w.surroundings s).stop, w.opening.length + (s.length + 1)⟩] [] := by
    have hbracket : Lexed (w.around s).length [w.closing] _ [] :=
      .bracket (by cases w <;> decide)
    have hplace : (w.around s).length - [w.closing].length = w.opening.length + (s.length + 1) := by
      rw [hlength, List.length_singleton]
      omega
    rw [hplace] at hbracket
    cases w <;> exact hbracket
  have hinner := hlexed w.opening.length [w.closing]
  rw [List.length_singleton, ← hlength] at hinner
  have hall : Lexed (w.around s).length (w.around s) _ [] :=
    (w.lexed_opening _).append (hinner.append hclosing)
  refine hall.tokenize.trans (congrArg Except.ok ?_)
  rw [List.append_assoc, List.append_assoc]
  rfl

end Wrapper

end

/-! ### One expression -/

/-- The text is read as the expression `e` up to its end, and its brackets nest. -/
inductive Complete (s : List Char) (e : Expr) : Prop
  | intro {ts r : List Token} : tokenize s = .ok ts → bracketsNest [] ts →
    Gives (Grammar.expr s parseLeniently ts) e r → current r = .eof → Complete s e

section

variable {s : List Char} {e : Expr} {ts r : List Token} {w : Wrapper}

/-- Inside a wrapper the expression is read up to the closing bracket. -/
theorem Wrapper.gives_inside {us : List Token} (w : Wrapper)
    (hplain : ∀ t ∈ us, t.lexeme ≠ .eof ∧ t.pos ≤ s.length)
    (h : Gives (Grammar.expr s parseLeniently (us ++ [⟨.eof, s.length⟩])) e r)
    (hr : current r = .eof) :
    Gives (Grammar.expr (w.around s) parseLeniently
      (us.map (.shift w.opening.length) ++ (w.surroundings s).rest s)) e
      ((w.surroundings s).rest s) := by
  obtain ⟨tail, h⟩ := h
  have hresumes : Resumes (w.surroundings s) s parseLeniently parseLeniently _ _ :=
    .of_append hplain fun _ _ => rfl
  obtain ⟨⟨value, rest, tail'⟩, ha, hvalue, hrest⟩ := (Grammar.rules_resume hresumes).expr _ h
  obtain rfl : e = value := hvalue
  obtain rfl : rest = (w.surroundings s).rest s := hrest.current_eof hr
  exact ⟨tail', ha⟩

/-- The wrapper reads what stands in it as its only member. -/
theorem Wrapper.gives {i : List Char → Except SymbolicDigit Expr} {x : List Char}
    {inner : List Token} (w : Wrapper) (hnested : Nested inner)
    (h : Gives (Grammar.expr (w.opening ++ x) i (inner ++ (w.surroundings s).rest s)) e
      ((w.surroundings s).rest s)) :
    Gives (Grammar.expr (w.opening ++ x) i
      (w.openingTokens ++ (inner ++ (w.surroundings s).rest s))) (w.apply e)
      [⟨.eof, (w.around s).length⟩] := by
  obtain ⟨-, hparen, hbracket, hcomma, hspread⟩ := Grammar.start_of_expr h
  cases w with
  | group =>
    refine Grammar.expr_of_binary (Grammar.atArrow_paren hnested rfl) ?_ rfl
    exact Grammar.binary_of_postfixed rfl
      (Grammar.postfixed_of_primary (Grammar.primary_paren h) rfl) rfl
  | call =>
    have hcall : Gives (Grammar.postfixed ('f' :: '(' :: x) i (⟨.ident "f", 0⟩ ::
        ([] ++ ⟨.punct "(", 1⟩ :: (inner ++ (call.surroundings s).rest s)))) _ _ :=
      Grammar.postfixed_call rfl .nil (Grammar.arguments_one hparen hspread h) rfl
    have hname (ts r : List Token) : Grammar.textBetween ('f' :: '(' :: x)
        (⟨.ident "f", 0⟩ :: ts) (⟨.punct "(", 1⟩ :: r) = "f" := rfl
    rw [hname] at hcall
    exact Grammar.expr_of_binary rfl (Grammar.binary_of_postfixed rfl hcall rfl) rfl
  | array =>
    refine Grammar.expr_of_binary rfl ?_ rfl
    refine Grammar.binary_of_postfixed rfl (Grammar.postfixed_of_primary ?_ rfl) rfl
    exact Grammar.primary_bracket (Grammar.elements_one hbracket hcomma hspread h)

theorem Complete.around (h : Complete s e) (w : Wrapper) : Complete (w.around s) (w.apply e) := by
  cases h with
  | @intro ts r htokens hnest hgives hr =>
    obtain ⟨us, rfl, hplain, haround⟩ := w.tokens_around htokens
    have hinner := w.gives_inside hplain hgives hr
    have hnested : Nested (us.map (.shift w.opening.length)) := by
      have hshift := bracketsNest_append hnest w.opening.length [] [⟨.eof, 0⟩]
      refine nested_of_bracketsNest hshift fun t ht => ?_
      obtain ⟨t, ht, rfl⟩ := List.mem_map.1 ht
      exact (hplain t ‹t ∈ us›).1
    refine .intro (r := [⟨.eof, (w.around s).length⟩]) haround ?_ ?_ rfl
    · have hall := bracketsNest_append hnest w.opening.length
      cases w with
      | group => exact hall [.punct ")"] _
      | call => exact hall [.punct ")"] _
      | array => exact hall [.punct "]"] _
    · exact w.gives hnested hinner

theorem Complete.parse (h : Complete s e) : parse s = .ok e := by
  cases h with
  | intro htokens _ hgives hr =>
    exact (parse_eq_ok_iff htokens (Grammar.start_of_expr hgives).1).2 ⟨_, hgives, .inl hr⟩

theorem Complete.wrapped (h : Complete s e) (ws : List Wrapper) :
    Complete (ws.foldr Wrapper.around s) (ws.foldr Wrapper.apply e) := by
  induction ws with
  | nil => exact h
  | cons w ws ih => exact ih.around w

theorem classNames_wrapped (ws : List Wrapper) (e : Expr) :
    (ws.foldr Wrapper.apply e).classNames = e.classNames := by
  induction ws with
  | nil => rfl
  | cons w ws ih => exact (w.classNames_apply _).trans ih

/-- Wrapping does not change what is found: a text whose brackets nest and whose tokens are all read
as one expression is the same expression in parentheses, the only argument in a call and the only
member in an array; to any depth of wrapping the class names are the same. By `hall` no type cast
is left behind the expression. The closing bracket stands behind a line break, since a line comment
may end the text. -/
theorem wrapping_transparent (htokens : tokenize s = .ok ts) (hsome : current ts ≠ .eof)
    (hnest : bracketsNest [] ts) (hparse : parse s = .ok e)
    (hall : ∀ a, Grammar.expr s parseLeniently ts = .ok a → current a.rest = .eof) :
    parse ('(' :: (s ++ ['\n', ')'])) = parse s ∧
    parse ('f' :: '(' :: (s ++ ['\n', ')'])) = .ok (.call "f" [e]) ∧
    parse ('[' :: (s ++ ['\n', ']'])) = .ok (.array [some e]) ∧
    ∀ ws : List Wrapper, parse (ws.foldr Wrapper.around s) = .ok (ws.foldr Wrapper.apply e) ∧
      (ws.foldr Wrapper.apply e).classNames = e.classNames := by
  obtain ⟨r, hgives, -⟩ := (parse_eq_ok_iff htokens hsome).1 hparse
  have hr : current r = .eof := by
    obtain ⟨tail, he⟩ := hgives
    exact hall _ he
  have hcomplete : Complete s e := .intro htokens hnest hgives hr
  refine ⟨?_, (hcomplete.around .call).parse, (hcomplete.around .array).parse, fun ws => ?_⟩
  · rw [hparse]
    exact (hcomplete.around .group).parse
  · exact ⟨(hcomplete.wrapped ws).parse, classNames_wrapped ws e⟩

/-- Brackets, and a line comment that would take a closing bracket on its line. -/
theorem wrapping_transparent_comment :
    parse "(cn(on, [\"m-1\"]) // on\n)".toList = parse "cn(on, [\"m-1\"]) // on".toList ∧
    parse "[f(cn(on, [\"m-1\"]) // on\n)\n]".toList =
      .ok (.array [some (.call "f" [.call "cn" [.other "identifier" "on",
        .array [some (.string "m-1")]]])]) := by
  have htokens : tokenize "cn(on, [\"m-1\"]) // on".toList = .ok [⟨.ident "cn", 0⟩,
      ⟨.punct "(", 2⟩, ⟨.ident "on", 3⟩, ⟨.punct ",", 5⟩, ⟨.punct "[", 7⟩, ⟨.string "m-1", 8⟩,
      ⟨.punct "]", 13⟩, ⟨.punct ")", 14⟩, ⟨.eof, 21⟩] := by cbv
  have hread : (Grammar.expr "cn(on, [\"m-1\"]) // on".toList parseLeniently [⟨.ident "cn", 0⟩,
      ⟨.punct "(", 2⟩, ⟨.ident "on", 3⟩, ⟨.punct ",", 5⟩, ⟨.punct "[", 7⟩, ⟨.string "m-1", 8⟩,
      ⟨.punct "]", 13⟩, ⟨.punct ")", 14⟩, ⟨.eof, 21⟩]).map (fun a => current a.rest) =
        .ok .eof := by cbv
  have hparse : parse "cn(on, [\"m-1\"]) // on".toList = .ok (.call "cn"
      [.other "identifier" "on", .array [some (.string "m-1")]]) := by cbv
  obtain ⟨hgroup, -, -, hany⟩ := wrapping_transparent htokens (by decide) (by decide) hparse
    fun a ha => by
      rw [ha] at hread
      exact Except.ok.inj hread
  exact ⟨hgroup, (hany [.array, .call]).1⟩

end

end DesignTokens.Script
