import DesignTokens.Proofs.Script.Grammar
import DesignTokens.Proofs.Script.Parse
import DesignTokens.Proofs.Script.Plain
import DesignTokens.Proofs.Text.Blank

/-!
# Reading undoes writing

`parse_text`: a plain expression is read back from its text. `Reads e` says that `e` has tokens of
its own wherever it is written in a text, and that the grammar gives it for these tokens in front
of any that end an operand. There is one lemma for each constructor, and the induction over the
expression (`Expr.reads`) puts them together; interpolations are read on their own, so the
induction over texts is on their length.
-/

namespace DesignTokens.Script

open Grammar (Gives Members Nested)

section

variable (source : List Char) (interpolation : List Char → Except SymbolicDigit Expr)

/-- The grammar gives `e` for the tokens `ts`, in front of any that end an operand. -/
structure ReadsAs (e : Expr) (ts : List Token) : Prop where
  starts : (current ts).startsOperand
  nested : Nested ts
  noArrow : ∀ r, (current r).isPunct "=>" = false → atArrow (ts ++ r) = false
  binary : ∀ r, (current r).endsOperand → Gives (Grammar.binary source interpolation (ts ++ r)) e r

/-- Where the expression is written in the text, and no name goes on behind it, it is read. -/
def Reads (e : Expr) : Prop := ∀ u, e.chars ++ u <:+ source → u.head?.all (!isIdentPart ·) →
  ∃ ts, Lexed source.length (e.chars ++ u) ts u ∧ ReadsAs source interpolation e ts

/-- The text `s`, written before a closing bracket, has tokens for which `rule` gives `a`. -/
def ReadsUpTo {α : Type} (close : Char) (rule : (ts : List Token) → Grammar.Parsed α ts)
    (s : List Char) (a : α) : Prop := ∀ u, s ++ close :: u <:+ source → ∃ ts,
  Lexed source.length (s ++ close :: u) ts (close :: u) ∧ Nested ts ∧
    ∀ o r, Gives (rule (ts ++ ⟨.punct (String.singleton close), o⟩ :: r)) a r

def ReadsArguments (es : List Expr) : Prop :=
  ReadsUpTo source ')' (Grammar.arguments source interpolation)
    (Text.joinWith [',', ' '] (Expr.argumentChars es)) es

def ReadsMembers (es : List (Option Expr)) : Prop :=
  ReadsUpTo source ']' (Grammar.elements source interpolation)
    (Text.joinWith [',', ' '] (Expr.memberChars es)) es

/-- Shorter expressions are read where they are interpolated. -/
def ReadsInterpolated : Prop :=
  ∀ e : Expr, e.Plain → e.chars.length < source.length → interpolation e.chars = .ok e

end

variable {source : List Char} {interpolation : List Char → Except SymbolicDigit Expr}
variable {e l r t c a : Expr} {ts : List Token} {args es : List Expr} {f v : String} {o o' : Nat}

theorem bracketed_append (t t' : Token) (r : List Token) :
    t :: (ts ++ [t']) ++ r = t :: (ts ++ t' :: r) := by simp

theorem starts_append (h : (current ts).startsOperand) (r : List Token) :
    (current (ts ++ r)).startsOperand := by
  cases ts with
  | nil => cases h
  | cons t ts => exact h

namespace ReadsAs

theorem expr (h : ReadsAs source interpolation e ts) {r : List Token}
    (hr : (current r).endsExpr) : Gives (Grammar.expr source interpolation (ts ++ r)) e r := by
  obtain ⟨hlogical, -, harrow⟩ := Lexeme.ends_of_expr hr
  exact Grammar.expr_of_binary (h.noArrow r harrow)
    (h.binary r (Lexeme.ends_of_logical hlogical).1) hr

theorem of_primary (hstarts : (current ts).startsOperand) (hnested : Nested ts)
    (harrow : ∀ r, (current r).isPunct "=>" = false → atArrow (ts ++ r) = false)
    (h : ∀ r, Gives (Grammar.primary source interpolation (ts ++ r)) e r) :
    ReadsAs source interpolation e ts where
  starts := hstarts
  nested := hnested
  noArrow := harrow
  binary r hr := Grammar.binary_of_postfixed (starts_append hstarts r)
    (Grammar.postfixed_of_primary (h r) hr) hr

theorem paren (hnested : Nested ts) (h : ∀ r, Gives (Grammar.expr source interpolation
    (ts ++ ⟨.punct ")", o'⟩ :: r)) e (⟨.punct ")", o'⟩ :: r)) :
    ReadsAs source interpolation e (⟨.punct "(", o⟩ :: (ts ++ [⟨.punct ")", o'⟩])) := by
  refine .of_primary (by rfl) hnested.parens (fun r hr => ?_) fun r => ?_
  · rw [bracketed_append]
    exact Grammar.atArrow_paren hnested hr
  · rw [bracketed_append]
    exact Grammar.primary_paren (h r)

end ReadsAs

/-! ### Texts and names -/

theorem reads_string (hv : (Expr.string v).Plain) : Reads source interpolation (.string v) := by
  intro u _ _
  have hlexed : Lexed source.length _ _ u := .string (.inl rfl) (readString_plain (.inl rfl) hv u)
  have hchars : (Expr.string v).chars ++ u = '"' :: (v.toList ++ '"' :: u) := by simp [Expr.chars]
  rw [String.ofList_toList] at hlexed
  rw [hchars]
  exact ⟨_, hlexed, .of_primary (by rfl) (.one rfl rfl nofun) (fun _ _ => rfl)
    fun _ => Grammar.primary_string v⟩

theorem IsWord.starts {w : String} (h : IsWord w) : (Lexeme.ident w).startsOperand := by
  have hunary : (Lexeme.ident w).isUnary = false := h.noUnary
  simp [Lexeme.startsOperand, Lexeme.isPunct, hunary]

theorem reads_other {kind w : String} (h : (Expr.other kind w).Plain) :
    Reads source interpolation (.other kind w) := by
  have hword := IsWord.of_other h
  have hkind : (if literalKeywords.contains w then "literal" else "identifier") = kind := by
    rcases h with ⟨rfl, h⟩ | ⟨rfl, h⟩
    · exact if_neg (Bool.eq_false_iff.1 (IsWord.of_variable h).2)
    · exact if_pos h
  intro u _ hu
  have hlexed : Lexed source.length _ _ u := .name hword.name hu
  rw [String.ofList_toList] at hlexed
  rw [hword.chars]
  exact ⟨_, hlexed, .of_primary hword.starts (.one rfl rfl nofun)
    (fun _ hr => Grammar.atArrow_name hword.noAsync hr) fun _ => hkind ▸ Grammar.primary_name⟩

/-! ### Templates -/

theorem mapM_chars (h : ∀ e ∈ es, interpolation e.chars = .ok e) :
    (es.map Expr.chars).mapM interpolation = .ok es := by
  induction es with
  | nil => rfl
  | cons e es ih =>
    obtain ⟨he, hes⟩ := List.forall_mem_cons.1 h
    rw [List.map_cons, List.mapM_cons, he, ih hes]
    rfl

theorem reads_template {qs : List String} (h : (Expr.template qs es).Plain)
    (hes : ∀ e ∈ es, e.chars.length < source.length → interpolation e.chars = .ok e) :
    Reads source interpolation (.template qs es) := by
  obtain ⟨hlength, hqs, hplain⟩ := h
  cases qs with
  | nil => cases hlength
  | cons q qs =>
    obtain ⟨hq, hqs⟩ := List.forall_mem_cons.1 hqs
    have hlength := Nat.succ.inj hlength
    obtain ⟨hfst, hsnd⟩ := Expr.map_parts hlength
    intro u hsuffix _
    have htemplated := Expr.interpolated_templated es qs hlength hqs hplain q.toList u hq
    have hchars : (Expr.template (q :: qs) es).chars ++ u =
        '`' :: (q.toList ++ (Expr.interpolated es qs ++ '`' :: u)) := by simp [Expr.chars]
    rw [hchars] at hsuffix ⊢
    generalize q.toList ++ (Expr.interpolated es qs ++ '`' :: u) = s at htemplated hsuffix ⊢
    have hreads : ReadsTemplate (s.length + 1) ⟨q.toList, Expr.parts es qs⟩ s u := by
      simpa using htemplated.reads (s.length + 1) []
    have hinterpolations : (Template.mk q.toList (Expr.parts es qs)).interpolations.mapM
        interpolation = .ok es := by
      rw [Template.interpolations, hfst]
      refine mapM_chars fun e he => hes e he ?_
      have hmem : e.chars ∈ (Template.mk q.toList (Expr.parts es qs)).interpolations := by
        rw [Template.interpolations, hfst]
        exact List.mem_map_of_mem he
      exact Nat.lt_of_lt_of_le (hreads.length_lt hmem)
        ((List.suffix_cons '`' s).trans hsuffix).length_le
    have hquasis : (Template.mk q.toList (Expr.parts es qs)).quasis.map String.ofList =
        q :: qs := by simp [Template.quasis, hsnd]
    exact ⟨_, .template hreads, .of_primary (by rfl) (.one rfl rfl nofun) (fun _ _ => rfl)
      fun _ => hquasis ▸ Grammar.primary_template hinterpolations⟩

/-! ### Arguments and members -/

section

variable {α β : Type} {close : Char} {x : α} {y : β} {s : List Char}
variable {rule : (ts : List Token) → Grammar.Parsed α ts}
variable {rule' : (ts : List Token) → Grammar.Parsed β ts}

theorem ReadsUpTo.nil (h : ∀ o r, Gives (rule (⟨.punct (String.singleton close), o⟩ :: r)) x r) :
    ReadsUpTo source close rule [] x := fun _ _ => ⟨[], .nil, .nil, h⟩

/-- An expression is the last of a list. -/
theorem Reads.last (he : Reads source interpolation e) (hpart : isIdentPart close = false)
    (hclose : (Lexeme.punct (String.singleton close)).endsExpr)
    (h : ∀ {ts o r}, (current ts).startsOperand →
      Gives (Grammar.expr source interpolation ts) e
        (⟨.punct (String.singleton close), o⟩ :: r) → Gives (rule ts) x r) :
    ReadsUpTo source close rule e.chars x := by
  intro u hsuffix
  obtain ⟨ts, hlexed, hreads⟩ := he _ hsuffix (by simpa using hpart)
  exact ⟨ts, hlexed, hreads.nested,
    fun o r => h (starts_append hreads.starts _) (hreads.expr hclose)⟩

/-- An expression stands in a list in front of more. -/
theorem Reads.more (he : Reads source interpolation e) (hs : ReadsUpTo source close rule' s y)
    (h : ∀ {ts o r u}, (current ts).startsOperand →
      Gives (Grammar.expr source interpolation ts) e (⟨.punct ",", o⟩ :: r) →
      Gives (rule' r) y u → Gives (rule ts) x u) :
    ReadsUpTo source close rule (e.chars ++ ([',', ' '] ++ s)) x := by
  intro u hsuffix
  have hassoc : e.chars ++ ([',', ' '] ++ s) ++ close :: u =
      e.chars ++ ',' :: ' ' :: (s ++ close :: u) := by simp
  rw [hassoc] at hsuffix ⊢
  have hrest : s ++ close :: u <:+ source :=
    .trans ⟨e.chars ++ [',', ' '], by simp⟩ hsuffix
  obtain ⟨ts, hlexed, hreads⟩ := he _ hsuffix (by rfl)
  obtain ⟨ts', hlexed', hnested, hgives⟩ := hs u hrest
  refine ⟨_, hlexed.append (.append .comma hlexed'),
    hreads.nested.append (.append (.one (by decide) (by decide) nofun) hnested), fun o r => ?_⟩
  rw [List.append_assoc]
  exact h (starts_append hreads.starts _) (hreads.expr (by rfl)) (hgives o r)

end

theorem ReadsArguments.cons (he : Reads source interpolation e)
    (hes : ReadsArguments source interpolation es) :
    ReadsArguments source interpolation (e :: es) := by
  unfold ReadsArguments at *
  cases es with
  | nil =>
    rw [Expr.argumentChars, joinWith_cons, Expr.argumentChars, if_pos rfl, List.append_nil]
    exact he.last (by decide) (by rfl) fun hts h => Grammar.arguments_last hts h
  | cons e' es =>
    rw [Expr.argumentChars, joinWith_cons, Expr.argumentChars, if_neg (List.cons_ne_nil _ _)]
    exact he.more hes fun hts h hargs => Grammar.arguments_more hts h hargs

theorem ReadsMembers.cons (he : Reads source interpolation e) {es : List (Option Expr)}
    (hes : ReadsMembers source interpolation es) :
    ReadsMembers source interpolation (some e :: es) := by
  unfold ReadsMembers at *
  cases es with
  | nil =>
    rw [Expr.memberChars, joinWith_cons, Expr.memberChars, if_pos rfl, List.append_nil]
    exact he.last (by decide) (by rfl) fun hts h => Grammar.elements_last hts h
  | cons e' es =>
    rw [Expr.memberChars, joinWith_cons, Expr.memberChars, if_neg (List.cons_ne_nil _ _)]
    exact he.more hes fun hts h hes => Grammar.elements_more hts h hes

/-- A hole with more members behind it. -/
theorem ReadsMembers.hole {es : List (Option Expr)} (hne : es ≠ [])
    (hes : ReadsMembers source interpolation es) :
    ReadsMembers source interpolation (none :: es) := by
  have hchars : Text.joinWith [',', ' '] (Expr.memberChars (none :: es)) =
      ',' :: ' ' :: Text.joinWith [',', ' '] (Expr.memberChars es) := by
    cases es with
    | nil => exact absurd rfl hne
    | cons e es =>
      rw [Expr.memberChars, joinWith_cons, Expr.memberChars, if_neg (List.cons_ne_nil _ _)]
      rfl
  unfold ReadsMembers at *
  rw [hchars]
  intro u hsuffix
  obtain ⟨ts, hlexed, hnested, hgives⟩ :=
    hes u (.trans ((List.suffix_cons ' ' _).trans (List.suffix_cons ',' _)) hsuffix)
  exact ⟨_, .append .comma hlexed, .append (.one (by decide) (by decide) nofun) hnested,
    fun o r => Grammar.elements_hole (hgives o r)⟩

/-- A member, which is no hole at the end of the array. -/
theorem ReadsMembers.member {m : Option Expr} {es : List (Option Expr)}
    (hm : ∀ e ∈ m, Reads source interpolation e) (hlast : (m :: es).getLast? ≠ some none)
    (hes : es.getLast? ≠ some none → ReadsMembers source interpolation es) :
    ReadsMembers source interpolation (m :: es) := by
  have hes : ReadsMembers source interpolation es := hes <| by
    cases es with
    | nil => nofun
    | cons => rwa [List.getLast?_cons_cons] at hlast
  cases m with
  | none =>
    refine .hole ?_ hes
    rintro rfl
    exact hlast rfl
  | some e => exact .cons (hm e rfl) hes

theorem reads_array {es : List (Option Expr)} (hes : ReadsMembers source interpolation es) :
    Reads source interpolation (.array es) := by
  intro u hsuffix _
  have hchars : (Expr.array es).chars ++ u =
      '[' :: (Text.joinWith [',', ' '] (Expr.memberChars es) ++ ']' :: u) := by simp [Expr.chars]
  rw [hchars] at hsuffix ⊢
  obtain ⟨ts, hlexed, hnested, hgives⟩ := hes u ((List.suffix_cons '[' _).trans hsuffix)
  refine ⟨_ :: (ts ++ [_]), .append (.bracket (by decide)) (hlexed.append (.bracket (by decide))),
    .of_primary (by rfl) hnested.squares (fun _ _ => rfl) fun r => ?_⟩
  rw [bracketed_append]
  exact Grammar.primary_bracket (hgives _ r)

/-! ### Calls -/

theorem head_members {ms : List (List Char)} {r : List Char}
    (hr : r.head?.all (!isIdentPart ·)) :
    (ms.flatMap ('.' :: ·) ++ r).head?.all (!isIdentPart ·) := by
  cases ms with
  | nil => exact hr
  | cons m ms => rfl

theorem lexed_members {size : Nat} {ms : List (List Char)} (hms : ∀ m ∈ ms, isName m)
    {r : List Char} (hr : r.head?.all (!isIdentPart ·)) :
    ∃ ts, Lexed size (ms.flatMap ('.' :: ·) ++ r) ts r ∧ Members ts := by
  induction ms with
  | nil => exact ⟨[], .nil, .nil⟩
  | cons m ms ih =>
    obtain ⟨hm, hms⟩ := List.forall_mem_cons.1 hms
    obtain ⟨ts, hlexed, hmembers⟩ := ih hms
    obtain ⟨c, m, rfl, hc, hascii, -⟩ := name_cons hm
    have hname := Lexed.append (.name hm (head_members hr)) hlexed
    rw [List.flatMap_cons, List.append_assoc]
    exact ⟨_, .append (.point hc hascii) hname, .cons _ _ _ hmembers⟩

/-- A callee is a word and accesses to members. -/
theorem lexed_callee (size : Nat) {x : List Char} (hx : IsCallee x) {r : List Char}
    (hr : r.head?.all (!isIdentPart ·)) :
    ∃ w ms, Lexed size (x ++ r) (⟨.ident w, size - (x ++ r).length⟩ :: ms) r ∧
      IsWord w ∧ literalKeywords.contains w = false ∧ Members ms := by
  obtain ⟨n, ms, rfl, hn, hms⟩ := hx
  obtain ⟨ts, hlexed, hmembers⟩ := lexed_members hms hr
  have hword : IsWord (String.ofList n) ∧ literalKeywords.contains (String.ofList n) = false :=
    IsWord.of_variable (by rwa [String.toList_ofList])
  rw [List.append_assoc]
  exact ⟨_, ts, .append (.name (name_of_variable hn) (head_members hr)) hlexed, hword.1, hword.2,
    hmembers⟩

theorem textBetween_of_suffix {x y : List Char} (h : x ++ y <:+ source)
    (hx : ∀ c ∈ x, Text.isBlank c = false) (l l' : Lexeme) :
    Grammar.textBetween source [⟨l, source.length - (x ++ y).length⟩]
      [⟨l', source.length - y.length⟩] = String.ofList x := by
  obtain ⟨front, rfl⟩ := h
  have hstart : (front ++ (x ++ y)).length - (x ++ y).length = front.length := by simp
  have hend : (front ++ (x ++ y)).length - y.length - front.length = x.length := by simp; omega
  rw [Grammar.textBetween, Grammar.place, Grammar.place, hstart, hend, List.drop_left,
    List.take_left, Text.trim_eq_self hx]

theorem ReadsAs.call {w : String} {ms : List Token} {o'' : Nat} (hw : IsWord w)
    (hliteral : literalKeywords.contains w = false) (hms : Members ms) (hnested : Nested ts)
    (hargs : ∀ o r, Gives (Grammar.arguments source interpolation (ts ++ ⟨.punct ")", o⟩ :: r))
      args r)
    (htext : Grammar.textBetween source [⟨.ident w, o⟩] [⟨.punct "(", o'⟩] = f) :
    ReadsAs source interpolation (.call f args)
      (⟨.ident w, o⟩ :: (ms ++ ⟨.punct "(", o'⟩ :: (ts ++ [⟨.punct ")", o''⟩]))) where
  starts := hw.starts
  nested :=
    have hname : Nested [⟨.ident w, o⟩] := .one rfl rfl nofun
    hname.append (hms.nested.append hnested.parens)
  noArrow r _ := by
    refine Grammar.atArrow_name hw.noAsync ?_
    cases hms with
    | nil => rfl
    | cons => rfl
  binary r hr := by
    have happend : ⟨.ident w, o⟩ :: (ms ++ ⟨.punct "(", o'⟩ :: (ts ++ [⟨.punct ")", o''⟩])) ++ r =
        ⟨.ident w, o⟩ :: (ms ++ ⟨.punct "(", o'⟩ :: (ts ++ ⟨.punct ")", o''⟩ :: r)) := by simp
    rw [happend]
    subst htext
    exact Grammar.binary_of_postfixed hw.starts
      (Grammar.postfixed_call hliteral hms (hargs o'' r) hr) hr

theorem reads_call (hf : IsCallee f.toList) (hargs : ReadsArguments source interpolation args) :
    Reads source interpolation (.call f args) := by
  intro u hsuffix _
  have hchars : (Expr.call f args).chars ++ u =
      f.toList ++ '(' :: (Text.joinWith [',', ' '] (Expr.argumentChars args) ++ ')' :: u) := by
    simp [Expr.chars]
  rw [hchars] at hsuffix ⊢
  have hrest := (List.suffix_append f.toList _).trans hsuffix
  obtain ⟨ts, hlexed, hnested, hgives⟩ := hargs u ((List.suffix_cons '(' _).trans hrest)
  generalize Text.joinWith [',', ' '] (Expr.argumentChars args) ++ ')' :: u = s at *
  obtain ⟨w, ms, hcallee, hword, hliteral, hms⟩ :=
    lexed_callee source.length hf (r := '(' :: s) (by rfl)
  -- the callee is cut out of the text by the places of its first token and the parenthesis
  have htext := textBetween_of_suffix hsuffix (not_blank_of_callee hf) (.ident w) (.punct "(")
  rw [String.ofList_toList] at htext
  exact ⟨_, hcallee.append (.append (.bracket (by decide)) (hlexed.append (.bracket (by decide)))),
    .call hword hliteral hms hnested hgives htext⟩

/-! ### Operators and conditionals -/

/-- The signs that are written between blanks. -/
def spacedSigns : List String := ["&&", "||", "??", "?", ":"]

theorem lexed_spaced (size : Nat) {p : String} (hp : p ∈ spacedSigns) (s : List Char) :
    ∃ o, Lexed size (' ' :: (p.toList ++ ' ' :: s)) [⟨.punct p, o⟩] s ∧
      Nested [⟨.punct p, o⟩] := by
  simp only [spacedSigns, List.mem_cons, List.not_mem_nil, or_false] at hp
  rcases hp with rfl | rfl | rfl | rfl | rfl
  all_goals exact ⟨_, .append .space (.append (.punct rfl (by decide) rfl) .space),
    .one (by decide) (by decide) nofun⟩

theorem operator_ends (op : LogicalOp) : op.text ∈ spacedSigns ∧
    (Lexeme.punct op.text).endsOperand ∧ (Lexeme.punct op.text).isPunct "=>" = false := by
  cases op <;> decide

theorem reads_logical {op : LogicalOp} (hl : Reads source interpolation l)
    (hr : Reads source interpolation r) : Reads source interpolation (.logical op l r) := by
  intro u hsuffix _
  have hchars : (Expr.logical op l r).chars ++ u =
      '(' :: (l.chars ++ ' ' :: (op.text.toList ++ ' ' :: (r.chars ++ ')' :: u))) := by
    simp [Expr.chars]
  rw [hchars] at hsuffix ⊢
  have hright : r.chars ++ ')' :: u <:+ source :=
    .trans ⟨'(' :: (l.chars ++ ' ' :: (op.text.toList ++ [' '])), by simp⟩ hsuffix
  obtain ⟨hspaced, hends, harrow⟩ := operator_ends op
  obtain ⟨tl, hlexedLeft, hleft⟩ := hl _ ((List.suffix_cons '(' _).trans hsuffix) (by rfl)
  obtain ⟨o, hlexedSign, hsign⟩ := lexed_spaced source.length hspaced (r.chars ++ ')' :: u)
  obtain ⟨tr, hlexedRight, hright⟩ := hr _ hright (by rfl)
  have hinner := hlexedLeft.append (hlexedSign.append hlexedRight)
  refine ⟨_, .append (.bracket (by decide)) (hinner.append (.bracket (by decide))),
    .paren (hleft.nested.append (hsign.append hright.nested)) fun _ => ?_⟩
  rw [List.append_assoc]
  exact Grammar.expr_of_conditional (hleft.noArrow _ harrow) (Grammar.conditional_of_logical
    (Grammar.logical_operator rfl (hleft.binary _ hends) (hright.binary _ (by rfl)) (by rfl))
    (by rfl))

theorem reads_conditional (ht : Reads source interpolation t) (hc : Reads source interpolation c)
    (ha : Reads source interpolation a) : Reads source interpolation (.conditional t c a) := by
  intro u hsuffix _
  have hchars : (Expr.conditional t c a).chars ++ u = '(' :: (t.chars ++ ' ' :: ("?".toList ++
      ' ' :: (c.chars ++ ' ' :: (":".toList ++ ' ' :: (a.chars ++ ')' :: u))))) := by
    simp [Expr.chars]
  rw [hchars] at hsuffix ⊢
  have hconsequent : c.chars ++ ' ' :: (":".toList ++ ' ' :: (a.chars ++ ')' :: u)) <:+ source :=
    .trans ⟨'(' :: (t.chars ++ [' ', '?', ' ']), by simp⟩ hsuffix
  have halternate : a.chars ++ ')' :: u <:+ source :=
    .trans ⟨c.chars ++ [' ', ':', ' '], by simp⟩ hconsequent
  obtain ⟨tt, hlexedTest, htest⟩ := ht _ ((List.suffix_cons '(' _).trans hsuffix) (by rfl)
  obtain ⟨o, hlexedQuestion, hquestion⟩ := lexed_spaced source.length (p := "?") (by decide) _
  obtain ⟨tc, hlexedConsequent, hconsequent⟩ := hc _ hconsequent (by rfl)
  obtain ⟨o', hlexedColon, hcolon⟩ := lexed_spaced source.length (p := ":") (by decide) _
  obtain ⟨ta, hlexedAlternate, halternate⟩ := ha _ halternate (by rfl)
  have hinner := hlexedTest.append (hlexedQuestion.append (hlexedConsequent.append
    (hlexedColon.append hlexedAlternate)))
  refine ⟨_, .append (.bracket (by decide)) (hinner.append (.bracket (by decide))),
    .paren (htest.nested.append (hquestion.append (hconsequent.nested.append
      (hcolon.append halternate.nested)))) fun r => ?_⟩
  have htokens (o'' : Nat) : tt ++ ([⟨.punct "?", o⟩] ++ (tc ++ ([⟨.punct ":", o'⟩] ++ ta))) ++
      ⟨.punct ")", o''⟩ :: r = tt ++ ⟨.punct "?", o⟩ :: (tc ++ ⟨.punct ":", o'⟩ :: (ta ++
        ⟨.punct ")", o''⟩ :: r)) := by simp
  rw [htokens]
  exact Grammar.expr_of_conditional (htest.noArrow _ (by rfl)) (Grammar.conditional_question
    (Grammar.logical_of_binary (htest.binary _ (by rfl)) (by rfl))
    (hconsequent.expr (by rfl)) (halternate.expr (by rfl)))

/-! ### Expressions and texts -/

namespace Expr

mutual

theorem reads (hinterpolation : ReadsInterpolated source interpolation) :
    (e : Expr) → e.Plain → Reads source interpolation e
  | string _, h => reads_string h
  | template .., h => reads_template h fun e he => hinterpolation e (plain_of_mem h.2.2 he)
  | call _ args, h => reads_call h.1 (arguments_read hinterpolation args h.2)
  | array es, h => reads_array (members_read hinterpolation es h.2 h.1)
  | logical _ l r, h => reads_logical (reads hinterpolation l h.1) (reads hinterpolation r h.2)
  | conditional t c a, ⟨ht, hc, ha⟩ => reads_conditional (reads hinterpolation t ht)
    (reads hinterpolation c hc) (reads hinterpolation a ha)
  | other .., h => reads_other h
termination_by structural e => e

theorem arguments_read (hinterpolation : ReadsInterpolated source interpolation) :
    (es : List Expr) → ArgumentsPlain es → ReadsArguments source interpolation es
  | [], _ => .nil fun _ _ => Grammar.arguments_end
  | e :: es, h => .cons (reads hinterpolation e h.1) (arguments_read hinterpolation es h.2)
termination_by structural es => es

theorem members_read (hinterpolation : ReadsInterpolated source interpolation) :
    (es : List (Option Expr)) → MembersPlain es → es.getLast? ≠ some none →
      ReadsMembers source interpolation es
  | [], _, _ => .nil fun _ _ => Grammar.elements_end
  | m :: es, h, hlast =>
    .member (hole_reads hinterpolation m h.1) hlast (members_read hinterpolation es h.2)
termination_by structural es => es

theorem hole_reads (hinterpolation : ReadsInterpolated source interpolation) :
    (m : Option Expr) → HolePlain m → ∀ e ∈ m, Reads source interpolation e
  | none, _, _, he => by cases he
  | some e, h, _, rfl => reads hinterpolation e h
termination_by structural m => m

end

end Expr

/-- A text is the expression that the grammar gives for all its tokens. -/
theorem parse_of_lexed {s : List Char} (hparse : parse s =
      ((tokenize s).mapError TokenError.toParseError >>= Grammar.whole s interpolation))
    (hlexed : Lexed s.length s ts []) (hstarts : (current ts).startsOperand)
    (hexpr : ∀ r, (current r).endsExpr → Gives (Grammar.expr s interpolation (ts ++ r)) e r) :
    parse s = .ok e := by
  have hexpr := hexpr [⟨.eof, s.length⟩] (by rfl)
  obtain ⟨-, -, -, -, hstart⟩ := Lexeme.start_of_operand (starts_append hstarts [⟨.eof, s.length⟩])
  rw [hparse, hlexed.tokenize]
  exact (Grammar.whole_eq_ok_iff hstart).2 ⟨_, hexpr, .inl rfl⟩

theorem parse_chars (e : Expr) (h : e.Plain) : parse e.chars = .ok e := by
  induction hn : e.chars.length using Nat.strongRecOn generalizing e with
  | ind n ih =>
    subst hn
    obtain ⟨interpolation, hlenient, hparse⟩ := parse_shorter e.chars
    -- an interpolation is a text of its own, shorter than the one it stands in
    have hinterpolation : ReadsInterpolated e.chars interpolation := by
      intro e' h' hlt
      rw [hlenient _ hlt, parseLeniently, ih _ hlt e' h' rfl]
      rfl
    obtain ⟨ts, hlexed, hreads⟩ := e.reads hinterpolation h [] (by simp) rfl
    rw [List.append_nil] at hlexed
    exact parse_of_lexed hparse hlexed hreads.starts fun _ => hreads.expr

/-- A plain expression is read back from its text. -/
theorem parse_text (e : Expr) (h : e.Plain) : parse e.text.toList = .ok e := by
  rw [Expr.text, String.toList_ofList]
  exact parse_chars e h

/-- A call with an array that has a hole, a conditional and a template. -/
def mergeCall : Expr :=
  .call "cn.merge" [.array [none, some (.string "m-1")],
    .conditional (.other "identifier" "on")
      (.template ["p-", ""] [.logical .nullish (.other "identifier" "size") (.string "4")])
      (.other "literal" "null")]

theorem parse_text_mergeCall : mergeCall.Plain ∧ parse mergeCall.text.toList = .ok mergeCall := by
  have hcallee : IsCallee "cn.merge".toList := ⟨"cn".toList, ["merge".toList], by decide⟩
  have hmember : (Expr.string "m-1").Plain := List.all_iff_forall_prop.1 (by decide)
  have hfour : (Expr.string "4").Plain := List.all_iff_forall_prop.1 (by decide)
  have hstatic : ∀ q ∈ ["p-", ""], IsStatic q.toList := by
    simp only [List.forall_mem_cons, List.not_mem_nil, false_imp_iff, implies_true, and_true]
    exact ⟨⟨by decide, by decide, by decide⟩, ⟨by decide, by decide, by decide⟩⟩
  have htemplate : (Expr.template ["p-", ""]
      [.logical .nullish (.other "identifier" "size") (.string "4")]).Plain :=
    ⟨rfl, hstatic, ⟨.inl ⟨rfl, by decide⟩, hfour⟩, trivial⟩
  have hplain : mergeCall.Plain := ⟨hcallee, ⟨nofun, trivial, hmember, trivial⟩,
    ⟨.inl ⟨rfl, by decide⟩, htemplate, .inr ⟨rfl, by decide⟩⟩, trivial⟩
  exact ⟨hplain, parse_text _ hplain⟩

end DesignTokens.Script
