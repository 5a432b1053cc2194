import DesignTokens.Proofs.Script.Literal

/-!
# Balanced script

`Balanced closers s`: the text `s` closes the brackets that `closers` expects, innermost first, and
those that it opens itself; literals and comments are passed over, and interpolations are balanced
in turn. `Balanced.closes` and `Templated.reads`: the bracket reader ends right behind such a text,
whatever follows it.
-/

namespace DesignTokens.Script

/-- The characters at which a literal, a comment, a bracket, a slash or a tag may begin. -/
def marks : List Char := ['"', '\'', '`', '/', '<', '(', ')', '[', ']', '\x7b', '\x7d']

def IsCloser (c : Char) : Prop := c = ')' ∨ c = ']' ∨ c = '\x7d'

mutual

/-- The text closes the expected brackets; outside of literals and comments it has no slash and no
`<`. -/
inductive Balanced : List Char → List Char → Prop
  | nil : Balanced [] []
  | plain {closers s : List Char} {c : Char} : c ∉ marks → Balanced closers s →
    Balanced closers (c :: s)
  | line {closers z s : List Char} : '\n' ∉ z → Balanced closers s →
    Balanced closers ('/' :: '/' :: (z ++ '\n' :: s))
  | block {closers z s : List Char} : afterBlock? z = some s → Balanced closers s →
    Balanced closers ('/' :: '*' :: z)
  | string {closers r : List Char} {q : Char} {v : Read (List Char) r} :
    q = '"' ∨ q = '\'' → readString q r = .ok v → Balanced closers v.rest →
      Balanced closers (q :: r)
  | template {closers z s : List Char} {t : Template} : Templated t z s → Balanced closers s →
    Balanced closers ('`' :: z)
  | opened {closers s : List Char} {c d : Char} : closer? c = some d →
    Balanced (d :: closers) s → Balanced closers (c :: s)
  | closed {closers s : List Char} {d : Char} : IsCloser d → Balanced closers s →
    Balanced (d :: closers) (d :: s)

/-- The template `t` and its closing backtick stand at the front of the text, and the second text
is left; interpolations are balanced. -/
inductive Templated : Template → List Char → List Char → Prop
  | close (s : List Char) : Templated ⟨[], []⟩ ('`' :: s) s
  | escape {t : Template} {z s : List Char} (c : Char) : Templated t z s →
    Templated (t.prepend ['\\', c]) ('\\' :: c :: z) s
  | hole {t : Template} {x z s : List Char} : Balanced [] x → Templated t z s →
    Templated ⟨[], (x, t.first) :: t.parts⟩ ('$' :: '\x7b' :: (x ++ '\x7d' :: z)) s
  | char {t : Template} {z s : List Char} {c : Char} : c ≠ '\\' → c ≠ '`' →
    ¬(c = '$' ∧ z.head? = some '\x7b') → Templated t z s → Templated (t.prepend [c]) (c :: z) s

end

theorem Balanced.plains {closers n s : List Char} (hn : ∀ c ∈ n, c ∉ marks)
    (h : Balanced closers s) : Balanced closers (n ++ s) := by
  induction n with
  | nil => exact h
  | cons c n ih =>
    obtain ⟨hc, hn⟩ := List.forall_mem_cons.1 hn
    exact .plain hc (ih hn)

/-- Static text in which nothing begins stands for itself. -/
theorem Templated.plain {q z s : List Char} {t : Template} (htick : '`' ∉ q) (hescape : '\\' ∉ q)
    (hhole : ¬['$', '\x7b'] <:+: q) (hz : z.head? ≠ some '\x7b') (h : Templated t z s) :
    Templated (t.prepend q) (q ++ z) s := by
  induction q with
  | nil => exact h
  | cons c q ih =>
    rw [List.mem_cons, not_or] at htick hescape
    have hq := ih htick.2 hescape.2 fun h => hhole (h.trans (List.suffix_cons c q).isInfix)
    refine .char (Ne.symm hescape.1) (Ne.symm htick.1) ?_ hq
    rintro ⟨rfl, hbrace⟩
    cases q with
    | nil => exact hz hbrace
    | cons d q =>
      cases hbrace
      exact hhole ⟨[], q, rfl⟩

/-! ### What the readers do at the front of a text -/

section

variable {left : Nat} {closer c d : Char} {outer r r' s u x z : List Char}

/-- The brackets that are open, innermost first, close in `s`, and `u` is left. -/
def Closes (left : Nat) (closer : Char) (outer s u : List Char) : Prop :=
  ∃ b, readBracketed left closer outer s = .ok b ∧ b.rest = u

theorem including_iff {p : Except LexFault (Read (List Char) r)} (h : Tail r s) :
    (∃ b, (p >>= fun b => pure (b.including h)) = .ok b ∧ b.rest = u) ↔
      ∃ b, p = .ok b ∧ b.rest = u := by
  constructor
  · rintro ⟨b, hb, hu⟩
    obtain ⟨b', hb', hb⟩ := ok_of_bind hb
    cases hb
    exact ⟨b', hb', hu⟩
  · rintro ⟨b, rfl, hu⟩
    exact ⟨b.including h, rfl, hu⟩

theorem Closes.length_lt (h : Closes left closer outer s u) : u.length < s.length := by
  obtain ⟨b, -, rfl⟩ := h
  exact b.tail.length_lt

/-- Behind the outermost bracket, a brace, is what is left. -/
theorem Closes.split (h : Closes left '\x7d' [] s u) : ∃ x, s = x ++ '\x7d' :: u := by
  obtain ⟨b, hb, rfl⟩ := h
  exact ⟨b.value, (read_lossless.2 _ _ _ _ b hb).symm⟩

/-- A character that begins nothing but a tag is passed over. -/
theorem readBracketed_inner (hc : c ∉ marks.erase '<') :
    readBracketed left closer outer (c :: r) = do
      let b ← readBracketed left closer outer r
      return b.including (.one c r) := by
  have hmarks : marks.erase '<' = ['"', '\'', '`', '/', '(', ')', '[', ']', '\x7b', '\x7d'] := by
    decide
  simp only [hmarks, List.mem_cons, List.not_mem_nil, or_false, not_or] at hc
  obtain ⟨hdouble, hsingle, htick, hslash, hopen, hclose, hopen', hclose', hopen'', hclose''⟩ := hc
  have hnone : closer? c = none := by
    unfold closer?
    split
    · exact absurd rfl hopen''
    · exact absurd rfl hopen
    · exact absurd rfl hopen'
    · rfl
  exact readBracketed_other (fun _ h _ => hslash h) (fun _ h _ => hslash h) htick
    (by simp [hdouble, hsingle]) hnone (by simp [hclose, hclose', hclose''])

theorem closes_plain (hc : c ∉ marks) :
    Closes left closer outer (c :: r) u ↔ Closes left closer outer r u := by
  unfold Closes
  rw [readBracketed_inner fun hmark => hc (List.mem_of_mem_erase hmark)]
  exact including_iff _

theorem closes_plains {n : List Char} (hn : ∀ c ∈ n, c ∉ marks) :
    Closes left closer outer (n ++ r) u ↔ Closes left closer outer r u := by
  induction n with
  | nil => exact Iff.rfl
  | cons c n ih =>
    obtain ⟨hc, hn⟩ := List.forall_mem_cons.1 hn
    exact (closes_plain hc).trans (ih hn)

theorem closes_line :
    Closes left closer outer ('/' :: '/' :: r) u ↔ Closes left closer outer (afterLine r) u := by
  unfold Closes
  rw [readBracketed]
  exact including_iff _

theorem closes_block (h : afterBlock? r = some r') :
    Closes left closer outer ('/' :: '*' :: r) u ↔ Closes left closer outer r' u := by
  unfold Closes
  rw [readBracketed]
  split
  · rename_i hnone
    cases hnone.symm.trans h
  · rename_i r'' hr''
    obtain rfl : r'' = r' := Option.some.inj (hr''.symm.trans h)
    exact including_iff _

theorem closes_string (hc : c = '"' ∨ c = '\'') :
    Closes left closer outer (c :: r) u ↔
      ∃ v, readString c r = .ok v ∧ Closes left closer outer v.rest u := by
  unfold Closes
  rw [readBracketed_string hc]
  constructor
  · rintro ⟨b, hb, hu⟩
    obtain ⟨v, hv, hb⟩ := ok_of_bind hb
    exact ⟨v, hv, (including_iff _).1 ⟨b, hb, hu⟩⟩
  · rintro ⟨v, hv, hb⟩
    rw [hv]
    exact (including_iff _).2 hb

theorem closes_template :
    Closes left closer outer ('`' :: r) u ↔
      ∃ t, readTemplate (r.length + 1) r = .ok t ∧ Closes left closer outer t.rest u := by
  unfold Closes
  rw [readBracketed]
  constructor
  · rintro ⟨b, hb, hu⟩
    obtain ⟨t, ht, hb⟩ := ok_of_bind hb
    exact ⟨t, ht, (including_iff _).1 ⟨b, hb, hu⟩⟩
  · rintro ⟨t, ht, hb⟩
    rw [ht]
    exact (including_iff _).2 hb

theorem closes_open (hc : closer? c = some d) :
    Closes left closer outer (c :: r) u ↔ Closes left d (closer :: outer) r u := by
  unfold Closes
  rw [readBracketed_open hc]
  exact including_iff _

theorem readBracketed_close (hc : IsCloser c) :
    readBracketed left closer outer (c :: r) =
      if c ≠ closer then .error ⟨.mismatched c, r.length + 1⟩
      else match outer with
      | [] => .ok ⟨[], r, .one c r⟩
      | next :: outer => do
        let b ← readBracketed left next outer r
        return b.including (.one c r) := by
  cases outer <;> rcases hc with rfl | rfl | rfl <;> rw [readBracketed, if_neg (by simp)]
  all_goals simp [closer?]

/-- A closing bracket is the one expected next; behind the last one nothing is read. -/
theorem closes_close (hc : IsCloser c) :
    Closes left closer outer (c :: r) u ↔ c = closer ∧
      match outer with
      | [] => r = u
      | next :: outer => Closes left next outer r u := by
  unfold Closes
  rw [readBracketed_close hc]
  by_cases hcloser : c = closer
  · rw [if_neg fun h => h hcloser]
    cases outer with
    | nil =>
      constructor
      · rintro ⟨b, hb, rfl⟩
        cases hb
        exact ⟨hcloser, rfl⟩
      · rintro ⟨-, rfl⟩
        exact ⟨_, rfl, rfl⟩
    | cons next outer =>
      refine (including_iff _).trans ⟨fun h => ⟨hcloser, h⟩, fun h => h.2⟩
  · rw [if_pos hcloser]
    constructor
    · rintro ⟨b, hb, -⟩
      cases hb
    · rintro ⟨h, -⟩
      exact absurd h hcloser

/-- The template `t` is read from the front of `s`, and `u` is left. -/
def ReadsTemplate (left : Nat) (t : Template) (s u : List Char) : Prop :=
  ∃ a, readTemplate left s = .ok a ∧ a.value = t ∧ a.rest = u

theorem ReadsTemplate.length_lt {t : Template} (h : ReadsTemplate left t s u)
    (hx : x ∈ t.interpolations) : x.length < s.length := by
  obtain ⟨a, ha, rfl, -⟩ := h
  have hlt := Template.length_lt_of_mem_interpolations hx
  have hs := congrArg List.length (chars_readTemplate ha)
  rw [List.length_append] at hs
  omega

/-! ### What is read does not depend on what follows -/

theorem readStringBody_cons {q : Char} (hc : c ≠ '\\') : readStringBody q left (c :: r) =
    if c = q then .ok ⟨[], r, .one c r⟩
    else if c = '\n' then .error ⟨.unterminatedString, left⟩
    else do
      let v ← readStringBody q left r
      return ⟨c :: v.value, v.rest, v.tail.trans (.one c r)⟩ := by
  rw [readStringBody]
  · exact fun h _ => hc h
  · exact fun _ _ h _ => hc h

/-- A character is no backslash, whether or not the text ends behind it. -/
theorem ne_escape (hend : c = '\\' → r = [] → False)
    (hescape : ∀ d t, c = '\\' → r = d :: t → False) : c ≠ '\\' := by
  intro hc
  cases r with
  | nil => exact hend hc rfl
  | cons d r => exact hescape d r hc rfl

theorem readStringBody_cut {q : Char} {v : Read (List Char) s}
    (h : readStringBody q left s = .ok v) :
    ∃ y, y ++ v.rest = s ∧ ∀ left u,
      ∃ a, readStringBody q left (y ++ u) = .ok a ∧ a.value = v.value ∧ a.rest = u := by
  fun_induction readStringBody q left s with
  | case1 => cases h
  | case2 => cases h
  | case3 c r ih =>
    obtain ⟨w, hw, h⟩ := ok_of_bind h
    cases h
    obtain ⟨y, hy, hread⟩ := ih hw
    refine ⟨'\\' :: c :: y, congrArg ('\\' :: c :: ·) hy, fun left u => ?_⟩
    obtain ⟨a, ha, hvalue, hrest⟩ := hread left u
    rw [List.cons_append, List.cons_append, readStringBody, ha]
    refine ⟨_, rfl, ?_, hrest⟩
    rw [hvalue]
  | case4 r hend hescape =>
    cases h
    refine ⟨[q], rfl, fun left u => ?_⟩
    rw [List.cons_append, readStringBody_cons (ne_escape hend hescape), if_pos rfl]
    exact ⟨_, rfl, rfl, rfl⟩
  | case5 => cases h
  | case6 c r hend hescape hquote hline ih =>
    obtain ⟨w, hw, h⟩ := ok_of_bind h
    cases h
    obtain ⟨y, hy, hread⟩ := ih hw
    refine ⟨c :: y, congrArg (c :: ·) hy, fun left u => ?_⟩
    obtain ⟨a, ha, hvalue, hrest⟩ := hread left u
    rw [List.cons_append, readStringBody_cons (ne_escape hend hescape), if_neg hquote,
      if_neg hline, ha]
    refine ⟨_, rfl, ?_, hrest⟩
    rw [hvalue]

theorem readString_cut {q : Char} {v : Read (List Char) s} (h : readString q s = .ok v) :
    ∃ y, y ++ v.rest = s ∧ ∀ u,
      ∃ a, readString q (y ++ u) = .ok a ∧ a.value = v.value ∧ a.rest = u := by
  obtain ⟨y, hy, hread⟩ := readStringBody_cut h
  exact ⟨y, hy, fun u => hread _ u⟩

theorem readString_append {q : Char} {v : Read (List Char) r} (h : readString q r = .ok v)
    (u : List Char) :
    ∃ a, readString q (r ++ u) = .ok a ∧ a.value = v.value ∧ a.rest = v.rest ++ u := by
  obtain ⟨y, hy, hread⟩ := readString_cut h
  have hsplit : y ++ (v.rest ++ u) = r ++ u := by rw [← List.append_assoc, hy]
  exact hsplit ▸ hread (v.rest ++ u)

/-- Without quotes, backslashes and line breaks the string is what it stands for. -/
theorem readString_plain {q : Char} (hq : q = '"' ∨ q = '\'')
    (hs : ∀ c ∈ s, c ≠ q ∧ c ≠ '\\' ∧ c ≠ '\n') (r : List Char) :
    ∃ v, readString q (s ++ q :: r) = .ok v ∧ v.value = s ∧ v.rest = r := by
  unfold readString
  generalize (s ++ q :: r).length + 1 = left
  induction s with
  | nil =>
    have hescape : q ≠ '\\' := by rcases hq with rfl | rfl <;> decide
    rw [List.nil_append, readStringBody_cons hescape, if_pos rfl]
    exact ⟨_, rfl, rfl, rfl⟩
  | cons c s ih =>
    obtain ⟨⟨hquote, hescape, hline⟩, hs⟩ := List.forall_mem_cons.1 hs
    obtain ⟨v, hv, hvalue, hrest⟩ := ih hs
    rw [List.cons_append, readStringBody_cons hescape, if_neg hquote, if_neg hline, hv]
    exact ⟨_, rfl, congrArg (c :: ·) hvalue, hrest⟩

theorem afterLine_append (hz : '\n' ∉ z) (s : List Char) : afterLine (z ++ '\n' :: s) = s := by
  have hdrop : (z ++ '\n' :: s).dropWhile (· != '\n') = '\n' :: s := by
    rw [List.dropWhile_append_of_pos fun c hc => bne_iff_ne.2 (ne_of_mem_of_not_mem hc hz)]
    rfl
  rw [afterLine, hdrop]
  rfl

theorem afterBlock?_cut (h : afterBlock? s = some r) :
    ∃ y, y ++ r = s ∧ ∀ u, afterBlock? (y ++ u) = some u := by
  fun_induction afterBlock? s with
  | case1 => cases h; exact ⟨['*', '/'], rfl, fun _ => rfl⟩
  | case2 c s hend ih =>
    obtain ⟨y, rfl, hy⟩ := ih h
    refine ⟨c :: y, rfl, fun u => ?_⟩
    rw [List.cons_append, afterBlock?]
    · exact hy u
    · intro w hc hw
      cases y with
      | nil => cases hy []
      | cons d y =>
        cases hw
        exact hend _ hc rfl
  | case3 => cases h

theorem afterBlock?_append (h : afterBlock? r = some r') (u : List Char) :
    afterBlock? (r ++ u) = some (r' ++ u) := by
  obtain ⟨y, rfl, hy⟩ := afterBlock?_cut h
  rw [List.append_assoc, hy]

theorem afterBlock?_plain (hs : ¬['*', '/'] <:+: s) (r : List Char) :
    afterBlock? (s ++ '*' :: '/' :: r) = some r := by
  induction s with
  | nil => rfl
  | cons c s ih =>
    rw [List.cons_append, afterBlock?]
    · exact ih fun h => hs (h.trans (List.suffix_cons c s).isInfix)
    · rintro r' rfl hr'
      cases s with
      | nil => cases hr'
      | cons d s =>
        cases hr'
        exact hs ⟨[], s, rfl⟩

/-! ### Templates -/

theorem value_of_readBracketed {b : Read (List Char) (x ++ '\x7d' :: u)}
    (h : readBracketed left '\x7d' [] (x ++ '\x7d' :: u) = .ok b) (hu : b.rest = u) :
    b.value = x := by
  have hlossless := read_lossless.2 _ _ _ _ b h
  rw [hu] at hlossless
  exact List.append_cancel_right hlossless

theorem readTemplate_escape {t : Template} (h : ReadsTemplate left t r u) :
    ReadsTemplate left (t.prepend ['\\', c]) ('\\' :: c :: r) u := by
  obtain ⟨a, ha, rfl, rfl⟩ := h
  unfold ReadsTemplate
  rw [readTemplate, ha]
  exact ⟨_, rfl, rfl, rfl⟩

theorem readTemplate_hole {t : Template}
    (hx : ∀ left, Closes left '\x7d' [] (x ++ '\x7d' :: z) z) (h : ReadsTemplate left t z u) :
    ReadsTemplate left ⟨[], (x, t.first) :: t.parts⟩ ('$' :: '\x7b' :: (x ++ '\x7d' :: z)) u := by
  obtain ⟨b, hb, hrest⟩ := hx ((x ++ '\x7d' :: z).length + 1)
  have hvalue := value_of_readBracketed hb hrest
  obtain ⟨a, ha, rfl, rfl⟩ : ReadsTemplate left t b.rest u := hrest.symm ▸ h
  unfold ReadsTemplate
  rw [readTemplate, hb]
  dsimp only [bind, Except.bind]
  rw [ha]
  refine ⟨_, rfl, ?_, rfl⟩
  exact congrArg (fun x => (⟨[], (x, a.value.first) :: a.value.parts⟩ : Template)) hvalue

theorem readTemplate_char {t : Template} (hescape : c ≠ '\\') (htick : c ≠ '`')
    (hhole : ¬(c = '$' ∧ r.head? = some '\x7b')) (h : ReadsTemplate left t r u) :
    ReadsTemplate left (t.prepend [c]) (c :: r) u := by
  obtain ⟨a, ha, rfl, rfl⟩ := h
  unfold ReadsTemplate
  rw [readTemplate]
  · rw [ha]
    exact ⟨_, rfl, rfl, rfl⟩
  · exact fun h _ => hescape h
  · exact fun _ _ h _ => hescape h
  · exact htick
  · rintro r' hc rfl
    exact hhole ⟨hc, rfl⟩

/-- What holds of the empty template and is kept by an escape, by an interpolation and by another
character holds of every template that is read. -/
theorem readTemplateInduction {P : Template → List Char → List Char → Prop}
    (close : ∀ r, P ⟨[], []⟩ ('`' :: r) r)
    (escape : ∀ c t s r, P t s r → P (t.prepend ['\\', c]) ('\\' :: c :: s) r)
    (hole : ∀ left s (b : Read (List Char) s) t r, readBracketed left '\x7d' [] s = .ok b →
      P t b.rest r → P ⟨[], (b.value, t.first) :: t.parts⟩ ('$' :: '\x7b' :: s) r)
    (char : ∀ c t s r, c ≠ '\\' → c ≠ '`' → ¬(c = '$' ∧ s.head? = some '\x7b') → P t s r →
      P (t.prepend [c]) (c :: s) r)
    {a : Read Template s} (h : readTemplate left s = .ok a) : P a.value s a.rest := by
  induction hn : s.length using Nat.strongRecOn generalizing s with
  | ind n ih =>
    subst hn
    rw [readTemplate.eq_def] at h
    split at h
    · cases h
    · cases h
    · obtain ⟨t, ht, h⟩ := ok_of_bind h
      cases h
      exact escape _ _ _ _ (ih _ (by simp only [List.length_cons]; omega) ht rfl)
    · cases h
      exact close _
    · obtain ⟨inner, hinner, h⟩ := ok_of_bind h
      obtain ⟨t, ht, h⟩ := ok_of_bind h
      cases h
      have hlt := inner.tail.length_lt
      exact hole _ _ _ _ _ hinner (ih _ (by simp only [List.length_cons]; omega) ht rfl)
    · rename_i c r hend hescape htick hhole
      obtain ⟨t, ht, h⟩ := ok_of_bind h
      cases h
      refine char _ _ _ _ (ne_escape hend hescape) htick ?_ (ih _ (by simp) ht rfl)
      rintro ⟨rfl, hbrace⟩
      cases r with
      | nil => cases hbrace
      | cons d r =>
        cases hbrace
        exact hhole r rfl rfl

mutual

/-- The bracket reader ends behind balanced text. -/
theorem Balanced.closes {closers s : List Char} : Balanced closers s →
    ∀ {left : Nat} {closer : Char} {outer : List Char} (u : List Char),
      closer :: outer = closers ++ ['\x7d'] → Closes left closer outer (s ++ '\x7d' :: u) u
  | .nil, left, closer, outer, u, hstack => by
    obtain ⟨rfl, rfl⟩ := List.cons.inj hstack
    exact (closes_close (.inr (.inr rfl))).2 ⟨rfl, rfl⟩
  | .plain hc h, left, closer, outer, u, hstack => (closes_plain hc).2 (h.closes u hstack)
  | .line hz h, left, closer, outer, u, hstack => by
    rw [List.cons_append, List.cons_append, List.append_assoc, closes_line, List.cons_append,
      afterLine_append hz]
    exact h.closes u hstack
  | .block hz h, left, closer, outer, u, hstack =>
    (closes_block (afterBlock?_append hz _)).2 (h.closes u hstack)
  | .string hq hv h, left, closer, outer, u, hstack => by
    obtain ⟨v', hv', -, hrest⟩ := readString_append hv ('\x7d' :: u)
    exact (closes_string hq).2 ⟨v', hv', hrest ▸ h.closes u hstack⟩
  | .template ht h, left, closer, outer, u, hstack => by
    obtain ⟨a, ha, -, hrest⟩ := ht.reads _ ('\x7d' :: u)
    exact closes_template.2 ⟨a, ha, hrest ▸ h.closes u hstack⟩
  | .opened hc h, left, closer, outer, u, hstack =>
    (closes_open hc).2 (h.closes u (congrArg (_ :: ·) hstack))
  | @Balanced.closed closers s d hd h, left, closer, outer, u, hstack => by
    have hnext (next : Char) (outer : List Char) (hstack : next :: outer = closers ++ ['\x7d']) :
        Closes left next outer (s ++ '\x7d' :: u) u := h.closes u hstack
    obtain ⟨rfl, rfl⟩ := List.cons.inj hstack
    refine (closes_close hd).2 ⟨rfl, ?_⟩
    cases closers with
    | nil => exact hnext _ _ rfl
    | cons next closers => exact hnext _ _ rfl
termination_by structural h => h

/-- The template reader ends behind the template. -/
theorem Templated.reads {t : Template} {z s : List Char} : Templated t z s →
    ∀ (left : Nat) (u : List Char), ReadsTemplate left t (z ++ u) (s ++ u)
  | .close s, left, u => by
    unfold ReadsTemplate
    rw [List.cons_append, readTemplate]
    exact ⟨_, rfl, rfl, rfl⟩
  | .escape _ h, left, u => readTemplate_escape (h.reads left u)
  | .hole hx h, left, u => by
    rw [List.cons_append, List.cons_append, List.append_assoc, List.cons_append]
    exact readTemplate_hole (fun _ => hx.closes _ rfl) (h.reads left u)
  | .char hescape htick hhole h, left, u => by
    refine readTemplate_char hescape htick (fun hc => hhole ⟨hc.1, ?_⟩) (h.reads left u)
    cases h with
    | close | escape | hole | char => exact hc.2
termination_by structural h => h

end

end

end DesignTokens.Script
