import Mathlib
import DesignTokens.Proofs.Script.Lexed
import DesignTokens.Proofs.Script.Quiet

/-!
# The bracket matcher and the tokens

The matcher looks for the bracket that closes an open one among the characters of a text, and all
that it knows are strings, templates and comments. Where the text has tokens, a walk over these
with a stack of the brackets that are expected finds the same bracket, or fails in the same way at
the same place (`closingAt?_eq`): a name, a number or an operator never hides a bracket, a quote or
the beginning of a comment.
-/

namespace DesignTokens.Script

/-- The bracket that the lexeme is. -/
def Lexeme.bracket? : Lexeme → Option Char
  | punct p => ['(', ')', '[', ']', '\x7b', '\x7d'].find? fun c => p == String.singleton c
  | _ => none

/-- Walks over the brackets among the tokens behind the one at `start`, up to that which closes it.
`closer` is the bracket expected next, and `outer` are those expected after it. -/
def closingToken (start : Nat) (closer : Char) (outer : List Char) :
    List Token → Except TokenError Nat
  | [] => .error (.malformed .unterminatedBracket start)
  | t :: r => match t.lexeme.bracket? with
    | none => closingToken start closer outer r
    | some c => match closer? c with
      | some d => closingToken start d (closer :: outer) r
      | none =>
        if c ≠ closer then .error (.malformed (.mismatched c) t.pos)
        else match outer with
        | [] => .ok t.pos
        | next :: outer => closingToken start next outer r

/-- What the bracket reader finds in a text of length `size`, by offsets. -/
def closingOffset {s : List Char} (size : Nat) (answer : Except LexFault (Read (List Char) s)) :
    Except TokenError Nat :=
  (answer.mapError fun f => .malformed f.cause (size - f.left)).map fun b =>
    size - b.rest.length - 1

/-- The offset of the bracket that closes the one at `i`; none if none opens there. -/
def closingAt? (source : List Char) (i : Nat) : Option (Except TokenError Nat) :=
  (bracketed? (source.drop i)).map (closingOffset source.length)

section

variable {size left i k : Nat} {closer c d : Char} {outer n r s w : List Char} {l : Lexeme}
  {p : String} {t : Token} {ts : List Token}

/-! ### One character -/

/-- Whatever the matcher passes over, the answer is the one for what is left. -/
theorem closingOffset_including {closer' : Char} (tail : Tail r s)
    (h : readBracketed left closer outer s = do
      let b ← readBracketed left closer' outer' r
      return b.including tail) :
    closingOffset size (readBracketed left closer outer s) =
      closingOffset size (readBracketed left closer' outer' r) := by
  rw [h]
  cases readBracketed left closer' outer' r <;> rfl

theorem closingOffset_other (h : OpensOther c r) (hopen : closer? c = none) (hclose : ¬IsCloser c) :
    closingOffset size (readBracketed left closer outer (c :: r)) =
      closingOffset size (readBracketed left closer outer r) :=
  closingOffset_including _ (readBracketed_other h.line h.block h.tick h.quote hopen hclose)

theorem closingOffset_open (hc : closer? c = some d) :
    closingOffset size (readBracketed left closer outer (c :: r)) =
      closingOffset size (readBracketed left d (closer :: outer) r) :=
  closingOffset_including _ (readBracketed_open hc)

theorem closingOffset_close (hc : IsCloser c) :
    closingOffset size (readBracketed left closer outer (c :: r)) =
      if c ≠ closer then .error (.malformed (.mismatched c) (size - (c :: r).length))
      else match outer with
      | [] => .ok (size - (c :: r).length)
      | next :: outer => closingOffset size (readBracketed left next outer r) := by
  rw [readBracketed_close hc]
  by_cases hcloser : c = closer
  · rw [if_neg fun h => h hcloser, if_neg fun h => h hcloser]
    cases outer with
    | nil => rfl
    | cons next outer =>
      dsimp only
      cases readBracketed left next outer r <;> rfl
  · rw [if_pos hcloser, if_pos hcloser]
    rfl

/-- What stands in names and numbers, and in operators behind their first character. -/
theorem closingOffset_inner (hc : c ∉ marks.erase '<') :
    closingOffset size (readBracketed left closer outer (c :: r)) =
      closingOffset size (readBracketed left closer outer r) :=
  closingOffset_including _ (readBracketed_inner hc)

theorem closingOffset_inners (hn : ∀ c ∈ n, c ∉ marks.erase '<') :
    closingOffset size (readBracketed left closer outer (n ++ r)) =
      closingOffset size (readBracketed left closer outer r) := by
  induction n with
  | nil => rfl
  | cons c n ih =>
    obtain ⟨hc, hn⟩ := List.forall_mem_cons.1 hn
    exact (closingOffset_inner hc).trans (ih hn)

theorem Front.closingOffset (hn : n ≠ []) (h : Front n (c :: w)) :
    closingOffset size (readBracketed left closer outer (c :: w)) =
      closingOffset size (readBracketed left closer outer (w.drop (n.length - 1))) := by
  rw [drop_of_isPrefix hn h.isPrefix]
  exact closingOffset_inners fun c hc hmark => h.plain c hc (List.mem_of_mem_erase hmark)

theorem Gap.closingOffset (h : Gap s r) :
    closingOffset size (readBracketed left closer outer s) =
      closingOffset size (readBracketed left closer outer r) := by
  cases h with
  | blank _ hc =>
    have hplain := not_mem_marks (List.all_iff_forall_prop.1 (by decide)) hc
    exact closingOffset_inner fun hmark => hplain (List.mem_of_mem_erase hmark)
  | line => exact closingOffset_including _ (by rw [readBracketed])
  | block h =>
    refine closingOffset_including (tail_afterBlock h) ?_
    rw [readBracketed]
    split
    · rename_i hnone
      cases hnone.symm.trans h
    · rename_i r' hr'
      cases hr'.symm.trans h
      rfl

/-! ### One operator -/

theorem eq_of_bracket? (h : l.bracket? = some c) :
    l = .punct (String.singleton c) ∧ ((closer? c).isSome ∨ IsCloser c) := by
  cases l with
  | punct p =>
    have hbracket : ∀ c ∈ ['(', ')', '[', ']', '\x7b', '\x7d'],
        (closer? c).isSome ∨ IsCloser c := List.all_iff_forall_prop.1 (by decide)
    rw [Lexeme.bracket?] at h
    have hp := List.find?_some h
    exact ⟨congrArg _ (eq_of_beq hp), hbracket c (List.mem_of_find?_eq_some h)⟩
  | _ => cases h

/-- An operator does not begin with a bracket, and further on no mark but `<` stands in it. -/
theorem inner_of_punctuators : ∀ p ∈ punctuators, (Lexeme.punct p).bracket? = none →
    ∀ c n, p.toList = c :: n → (closer? c = none ∧ ¬IsCloser c) ∧ ∀ d ∈ n, d ∉ marks.erase '<' := by
  have hall : ∀ p ∈ punctuators, (Lexeme.punct p).bracket? = none →
      (p.toList.head?.all fun c => closer? c = none ∧ ¬IsCloser c) ∧
        p.toList.tail.all (· ∉ marks.erase '<') := by decide
  intro p hp hbracket c n hchars
  obtain ⟨hhead, htail⟩ := hall p hp hbracket
  rw [hchars] at hhead htail
  exact ⟨of_decide_eq_true hhead, List.all_iff_forall_prop.1 htail⟩

theorem cons_of_punctuator (h : punctuator? (c :: w) = some p) :
    ∃ n, p ∈ punctuators ∧ p.toList = c :: n ∧ w = n ++ w.drop (p.length - 1) := by
  obtain ⟨hmem, hprefix⟩ := isPrefix_of_punctuator h
  have hne := punctuator_ne_nil p hmem
  have hsplit := drop_of_isPrefix hne hprefix
  cases hchars : p.toList with
  | nil => exact absurd hchars hne
  | cons a n =>
    rw [hchars] at hsplit
    obtain ⟨rfl, hw⟩ := List.cons.inj hsplit
    have hlength : p.length - 1 = n.length := by
      rw [← String.length_toList, hchars, List.length_cons, Nat.add_sub_cancel]
    rw [hlength]
    exact ⟨n, hmem, rfl, hw⟩

/-! ### One token -/

/-- The matcher and the walk give the same answer at `s` and its tokens, whatever is expected. -/
def Aligned (size left : Nat) (s : List Char) (ts : List Token) : Prop :=
  ∀ (closer : Char) (outer : List Char), closingOffset size (readBracketed left closer outer s) =
    closingToken (size - left) closer outer ts

theorem Aligned.other (ht : t.lexeme.bracket? = none) (h : Aligned size left r ts)
    (hpass : ∀ closer outer, closingOffset size (readBracketed left closer outer s) =
      closingOffset size (readBracketed left closer outer r)) : Aligned size left s (t :: ts) := by
  intro closer outer
  rw [hpass, h, closingToken.eq_def _ _ _ (t :: ts)]
  dsimp only
  rw [ht]

theorem Aligned.punct (hother : OpensOther c w) (hp : punctuator? (c :: w) = some p)
    (h : Aligned size left (w.drop (p.length - 1)) ts) :
    Aligned size left (c :: w) (⟨.punct p, size - (c :: w).length⟩ :: ts) := by
  obtain ⟨n, hmem, hchars, hw⟩ := cons_of_punctuator hp
  cases hbracket : (Lexeme.punct p).bracket? with
  | none =>
    obtain ⟨⟨hopen, hclose⟩, hinner⟩ := inner_of_punctuators p hmem hbracket c n hchars
    refine h.other hbracket fun closer outer => ?_
    rw [closingOffset_other hother hopen hclose]
    conv => lhs; rw [hw]
    exact closingOffset_inners hinner
  | some b =>
    obtain ⟨hpunct, hkind⟩ := eq_of_bracket? hbracket
    obtain rfl : p = String.singleton b := Lexeme.punct.inj hpunct
    obtain ⟨rfl, rfl⟩ : b = c ∧ [] = n := by simpa using hchars
    rw [List.nil_append] at hw
    rw [← hw] at h
    intro closer outer
    rw [closingToken.eq_def]
    dsimp only
    rw [hbracket]
    dsimp only
    cases hopen : closer? b with
    | some d => rw [closingOffset_open hopen, h]
    | none =>
      rw [hopen] at hkind
      rw [closingOffset_close (hkind.resolve_left nofun)]
      split
      · rfl
      · cases outer with
        | nil => rfl
        | cons next outer => exact h next outer

/-! ### All tokens -/

theorem aligned_of_tokensFrom (h : tokensFrom size s = .ok ts) : Aligned size left s ts := by
  induction hn : s.length using Nat.strongRecOn generalizing s ts with
  | ind m ih =>
    subst hn
    cases tokensFrom_front h with
    | done hts =>
      subst hts
      exact fun _ _ => by rw [readBracketed]; rfl
    | gap hgap hr =>
      intro closer outer
      rw [hgap.closingOffset]
      exact ih _ hgap.tail.length_lt hr rfl closer outer
    | @template w a ts' ha hts' hts =>
      subst hts
      have htail := a.tail.trans (.one '`' w)
      refine (ih _ htail.length_lt hts' rfl).other rfl fun closer outer => ?_
      refine closingOffset_including htail ?_
      rw [readBracketed, ha]
      rfl
    | @string q w v ts' hq hv hts' hts =>
      subst hts
      have htail := v.tail.trans (.one q w)
      refine (ih _ htail.length_lt hts' rfl).other rfl fun closer outer => ?_
      refine closingOffset_including htail ?_
      rw [readBracketed_string hq, hv]
      rfl
    | number _ _ hnumber hts' hts =>
      subst hts
      obtain ⟨hne, hfront⟩ := front_number hnumber
      exact (ih _ (Tail.drop_succ ..).length_lt hts' rfl).other rfl
        fun _ _ => hfront.closingOffset hne
    | @ident c w ts' _ _ hc hts' hts =>
      subst hts
      have hstart : ∀ d ∈ marks, isIdentStart d = false := List.all_iff_forall_prop.1 (by decide)
      have hpart : ∀ d ∈ marks, isIdentPart d = false := List.all_iff_forall_prop.1 (by decide)
      have hfront : Front (c :: w.takeWhile isIdentPart) (c :: w) :=
        .cons (not_mem_marks hstart hc) (.takeWhile hpart)
      exact (ih _ (Tail.drop_succ ..).length_lt hts' rfl).other rfl
        fun _ _ => hfront.closingOffset (List.cons_ne_nil _ _)
    | punct hother _ _ hp hts' hts =>
      subst hts
      exact .punct hother hp (ih _ (Tail.drop_succ ..).length_lt hts' rfl)

/-- A token stands at its offset, and the tokens behind it are those of what it leaves. -/
theorem exists_stands_of_getElem? (h : tokensFrom size s = .ok ts) (ht : ts[k]? = some t)
    (heof : t.lexeme ≠ .eof) : ∃ s' r, s' <:+ s ∧ t.lexeme.Stands s' r ∧
      t.pos = size - s'.length ∧ tokensFrom size r = .ok (ts.drop (k + 1)) := by
  induction hn : s.length using Nat.strongRecOn generalizing s ts k with
  | ind n ih =>
    subst hn
    have step := tokensFrom_step size s
    generalize tokensFrom size s = answer at step h
    cases step with
    | done =>
      cases h
      have hmem := List.mem_of_getElem? ht
      rw [List.mem_singleton] at hmem
      exact absurd (congrArg Token.lexeme hmem) heof
    | gap hgap =>
      obtain ⟨s', r, hs', hstands⟩ := ih _ hgap.tail.length_lt h ht rfl
      exact ⟨s', r, hs'.trans hgap.tail.suffix, hstands⟩
    | @lexeme l r hl =>
      obtain ⟨ts', hts', h⟩ := ok_of_bind h
      cases h
      cases k with
      | zero =>
        cases ht
        exact ⟨s, r, List.suffix_refl s, hl, rfl, hts'⟩
      | succ k =>
        obtain ⟨s', r', hs', hstands⟩ := ih _ hl.tail.length_lt hts' ht rfl
        exact ⟨s', r', hs'.trans hl.tail.suffix, hstands⟩
    | malformed => cases h
    | symbolicDigit => cases h

theorem cons_of_stands (h : (Lexeme.punct (String.singleton c)).Stands s r) : s = c :: r := by
  generalize hl : Lexeme.punct (String.singleton c) = l at h
  cases h with
  | punct hp =>
    obtain rfl := Lexeme.punct.inj hl
    obtain ⟨n, -, hchars, hw⟩ := cons_of_punctuator hp
    obtain ⟨rfl, rfl⟩ : _ ∧ [] = n := by simpa using hchars
    exact congrArg (c :: ·) hw
  | string | template | number | ident => cases hl

theorem closingAt?_of_cons (hi : s.drop i = c :: r) (hc : closer? c = some d) :
    closingAt? s i = some (closingOffset s.length (readBracketed (r.length + 1) d [] r)) := by
  rw [closingAt?, hi, bracketed?, hc]
  cases hb : readBracketed (r.length + 1) d [] r <;> simp only [Option.map_some, hb] <;> rfl

/-- At an opening bracket among the tokens of a text the matcher gives what the walk over the
tokens behind it gives: the offset of the token that closes it, or the fault. -/
theorem closingAt?_eq (h : tokenize s = .ok ts)
    (ht : ts[k]? = some ⟨.punct (String.singleton c), i⟩) (hc : closer? c = some d) :
    closingAt? s i = some (closingToken i d [] (ts.drop (k + 1))) := by
  obtain ⟨s', r, ⟨u, rfl⟩, hstands, hpos, hts⟩ := exists_stands_of_getElem? h ht nofun
  obtain rfl := cons_of_stands hstands
  have hpos : i = (u ++ c :: r).length - (c :: r).length := hpos
  have hdrop : (u ++ c :: r).drop i = c :: r := by
    rw [hpos, List.length_append, Nat.add_sub_cancel, List.drop_left]
  rw [closingAt?_of_cons hdrop hc, aligned_of_tokensFrom hts d [], ← List.length_cons, ← hpos]

/-- The brackets in a string, a template and a comment count for neither; a bracket that closes
another one stops both. -/
theorem closingAt?_eq_hidden :
    closingAt? "[f('(', `]`) /* ] */, (a]".toList 2 = some (.ok 11) ∧
      closingAt? "[f('(', `]`) /* ] */, (a]".toList 0 =
        some (.error (.malformed (.mismatched ']') 24)) := by
  have h : tokenize "[f('(', `]`) /* ] */, (a]".toList =
      .ok [⟨.punct "[", 0⟩, ⟨.ident "f", 1⟩, ⟨.punct "(", 2⟩, ⟨.string "(", 3⟩, ⟨.punct ",", 6⟩,
        ⟨.template "`]`" ⟨[']'], []⟩, 8⟩, ⟨.punct ")", 11⟩, ⟨.punct ",", 20⟩, ⟨.punct "(", 22⟩,
        ⟨.ident "a", 23⟩, ⟨.punct "]", 24⟩, ⟨.eof, 25⟩] := by cbv
  exact ⟨closingAt?_eq (k := 2) (c := '(') h rfl rfl, closingAt?_eq (k := 0) (c := '[') h rfl rfl⟩

end

end DesignTokens.Script
