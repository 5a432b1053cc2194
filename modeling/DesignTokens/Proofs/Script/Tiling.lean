import DesignTokens.Proofs.Script.Follow
import DesignTokens.Proofs.Script.Lexed
import DesignTokens.Proofs.Script.Quiet
import Mathlib

/-!
# Tokens tile their text

A text that has tokens is the texts of its lexemes with blanks and whole comments around them.
`Tiles o s ts` says so of a text `s` that begins at the offset `o`, and with it where each token
stands: its position is what has been passed over (`tokenize_tiles`).
-/

namespace DesignTokens.Script

/-- Blanks and whole comments. A line comment is whole with its line feed. -/
inductive Filler : List Char → Prop
  | nil : Filler []
  | blank {c : Char} {g : List Char} : Text.isBlank c → Filler g → Filler (c :: g)
  | line {z g : List Char} : '\n' ∉ z → Filler g → Filler ('/' :: '/' :: (z ++ '\n' :: g))
  | block {z g : List Char} : ¬['*', '/'] <:+: z → Filler g →
    Filler ('/' :: '*' :: (z ++ '*' :: '/' :: g))

/-- Filler up to the end of a text, where a line comment needs no line feed. -/
def EndFiller (g : List Char) : Prop :=
  Filler g ∨ ∃ f z, Filler f ∧ '\n' ∉ z ∧ g = f ++ '/' :: '/' :: z

/-- The text `x` writes the lexeme: it is its own text, or a quoted literal that is read to its
value. -/
def Lexeme.WrittenAs : Lexeme → List Char → Prop
  | string value, x => ∃ (q : Char) (y : List Char) (v : Read (List Char) y),
    x = q :: y ∧ (q = '"' ∨ q = '\'') ∧ readString q y = .ok v ∧ v.value = value.toList ∧
      v.rest = []
  | eof, _ => False
  | l, x => x = l.text.toList

/-- The text `s`, which begins at the offset `o`, is the lexemes of the tokens with filler around
them. -/
inductive Tiles : Nat → List Char → List Token → Prop
  | done {o p : Nat} {g : List Char} : EndFiller g → p = o + g.length → Tiles o g [⟨.eof, p⟩]
  | token {o p : Nat} {l : Lexeme} {g x r : List Char} {ts : List Token} :
    Filler g → x ≠ [] → l.WrittenAs x → p = o + g.length → Tiles (p + x.length) r ts →
      Tiles o (g ++ (x ++ r)) (⟨l, p⟩ :: ts)

section

variable {c : Char} {f g n r s w x : List Char} {o size : Nat} {l : Lexeme} {t : Token}
  {ts : List Token}

/-! ### Filler -/

theorem Filler.append (hf : Filler f) (hg : Filler g) : Filler (f ++ g) := by
  induction hf with
  | nil => exact hg
  | blank hc _ ih => exact .blank hc ih
  | @line z _ hz _ ih =>
    rw [List.cons_append, List.cons_append, List.append_assoc]
    exact .line hz ih
  | @block z _ hz _ ih =>
    rw [List.cons_append, List.cons_append, List.append_assoc]
    exact .block hz ih

theorem Filler.append_end (hf : Filler f) (hg : EndFiller g) : EndFiller (f ++ g) := by
  rcases hg with hg | ⟨f', z, hf', hz, rfl⟩
  · exact .inl (hf.append hg)
  · exact .inr ⟨f ++ f', z, hf.append hf', hz, (List.append_assoc ..).symm⟩

/-- A block comment ends where its end mark stands first. -/
theorem split_of_afterBlock? (h : afterBlock? s = some r) :
    ∃ z, ¬['*', '/'] <:+: z ∧ s = z ++ '*' :: '/' :: r := by
  fun_induction afterBlock? s with
  | case1 => cases h; exact ⟨[], by simp, rfl⟩
  | case2 c s hend ih =>
    obtain ⟨z, hz, rfl⟩ := ih h
    refine ⟨c :: z, fun hmark => ?_, rfl⟩
    rcases List.infix_cons_iff.1 hmark with hfront | hmark
    · obtain ⟨u, hu⟩ := hfront
      obtain ⟨rfl, rfl⟩ := List.cons.inj hu
      exact hend _ rfl rfl
    · exact hz hmark
  | case3 => cases h

/-- A gap is filler; only the line comment that ends the text may lack its line feed. -/
theorem Gap.filler (h : Gap s r) :
    (∃ f, Filler f ∧ f ++ r = s) ∨ r = [] ∧ EndFiller s := by
  cases h with
  | @blank c r hc => exact .inl ⟨[c], .blank hc .nil, rfl⟩
  | line w =>
    by_cases hline : '\n' ∈ w
    · obtain ⟨z, u, rfl, hz⟩ := List.eq_append_cons_of_mem hline
      rw [afterLine_append hz]
      exact .inl ⟨_, .line hz .nil, by simp⟩
    · exact .inr ⟨afterLine_eq_nil hline, .inr ⟨[], w, .nil, hline, rfl⟩⟩
  | block h =>
    obtain ⟨z, hz, rfl⟩ := split_of_afterBlock? h
    exact .inl ⟨_, .block hz .nil, by simp⟩

/-! ### Lexemes -/

/-- What stands in front of a lexeme's rest writes the lexeme. -/
theorem Lexeme.Stands.written (h : l.Stands s r) : ∃ x, x ≠ [] ∧ l.WrittenAs x ∧ x ++ r = s := by
  cases h with
  | @string q w v hq hv =>
    obtain ⟨y, hy, hread⟩ := readString_cut hv
    obtain ⟨a, ha, hvalue, hrest⟩ : ∃ a, readString q y = .ok a ∧ a.value = v.value ∧
        a.rest = [] := by
      have hread := hread []
      rwa [List.append_nil] at hread
    refine ⟨q :: y, List.cons_ne_nil _ _, ⟨q, y, a, rfl, hq, ha, ?_, hrest⟩, congrArg (q :: ·) hy⟩
    rw [hvalue, String.toList_ofList]
  | @template w t _ =>
    have htail := t.tail.trans (.one '`' w)
    have hsplit := before_append htail.suffix
    refine ⟨_, fun hnil => ?_, String.toList_ofList.symm, hsplit⟩
    rw [hnil, List.nil_append] at hsplit
    exact absurd htail.length_lt (by rw [hsplit]; exact Nat.lt_irrefl _)
  | number _ hn =>
    obtain ⟨hne, hfront⟩ := front_number hn
    exact ⟨_, hne, String.toList_ofList.symm, (drop_of_isPrefix hne hfront.isPrefix).symm⟩
  | @ident c w _ =>
    refine ⟨c :: w.takeWhile isIdentPart, List.cons_ne_nil _ _, String.toList_ofList.symm, ?_⟩
    rw [List.cons_append, drop_takeWhile, List.takeWhile_append_dropWhile]
  | punct hp =>
    obtain ⟨hmem, hfront⟩ := isPrefix_of_punctuator hp
    have hne := punctuator_ne_nil _ hmem
    exact ⟨_, hne, rfl, (drop_of_isPrefix hne hfront).symm⟩

/-! ### Tilings -/

namespace Tiles

/-- Filler in front of a tiled text is passed over. -/
theorem behind (hf : Filler f) (h : Tiles (o + f.length) s ts) : Tiles o (f ++ s) ts := by
  cases h with
  | done hg hp => exact .done (hf.append_end hg) (by rw [hp, List.length_append, Nat.add_assoc])
  | token hg hx hl hp h =>
    rw [← List.append_assoc]
    exact .token (hf.append hg) hx hl (by rw [hp, List.length_append, Nat.add_assoc]) h

theorem of_tokensFrom (h : tokensFrom (o + s.length) s = .ok ts) : Tiles o s ts := by
  induction hn : s.length using Nat.strongRecOn generalizing o s ts with
  | ind n ih =>
    subst hn
    have step := tokensFrom_step (o + s.length) s
    generalize hanswer : tokensFrom (o + s.length) s = answer at step h
    cases step with
    | done hs =>
      subst hs
      cases h
      exact .done (.inl .nil) rfl
    | @gap r hgap =>
      rcases hgap.filler with ⟨f, hf, rfl⟩ | ⟨rfl, hend⟩
      · rw [List.length_append, ← Nat.add_assoc] at h
        exact behind hf (ih _ hgap.tail.length_lt h rfl)
      · rw [tokensFrom_nil] at h
        cases h
        exact .done hend rfl
    | @lexeme l r hl =>
      obtain ⟨ts', hts', h⟩ := ok_of_bind h
      cases h
      obtain ⟨x, hx, hwritten, rfl⟩ := hl.written
      have hpos : o + (x ++ r).length - (x ++ r).length = o := Nat.add_sub_cancel ..
      rw [List.length_append, ← Nat.add_assoc] at hts'
      exact .token (g := []) .nil hx hwritten hpos (hpos.symm ▸ ih _ hl.tail.length_lt hts' rfl)
    | malformed => cases h
    | symbolicDigit => cases h

theorem ends (h : Tiles o s ts) :
    ∃ front, ts = front ++ [⟨.eof, o + s.length⟩] ∧ ∀ t ∈ front, t.lexeme ≠ .eof := by
  induction h with
  | done _ hp => exact ⟨[], by rw [hp]; rfl, List.forall_mem_nil _⟩
  | @token o p l g x r ts _ _ hl hp _ ih =>
    obtain ⟨front, rfl, hfront⟩ := ih
    have hlength : p + x.length + r.length = o + (g ++ (x ++ r)).length := by
      rw [hp, List.length_append, List.length_append]
      omega
    refine ⟨⟨l, p⟩ :: front, by rw [hlength]; rfl, List.forall_mem_cons.2 ⟨?_, hfront⟩⟩
    rintro rfl
    exact hl

theorem le_pos (h : Tiles o s ts) : ∀ t ∈ ts, o ≤ t.pos := by
  induction h with
  | done _ hp => simp [hp]
  | token _ _ _ hp _ ih =>
    refine List.forall_mem_cons.2 ⟨hp ▸ Nat.le_add_right .., fun t ht => ?_⟩
    have := ih t ht
    omega

theorem pairwise_pos (h : Tiles o s ts) : ts.Pairwise fun t t' => t.pos < t'.pos := by
  induction h with
  | done => exact List.pairwise_singleton ..
  | token _ hx _ _ h ih =>
    refine List.pairwise_cons.2 ⟨fun t ht => ?_, ih⟩
    have := h.le_pos t ht
    have := List.length_pos_iff.2 hx
    dsimp only
    omega

/-- Each lexeme stands at its position, and ends before the next one begins. -/
theorem stands (h : Tiles o s ts) (ht : t ∈ ts) (heof : t.lexeme ≠ .eof) :
    ∃ x, t.lexeme.WrittenAs x ∧ x <+: s.drop (t.pos - o) ∧
      ∀ t' ∈ ts, t.pos < t'.pos → t.pos + x.length ≤ t'.pos := by
  induction h with
  | done =>
    rw [List.mem_singleton] at ht
    exact absurd (congrArg Token.lexeme ht) heof
  | @token o p l g x r ts _ hx hl hp h ih =>
    have hle := h.le_pos
    rcases List.mem_cons.1 ht with rfl | ht
    · refine ⟨x, hl, ?_, List.forall_mem_cons.2 ⟨fun hlt => absurd hlt (Nat.lt_irrefl _), ?_⟩⟩
      · rw [hp, Nat.add_sub_cancel_left, List.drop_left]
        exact List.prefix_append ..
      · exact fun t' ht' _ => hle t' ht'
    · obtain ⟨y, hy, hstands, hnext⟩ := ih ht
      have hpos := hle t ht
      refine ⟨y, hy, ?_, List.forall_mem_cons.2 ⟨fun hlt => ?_, hnext⟩⟩
      · have hdrop : t.pos - o = (g ++ x).length + (t.pos - (p + x.length)) := by
          rw [hp, List.length_append] at *
          omega
        rwa [hdrop, ← List.append_assoc, ← List.drop_drop, List.drop_left]
      · dsimp only at hlt
        omega

end Tiles

/-- The tokens of a text stand one behind the other, and all else in it is blanks and whole
comments. -/
structure Tiling (s : List Char) (ts : List Token) : Prop where
  /-- The end mark comes last, at the end of the text, and nowhere else. -/
  ends : ∃ front, ts = front ++ [⟨.eof, s.length⟩] ∧ ∀ t ∈ front, t.lexeme ≠ .eof
  ordered : ts.Pairwise fun t t' => t.pos < t'.pos
  /-- A lexeme is written at its position, and ends before any later one begins. -/
  stands : ∀ t ∈ ts, t.lexeme ≠ .eof → ∃ x, t.lexeme.WrittenAs x ∧ x <+: s.drop t.pos ∧
    ∀ t' ∈ ts, t.pos < t'.pos → t.pos + x.length ≤ t'.pos
  filled : Tiles 0 s ts

theorem tokenize_tiles (h : tokenize s = .ok ts) : Tiling s ts := by
  have htiles : Tiles 0 s ts := .of_tokensFrom (by rwa [Nat.zero_add])
  have hends := htiles.ends
  rw [Nat.zero_add] at hends
  exact ⟨hends, htiles.pairwise_pos, fun t ht heof => htiles.stands ht heof, htiles⟩

/-- A block comment that holds an opening mark, an escaped quote, and a line comment at the end. -/
theorem tokenize_tiles_comments :
    tokenize "x /*/*/ + '\\'' // y".toList =
        .ok [⟨.ident "x", 0⟩, ⟨.punct "+", 8⟩, ⟨.string "'", 10⟩, ⟨.eof, 19⟩] ∧
      Tiling "x /*/*/ + '\\'' // y".toList
        [⟨.ident "x", 0⟩, ⟨.punct "+", 8⟩, ⟨.string "'", 10⟩, ⟨.eof, 19⟩] := by
  have h : tokenize "x /*/*/ + '\\'' // y".toList =
      .ok [⟨.ident "x", 0⟩, ⟨.punct "+", 8⟩, ⟨.string "'", 10⟩, ⟨.eof, 19⟩] := by cbv
  exact ⟨h, tokenize_tiles h⟩

end

end DesignTokens.Script
