import DesignTokens.Proofs.Script.Spelling

/-!
# Layouts of a token list

A text that has tokens is their texts (`pieces`) with gaps around them: `weave` puts the two
together again (`laidOut_of_tokensFrom`). Where the gaps are other ones that set the tokens apart
(`Spacing`, `SetsApart`), the tokens are the same up to their positions (`tokenize_weave`).
-/

namespace DesignTokens.Script

/-- Blanks and comments, and nothing else. -/
inductive Vacant : List Char → Prop
  | nil : Vacant []
  | gap {s r : List Char} : Gap s r → Vacant r → Vacant s

/-- ASCII blanks and whole block comments. -/
inductive Spacing : List Char → Prop
  | nil : Spacing []
  | blank {c : Char} {g : List Char} : isAsciiBlank c → Spacing g → Spacing (c :: g)
  | comment {z g : List Char} : ¬['*', '/'] <:+: z → Spacing g →
    Spacing ('/' :: '*' :: (z ++ '*' :: '/' :: g))

/-- The gaps behind the tokens begin with a blank; only the last one may be empty. -/
structure SetsApart (gs : List (List Char)) : Prop where
  spacing : ∀ g ∈ gs, Spacing g
  blank : ∀ g ∈ gs, opensBlank g
  nonempty : ∀ g ∈ gs.dropLast, g ≠ []

/-- The text that the token takes in the text `s`. -/
def Token.charsIn (s : List Char) (t : Token) : List Char := t.lexeme.charsAt (s.drop t.pos)

/-- The texts of the tokens before the end mark. -/
def pieces (s : List Char) (ts : List Token) : List (List Char) := ts.dropLast.map (·.charsIn s)

/-- The gap `g`, and then each text with the gap behind it. -/
def weave (g : List Char) (xs gs : List (List Char)) : List Char :=
  g ++ (List.zipWith (· ++ ·) xs gs).flatten

def lexemes (ts : List Token) : List Lexeme := ts.map (·.lexeme)

section

variable {c : Char} {g r s u w x z : List Char} {gs xs : List (List Char)} {ls : List Lexeme}
  {size : Nat} {ts : List Token}

theorem weave_cons : weave g (x :: xs) (w :: gs) = g ++ (x ++ weave w xs gs) := by
  simp [weave]

/-! ### Gaps -/

theorem Gap.lexed (h : Gap s r) : Lexed size s [] r := by
  unfold Lexed
  cases h with
  | blank r hc => exact Lexed.blank hc
  | line r =>
    rw [tokensFrom]
    exact Lexed.nil
  | block h =>
    rw [tokensFrom]
    split
    · rename_i hnone
      cases hnone.symm.trans h
    · rename_i r' hr'
      cases hr'.symm.trans h
      exact Lexed.nil

/-- A gap is one wherever it stands; only a line comment that ends the text must stay there. -/
theorem Gap.cut (h : Gap s r) :
    ∃ z, z ++ r = s ∧ ∀ u, (r = [] → u = []) → Gap (z ++ u) u := by
  cases h with
  | @blank c r hc => exact ⟨[c], rfl, fun u _ => .blank u hc⟩
  | line w =>
    by_cases hline : '\n' ∈ w
    · obtain ⟨z, s, rfl, hz⟩ := List.eq_append_cons_of_mem hline
      have hgap (u : List Char) : Gap ('/' :: '/' :: (z ++ '\n' :: u)) u := by
        have hgap := Gap.line (z ++ '\n' :: u)
        rwa [afterLine_append hz] at hgap
      rw [afterLine_append hz]
      refine ⟨'/' :: '/' :: (z ++ ['\n']), by simp, fun u _ => ?_⟩
      simpa using hgap u
    · have hempty := afterLine_eq_nil hline
      rw [hempty]
      refine ⟨'/' :: '/' :: w, by simp, fun u hu => ?_⟩
      obtain rfl := hu rfl
      simpa [hempty] using Gap.line w
  | block h =>
    obtain ⟨z, rfl, hz⟩ := afterBlock?_cut h
    exact ⟨'/' :: '*' :: z, rfl, fun u _ => .block (hz u)⟩

theorem isBlank_of_ascii (hc : isAsciiBlank c) : Text.isBlank c :=
  ((Bool.and_eq_true _ _).mp hc).1

theorem Spacing.lexed (h : Spacing g) : Lexed size (g ++ u) [] u := by
  induction h with
  | nil => exact .nil
  | blank hc _ ih => exact (Lexed.blank (isBlank_of_ascii hc)).append ih
  | @comment z g hz _ ih =>
    have hblock : afterBlock? (z ++ '*' :: '/' :: g ++ u) = some (g ++ u) := by
      rw [List.append_assoc]
      exact afterBlock?_plain hz (g ++ u)
    exact (Gap.block hblock).lexed.append ih

/-! ### The layout of a text -/

/-- The text `t`, a tail of `s`, is the texts of the tokens, which spell them, with gaps around
them. -/
def LaidOut (s t : List Char) (ts : List Token) : Prop :=
  ∃ ls g gs, lexemes ts = ls ++ [.eof] ∧ List.Forall₂ Lexeme.SpeltBy ls (pieces s ts) ∧
    gs.length = ls.length ∧ (∀ g' ∈ g :: gs, Vacant g') ∧ weave g (pieces s ts) gs = t

namespace LaidOut

theorem done : LaidOut s [] [⟨.eof, size⟩] :=
  ⟨[], [], [], rfl, .nil, rfl, by simp [Vacant.nil], rfl⟩

theorem gap (hgap : Gap u r) (h : LaidOut s r ts) : LaidOut s u ts := by
  obtain ⟨ls, g, gs, hlexemes, hspelt, hlength, hvacant, rfl⟩ := h
  obtain ⟨hg, hgs⟩ := List.forall_mem_cons.1 hvacant
  obtain ⟨z, rfl, hz⟩ := hgap.cut
  have hvacant : Vacant (z ++ g) := by
    refine .gap (hz g fun hnil => ?_) hg
    exact (List.append_eq_nil_iff.1 hnil).1
  exact ⟨ls, z ++ g, gs, hlexemes, hspelt, hlength, List.forall_mem_cons.2 ⟨hvacant, hgs⟩,
    List.append_assoc ..⟩

theorem lexeme {l : Lexeme} (hl : l.SpeltBy x) (hs : x ++ r <:+ s) (hts : ts ≠ [])
    (h : LaidOut s r ts) : LaidOut s (x ++ r) (⟨l, s.length - (x ++ r).length⟩ :: ts) := by
  obtain ⟨ls, g, gs, hlexemes, hspelt, hlength, hvacant, rfl⟩ := h
  have hpieces : pieces s (⟨l, s.length - (x ++ weave g (pieces s ts) gs).length⟩ :: ts) =
      x :: pieces s ts := by
    rw [pieces, List.dropLast_cons_of_ne_nil hts, List.map_cons, ← pieces, Token.charsIn,
      ← List.suffix_iff_eq_drop.1 hs, hl.takes]
  refine ⟨l :: ls, [], g :: gs, congrArg (l :: ·) hlexemes, ?_, congrArg (· + 1) hlength, ?_, ?_⟩
  · rw [hpieces]
    exact .cons hl hspelt
  · exact List.forall_mem_cons.2 ⟨.nil, hvacant⟩
  · rw [hpieces, weave_cons]
    rfl

end LaidOut

theorem laidOut_of_tokensFrom (hu : u <:+ s) (h : tokensFrom s.length u = .ok ts) :
    ts ≠ [] ∧ LaidOut s u ts := by
  induction hn : u.length using Nat.strongRecOn generalizing u ts with
  | ind n ih =>
    subst hn
    cases tokensFrom_spelt h with
    | done hu hts =>
      subst hu hts
      exact ⟨List.cons_ne_nil _ _, .done⟩
    | gap hgap h =>
      obtain ⟨hts, hlaid⟩ := ih _ hgap.tail.length_lt (hgap.tail.suffix.trans hu) h rfl
      exact ⟨hts, hlaid.gap hgap⟩
    | lexeme hsplit htail hl h hts =>
      obtain ⟨hne, hlaid⟩ := ih _ htail.length_lt (htail.suffix.trans hu) h rfl
      subst hsplit hts
      exact ⟨List.cons_ne_nil _ _, hlaid.lexeme hl hu hne⟩

/-! ### Other layouts -/

theorem SetsApart.of_cons (h : SetsApart (g :: gs)) :
    (Spacing g ∧ opensBlank g ∧ (gs ≠ [] → g ≠ [])) ∧ SetsApart gs := by
  obtain ⟨hspacing, hspacings⟩ := List.forall_mem_cons.1 h.spacing
  obtain ⟨hblank, hblanks⟩ := List.forall_mem_cons.1 h.blank
  have hne (hgs : gs ≠ []) : g ≠ [] ∧ ∀ g ∈ gs.dropLast, g ≠ [] := by
    have hne := h.nonempty
    rw [List.dropLast_cons_of_ne_nil hgs] at hne
    exact List.forall_mem_cons.1 hne
  refine ⟨⟨hspacing, hblank, fun hgs => (hne hgs).1⟩, hspacings, hblanks, fun g hg => ?_⟩
  exact (hne (by rintro rfl; cases hg)).2 g hg

theorem opensBlank_weave (hg : opensBlank g) (hgs : gs ≠ [] → g ≠ []) :
    opensBlank (weave g xs gs) := by
  cases g with
  | cons c g => exact hg
  | nil =>
    obtain rfl : gs = [] := by
      by_contra hne
      exact hgs hne rfl
    simp [weave, opensBlank]

theorem lexed_weave (hspelt : List.Forall₂ Lexeme.SpeltBy ls xs) (hg : Spacing g)
    (hgs : SetsApart gs) (hlength : gs.length = ls.length) :
    ∃ ts, tokensFrom size (weave g xs gs) = .ok ts ∧ lexemes ts = ls ++ [.eof] := by
  induction hspelt generalizing g gs with
  | nil =>
    obtain rfl := List.eq_nil_of_length_eq_zero hlength
    have hlexed : Lexed size (g ++ []) [] [] := hg.lexed
    rw [Lexed, tokensFrom_nil] at hlexed
    exact ⟨_, hlexed, rfl⟩
  | @cons l x ls xs hl hspelt ih =>
    cases gs with
    | nil => cases hlength
    | cons w gs =>
      obtain ⟨⟨hw, hblank, hne⟩, hgs⟩ := hgs.of_cons
      obtain ⟨ts, hts, hlexemes⟩ := ih hw hgs (Nat.succ.inj hlength)
      have hlexed : Lexed size (g ++ (x ++ weave w xs gs)) _ (weave w xs gs) :=
        hg.lexed.append (hl.lexed (opensBlank_weave hblank hne))
      rw [weave_cons, hlexed, hts]
      exact ⟨_, rfl, congrArg (l :: ·) hlexemes⟩

/-- A text is the texts of its tokens with blanks and comments around them. In any other layout that
sets the tokens apart, the tokens are the same up to their positions. -/
theorem tokenize_weave (h : tokenize s = .ok ts) :
    (∃ g gs, gs.length = (pieces s ts).length ∧ (∀ g' ∈ g :: gs, Vacant g') ∧
      weave g (pieces s ts) gs = s) ∧
    ∀ g gs, Spacing g → SetsApart gs → gs.length = (pieces s ts).length →
      ∃ ts', tokenize (weave g (pieces s ts) gs) = .ok ts' ∧ lexemes ts' = lexemes ts := by
  obtain ⟨-, ls, g, gs, hlexemes, hspelt, hlength, hvacant, hweave⟩ :=
    laidOut_of_tokensFrom (List.suffix_refl s) h
  refine ⟨⟨g, gs, hlength.trans hspelt.length_eq, hvacant, hweave⟩, fun g gs hg hgs hlength => ?_⟩
  rw [hlexemes]
  exact lexed_weave hspelt hg hgs (hlength.trans hspelt.length_eq.symm)

end

end DesignTokens.Script
