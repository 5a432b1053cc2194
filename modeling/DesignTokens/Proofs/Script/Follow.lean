import Mathlib.Data.List.TakeWhile
import DesignTokens.Proofs.Script.Balanced

/-!
# Brackets do not depend on what follows

What the readers of templates and of brackets take is read in the same way whatever stands behind
it (`read_cut`). Behind a line comment in brackets there is a line break, since the brackets close
behind it.
-/

namespace DesignTokens.Script

section

variable {left : Nat} {closer c d q : Char} {closers outer r r' s x z : List Char}

theorem afterLine_eq_nil (h : '\n' ∉ s) : afterLine s = [] := by
  rw [afterLine, List.dropWhile_eq_nil_iff.2 fun c hc => bne_iff_ne.2 (ne_of_mem_of_not_mem hc h)]
  rfl

/-- A front of the text closes the brackets, whatever follows it. -/
def ClosesAlone (closer : Char) (outer s r : List Char) : Prop :=
  ∃ y, y ++ r = s ∧ ∀ left u, Closes left closer outer (y ++ u) u

/-- A front of the text is the template, whatever follows it. -/
def ReadsAlone (t : Template) (s r : List Char) : Prop :=
  ∃ y, y ++ r = s ∧ ∀ left u, ReadsTemplate left t (y ++ u) u

namespace ClosesAlone

theorem step (h : ClosesAlone d closers z r)
    (hx : ∀ left y u, Closes left d closers (y ++ u) u →
      Closes left closer outer (x ++ (y ++ u)) u) : ClosesAlone closer outer (x ++ z) r := by
  obtain ⟨y, rfl, hy⟩ := h
  refine ⟨x ++ y, List.append_assoc .., fun left u => ?_⟩
  rw [List.append_assoc]
  exact hx left y u (hy left u)

theorem line (h : ClosesAlone closer outer (afterLine s) r) :
    ClosesAlone closer outer ('/' :: '/' :: s) r := by
  by_cases hline : '\n' ∈ s
  · obtain ⟨z, s, rfl, hz⟩ := List.eq_append_cons_of_mem hline
    rw [afterLine_append hz] at h
    have hstep : ClosesAlone closer outer ('/' :: '/' :: (z ++ ['\n']) ++ s) r :=
      h.step fun _ _ _ hy => by simpa [closes_line, afterLine_append hz] using hy
    simpa using hstep
  · -- the comment ends with the text, so no bracket closes behind it
    obtain ⟨y, hy, hcloses⟩ := h
    obtain ⟨rfl, rfl⟩ := List.append_eq_nil_iff.1 (hy.trans (afterLine_eq_nil hline))
    exact absurd (hcloses 0 []).length_lt (Nat.lt_irrefl _)

theorem block (hs : afterBlock? s = some r') (h : ClosesAlone closer outer r' r) :
    ClosesAlone closer outer ('/' :: '*' :: s) r := by
  obtain ⟨z, rfl, hz⟩ := afterBlock?_cut hs
  exact h.step (x := '/' :: '*' :: z) fun _ _ _ hy => (closes_block (hz _)).2 hy

theorem string {v : Read (List Char) s} (hc : c = '"' ∨ c = '\'')
    (hv : readString c s = .ok v) (h : ClosesAlone closer outer v.rest r) :
    ClosesAlone closer outer (c :: s) r := by
  obtain ⟨z, hz, hread⟩ := readString_cut hv
  rw [← hz]
  refine h.step (x := c :: z) fun left y u hy => (closes_string hc).2 ?_
  obtain ⟨a, ha, -, hrest⟩ := hread (y ++ u)
  exact ⟨a, ha, hrest.symm ▸ hy⟩

theorem template {t : Template} (ht : ReadsAlone t s z) (h : ClosesAlone closer outer z r) :
    ClosesAlone closer outer ('`' :: s) r := by
  obtain ⟨x, rfl, hread⟩ := ht
  refine h.step (x := '`' :: x) fun left y u hy => closes_template.2 ?_
  obtain ⟨a, ha, -, hrest⟩ := hread _ (y ++ u)
  exact ⟨a, ha, hrest.symm ▸ hy⟩

theorem other (hline : ∀ t, c = '/' → s = '/' :: t → False)
    (hblock : ∀ t, c = '/' → s = '*' :: t → False) (htick : c = '`' → False)
    (hquote : ¬(c = '"' ∨ c = '\'')) (hopen : closer? c = none) (hclose : ¬IsCloser c)
    (h : ClosesAlone closer outer s r) : ClosesAlone closer outer (c :: s) r := by
  obtain ⟨y, rfl, hcloses⟩ := h
  -- brackets are left to close, so what follows `c` was there before
  have hhead (u : List Char) : (y ++ u).head? = (y ++ r).head? := by
    cases y with
    | nil => exact absurd (hcloses 0 []).length_lt (Nat.lt_irrefl _)
    | cons d y => rfl
  have hnot {e : Char} (h : ∀ t, c = '/' → y ++ r = e :: t → False) (u : List Char) :
      ∀ t, c = '/' → y ++ u = e :: t → False := by
    intro t hc ht
    have he : (y ++ r).head? = some e := by rw [← hhead u, ht]; rfl
    exact h _ hc (List.cons_head?_tail he).symm
  refine ⟨c :: y, rfl, fun left u => ?_⟩
  unfold Closes
  rw [List.cons_append,
    readBracketed_other (hnot hline u) (hnot hblock u) htick hquote hopen hclose]
  exact (including_iff _).2 (hcloses left u)

/-- The front of the text is the value, with the brace behind it. -/
theorem of_value {b : Read (List Char) s} (hb : readBracketed left '\x7d' [] s = .ok b)
    (h : ClosesAlone '\x7d' [] s b.rest) (left' : Nat) (u : List Char) :
    Closes left' '\x7d' [] (b.value ++ '\x7d' :: u) u := by
  obtain ⟨x, hx, hcloses⟩ := h
  have hlossless : b.value ++ '\x7d' :: b.rest = s := read_lossless.2 _ _ _ _ b hb
  have hclosed : x ++ b.rest = b.value ++ ['\x7d'] ++ b.rest := by
    rw [hx, List.append_assoc, List.singleton_append, hlossless]
  obtain rfl : x = b.value ++ ['\x7d'] := List.append_cancel_right hclosed
  simpa using hcloses left' u

end ClosesAlone

namespace ReadsAlone

variable {t : Template}

theorem escape (h : ReadsAlone t s r) : ReadsAlone (t.prepend ['\\', c]) ('\\' :: c :: s) r := by
  obtain ⟨y, rfl, hread⟩ := h
  exact ⟨'\\' :: c :: y, rfl, fun left u => readTemplate_escape (hread left u)⟩

theorem hole {b : Read (List Char) s} (hb : readBracketed left '\x7d' [] s = .ok b)
    (hinner : ClosesAlone '\x7d' [] s b.rest) (h : ReadsAlone t b.rest r) :
    ReadsAlone ⟨[], (b.value, t.first) :: t.parts⟩ ('$' :: '\x7b' :: s) r := by
  obtain ⟨y, hy, hread⟩ := h
  have hlossless : b.value ++ '\x7d' :: b.rest = s := read_lossless.2 _ _ _ _ b hb
  refine ⟨'$' :: '\x7b' :: (b.value ++ '\x7d' :: y), by simp [hy, hlossless], fun left u => ?_⟩
  simpa using readTemplate_hole (fun left => hinner.of_value hb left (y ++ u)) (hread left u)

theorem char (hescape : c ≠ '\\') (htick : c ≠ '`') (hhole : ∀ w, c = '$' → s ≠ '\x7b' :: w)
    (h : ReadsAlone t s r) : ReadsAlone (t.prepend [c]) (c :: s) r := by
  obtain ⟨y, rfl, hread⟩ := h
  refine ⟨c :: y, rfl, fun left u => readTemplate_char hescape htick ?_ (hread left u)⟩
  rintro ⟨rfl, hbrace⟩
  cases y with
  | nil =>
    obtain ⟨a, -, -, -⟩ := hread 0 []
    exact absurd a.tail.length_lt (Nat.not_lt_zero _)
  | cons d y =>
    cases hbrace
    exact hhole _ rfl rfl

end ReadsAlone

/-- What is read is the same whatever follows it. -/
theorem read_cut :
    (∀ (left : Nat) (s : List Char) (t : Read Template s), readTemplate left s = .ok t →
      ReadsAlone t.value s t.rest) ∧
    (∀ (left : Nat) (closer : Char) (outer s : List Char) (b : Read (List Char) s),
      readBracketed left closer outer s = .ok b → ClosesAlone closer outer s b.rest) := by
  apply readTemplate.mutual_induct
    (fun left s => ∀ t : Read Template s, readTemplate left s = .ok t →
      ReadsAlone t.value s t.rest)
    (fun left closer outer s => ∀ b : Read (List Char) s,
      readBracketed left closer outer s = .ok b → ClosesAlone closer outer s b.rest)
  -- the template ends with the text
  · intro left t h
    rw [readTemplate] at h
    cases h
  · intro left t h
    rw [readTemplate] at h
    cases h
  -- an escape
  · intro left c r ih t h
    rw [readTemplate] at h
    obtain ⟨u, hu, h⟩ := ok_of_bind h
    cases h
    exact (ih u hu).escape
  -- the closing backtick
  · intro left r t h
    rw [readTemplate] at h
    cases h
    refine ⟨['`'], rfl, fun left u => ?_⟩
    unfold ReadsTemplate
    rw [List.singleton_append, readTemplate]
    exact ⟨_, rfl, rfl, rfl⟩
  -- an interpolation
  · intro left r ihInner ih t h
    rw [readTemplate] at h
    obtain ⟨inner, hinner, h⟩ := ok_of_bind h
    obtain ⟨u, hu, h⟩ := ok_of_bind h
    cases h
    exact .hole hinner (ihInner inner hinner) (ih inner u hu)
  -- another character
  · intro left c r hend hescape htick hhole ih t h
    rw [readTemplate] at h <;> try assumption
    obtain ⟨u, hu, h⟩ := ok_of_bind h
    cases h
    exact .char (ne_escape hend hescape) htick hhole (ih u hu)
  -- the brackets end with the text
  · intro left closer outer b h
    rw [readBracketed] at h
    cases h
  -- comments
  · intro left closer outer r tail _ ih b h
    rw [readBracketed] at h
    obtain ⟨u, hu, h⟩ := ok_of_bind h
    cases h
    exact (ih u hu).line
  · intro left closer outer r hr b h
    rw [readBracketed] at h
    split at h
    · cases h
    · rename_i r' hr'
      cases hr.symm.trans hr'
  · intro left closer outer r r' hr tail _ ih b h
    rw [readBracketed] at h
    split at h
    · rename_i hr'
      cases hr.symm.trans hr'
    · rename_i r'' hr'
      cases hr.symm.trans hr'
      obtain ⟨u, hu, h⟩ := ok_of_bind h
      cases h
      exact (ih u hu).block hr
  -- literals
  · intro left closer outer r ihTemplate ih b h
    rw [readBracketed] at h
    obtain ⟨t, ht, h⟩ := ok_of_bind h
    obtain ⟨u, hu, h⟩ := ok_of_bind h
    cases h
    exact .template (ihTemplate t ht) (ih t u hu)
  · intro left closer outer c r _ _ _ hquote ih b h
    rw [readBracketed_string hquote] at h
    obtain ⟨v, hv, h⟩ := ok_of_bind h
    obtain ⟨u, hu, h⟩ := ok_of_bind h
    cases h
    exact .string hquote hv (ih v u hu)
  -- an opening bracket
  · intro left closer outer c r _ _ _ _ d hopen ih b h
    rw [readBracketed_open hopen] at h
    obtain ⟨u, hu, h⟩ := ok_of_bind h
    cases h
    exact (ih u hu).step (x := [c]) fun _ _ _ => (closes_open hopen).2
  -- a closing bracket: a wrong one, the last one, an inner one
  · intro left closer outer c r hline hblock htick hquote hopen hclose hne b h
    rw [readBracketed_close hclose, if_pos hne] at h
    cases h
  · intro left closer c r hline hblock htick hquote hopen hclose hne b h
    rw [readBracketed_close hclose, if_neg hne] at h
    cases h
    exact ⟨[c], rfl, fun left u => (closes_close hclose).2 ⟨Decidable.of_not_not hne, rfl⟩⟩
  · intro left closer c r hline hblock htick hquote hopen hclose hne next outer ih b h
    rw [readBracketed_close hclose, if_neg hne] at h
    obtain ⟨u, hu, h⟩ := ok_of_bind h
    cases h
    exact (ih u hu).step (x := [c]) fun _ _ _ hy =>
      (closes_close hclose).2 ⟨Decidable.of_not_not hne, hy⟩
  -- another character
  · intro left closer outer c r hline hblock htick hquote hopen hclose ih b h
    rw [readBracketed_other hline hblock htick hquote hopen hclose] at h
    obtain ⟨u, hu, h⟩ := ok_of_bind h
    cases h
    exact .other hline hblock htick hquote hopen hclose (ih u hu)

end

end DesignTokens.Script
