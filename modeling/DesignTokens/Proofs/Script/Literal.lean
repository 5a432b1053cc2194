import DesignTokens.Script.Literal
import DesignTokens.Proofs.Text.Reading

/-!
# Literals are read without loss

`chars_readTemplate`: what `readTemplate` reads is the written form of the template it gives, with
a backtick after it. `eq_of_readString`: without backslashes the value of a string literal stands
between its quotes. So every piece of a literal is a piece of the text it was read from.
-/

namespace DesignTokens.Script

/-! ### Strings -/

theorem eq_of_readStringBody {quote : Char} {left : Nat} {s : List Char}
    {v : Read (List Char) s} (hs : '\\' ∉ s) (h : readStringBody quote left s = .ok v) :
    s = v.value ++ quote :: v.rest := by
  fun_induction readStringBody quote left s with
  | case1 => cases h
  | case2 => cases h
  | case3 c r ih => exact absurd List.mem_cons_self hs
  | case4 r _ _ => cases h; rfl
  | case5 => cases h
  | case6 c r _ _ _ _ ih =>
    obtain ⟨u, hu, h⟩ := ok_of_bind h
    cases h
    exact congrArg (c :: ·) (ih (fun hr => hs (List.mem_cons_of_mem c hr)) hu)

theorem eq_of_readString {quote : Char} {r : List Char} {v : Read (List Char) r}
    (hr : '\\' ∉ r) (h : readString quote r = .ok v) : r = v.value ++ quote :: v.rest :=
  eq_of_readStringBody hr h

/-! ### Templates and brackets -/

namespace Template

/-- The written template, without its backticks. -/
def chars (t : Template) : List Char :=
  t.first ++ t.parts.flatMap fun p => '$' :: '\x7b' :: p.1 ++ '\x7d' :: p.2

theorem chars_prepend (s : List Char) (t : Template) : (t.prepend s).chars = s ++ t.chars :=
  List.append_assoc ..

theorem chars_cons (x first : List Char) (parts : List (List Char × List Char)) :
    (⟨[], (x, first) :: parts⟩ : Template).chars =
      '$' :: '\x7b' :: (x ++ '\x7d' :: (⟨first, parts⟩ : Template).chars) := by
  simp [chars]

end Template

section Brackets
variable {left : Nat} {closer c d : Char} {outer r : List Char}

theorem readBracketed_string (hc : c = '"' ∨ c = '\'') :
    readBracketed left closer outer (c :: r) = do
      let v ← readString c r
      let b ← readBracketed left closer outer v.rest
      return b.including (v.tail.trans (.one c r)) := by
  cases outer <;> rcases hc with rfl | rfl <;> rw [readBracketed, if_pos (by simp)]
  all_goals simp

theorem readBracketed_open (hc : closer? c = some d) :
    readBracketed left closer outer (c :: r) = do
      let b ← readBracketed left d (closer :: outer) r
      return b.including (.one c r) := by
  have hopen : c = '\x7b' ∨ c = '(' ∨ c = '[' := by
    unfold closer? at hc
    split at hc <;> simp_all
  cases outer <;> rcases hopen with rfl | rfl | rfl <;> rw [readBracketed, if_neg (by simp), hc]
  all_goals simp

/-- A character that means nothing here is passed over. -/
theorem readBracketed_other (hline : ∀ t, c = '/' → r = '/' :: t → False)
    (hblock : ∀ t, c = '/' → r = '*' :: t → False) (htick : c = '`' → False)
    (hquote : ¬ (c = '"' ∨ c = '\'')) (hopen : closer? c = none)
    (hclose : ¬ (c = ')' ∨ c = ']' ∨ c = '\x7d')) :
    readBracketed left closer outer (c :: r) = do
      let b ← readBracketed left closer outer r
      return b.including (.one c r) := by
  cases outer <;> rw [readBracketed, if_neg hquote, hopen] <;> try assumption
  all_goals simp only [if_neg hclose]

end Brackets

/-- What is read is the written template and the closing backtick; in brackets it is the text up to
the bracket that closes the outermost one, and that bracket. -/
theorem read_lossless :
    (∀ (left : Nat) (s : List Char) (t : Read Template s), readTemplate left s = .ok t →
      t.value.chars ++ '`' :: t.rest = s) ∧
    (∀ (left : Nat) (closer : Char) (outer s : List Char) (b : Read (List Char) s),
      readBracketed left closer outer s = .ok b →
      b.value ++ (closer :: outer).getLast (List.cons_ne_nil _ _) :: b.rest = s) := by
  apply readTemplate.mutual_induct
    (fun left s => ∀ t : Read Template s, readTemplate left s = .ok t →
      t.value.chars ++ '`' :: t.rest = s)
    (fun left closer outer s => ∀ b : Read (List Char) s,
      readBracketed left closer outer s = .ok b →
      b.value ++ (closer :: outer).getLast (List.cons_ne_nil _ _) :: b.rest = s)
  -- the template ends with the text
  · intro left t h
    rw [readTemplate] at h
    cases h
  · intro left t h
    rw [readTemplate] at h
    cases h
  -- an escape
  · intro left c r ih t h
    rw [readTemplate] at h
    obtain ⟨u, hu, h⟩ := ok_of_bind h
    cases h
    simpa [Read.after, Read.map, Template.chars_prepend] using ih u hu
  -- the closing backtick
  · intro left r t h
    rw [readTemplate] at h
    cases h
    rfl
  -- an interpolation
  · intro left r ihInner ih t h
    rw [readTemplate] at h
    obtain ⟨inner, hinner, h⟩ := ok_of_bind h
    obtain ⟨u, hu, h⟩ := ok_of_bind h
    cases h
    show Template.chars ⟨[], (inner.value, u.value.first) :: u.value.parts⟩ ++ '`' :: u.rest = _
    rw [Template.chars_cons, List.cons_append, List.cons_append, List.append_assoc,
      List.cons_append, ih inner u hu]
    exact congrArg ('$' :: '\x7b' :: ·) (ihInner inner hinner)
  -- another character
  · intro left c r h1 h2 h3 h4 ih t h
    rw [readTemplate] at h <;> try assumption
    obtain ⟨u, hu, h⟩ := ok_of_bind h
    cases h
    simpa [Read.after, Read.map, Template.chars_prepend] using ih u hu
  -- the brackets end with the text
  · intro left closer outer b h
    rw [readBracketed] at h
    cases h
  -- comments
  · intro left closer outer r tail _ ih b h
    rw [readBracketed] at h
    obtain ⟨u, hu, h⟩ := ok_of_bind h
    cases h
    exact including_append (ih u hu)
  · intro left closer outer r hr b h
    rw [readBracketed] at h
    split at h
    · cases h
    · rename_i r' hr'
      cases hr.symm.trans hr'
  · intro left closer outer r r' hr tail _ ih b h
    rw [readBracketed] at h
    split at h
    · rename_i hr'
      cases hr.symm.trans hr'
    · rename_i r'' hr'
      cases hr.symm.trans hr'
      obtain ⟨u, hu, h⟩ := ok_of_bind h
      cases h
      exact including_append (ih u hu)
  -- literals
  · intro left closer outer r _ ih b h
    rw [readBracketed] at h
    obtain ⟨t, -, h⟩ := ok_of_bind h
    obtain ⟨u, hu, h⟩ := ok_of_bind h
    cases h
    exact including_append (ih t u hu)
  · intro left closer outer c r _ _ _ hquote ih b h
    rw [readBracketed_string hquote] at h
    obtain ⟨v, -, h⟩ := ok_of_bind h
    obtain ⟨u, hu, h⟩ := ok_of_bind h
    cases h
    exact including_append (ih v u hu)
  -- an opening bracket
  · intro left closer outer c r _ _ _ _ d hopen ih b h
    rw [readBracketed_open hopen] at h
    obtain ⟨u, hu, h⟩ := ok_of_bind h
    cases h
    exact including_append (ih u hu)
  -- a closing bracket: a wrong one, the last one, an inner one
  · intro left closer outer c r hline hblock htick hquote hopen hclose hne b h
    cases outer <;> rw [readBracketed, if_neg hquote, hopen] at h <;> try assumption
    all_goals
      simp only [if_pos hclose, if_pos hne] at h
      cases h
  · intro left closer c r hline hblock htick hquote hopen hclose hne b h
    rw [readBracketed, if_neg hquote, hopen] at h <;> try assumption
    simp only [if_pos hclose, if_neg hne] at h
    cases h
    rw [Decidable.of_not_not hne]
    rfl
  · intro left closer c r hline hblock htick hquote hopen hclose hne next outer ih b h
    rw [readBracketed, if_neg hquote, hopen] at h <;> try assumption
    simp only [if_pos hclose, if_neg hne] at h
    obtain ⟨u, hu, h⟩ := ok_of_bind h
    cases h
    exact including_append (ih u hu)
  -- another character
  · intro left closer outer c r hline hblock htick hquote hopen hclose ih b h
    rw [readBracketed_other hline hblock htick hquote hopen hclose] at h
    obtain ⟨u, hu, h⟩ := ok_of_bind h
    cases h
    exact including_append (ih u hu)

theorem chars_readTemplate {left : Nat} {s : List Char} {t : Read Template s}
    (h : readTemplate left s = .ok t) : t.value.chars ++ '`' :: t.rest = s :=
  read_lossless.1 left s t h

namespace Template
variable {t : Template} {x : List Char}

theorem infix_of_mem_parts {p : List Char × List Char} (hp : p ∈ t.parts) :
    '$' :: '\x7b' :: p.1 ++ '\x7d' :: p.2 <:+: t.chars := by
  refine .trans ?_ (List.suffix_append ..).isInfix
  exact List.infix_of_mem_flatten (List.mem_map.2 ⟨p, hp, rfl⟩)

theorem infix_of_mem_quasis (hx : x ∈ t.quasis) : x <:+: t.chars := by
  rcases List.mem_cons.1 hx with rfl | hx
  · exact (List.prefix_append ..).isInfix
  · obtain ⟨p, hp, rfl⟩ := List.mem_map.1 hx
    exact .trans ⟨'$' :: '\x7b' :: p.1 ++ ['\x7d'], [], by simp⟩ (infix_of_mem_parts hp)

theorem infix_of_mem_interpolations (hx : x ∈ t.interpolations) : x <:+: t.chars := by
  obtain ⟨p, hp, rfl⟩ := List.mem_map.1 hx
  exact .trans ⟨['$', '\x7b'], '\x7d' :: p.2, by simp⟩ (infix_of_mem_parts hp)

theorem length_lt_of_mem_interpolations (hx : x ∈ t.interpolations) :
    x.length < t.chars.length := by
  obtain ⟨p, hp, rfl⟩ := List.mem_map.1 hx
  have hlength := (infix_of_mem_parts hp).length_le
  simp only [List.length_append, List.length_cons] at hlength
  omega

end Template

end DesignTokens.Script
