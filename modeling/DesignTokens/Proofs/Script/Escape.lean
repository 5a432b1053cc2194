import DesignTokens.Proofs.Script.Balanced

/-!
# Escapes

A backslash escapes the character behind it, so whether a character is escaped depends on all that
stands before it: `Unescaped x s i` says that the text before the place `i` of `s` is whole escapes
and other characters, and that `x` stands there. A text is written between quotes with escapes for
backslashes, quotes and line feeds, and reads back (`readString_escaped`).
-/

namespace DesignTokens.Script

variable {c d q : Char} {s t v x : List Char} {i : Nat}

/-- Escapes are read from the left, and the last one is whole. -/
inductive Whole : List Char → Prop
  | nil : Whole []
  | escape {s : List Char} (c : Char) : Whole s → Whole ('\\' :: c :: s)
  | char {s : List Char} {c : Char} : c ≠ '\\' → Whole s → Whole (c :: s)

/-- The text `x` stands at the place `i` of `s`, and its first character is not escaped. -/
structure Unescaped (x s : List Char) (i : Nat) : Prop where
  whole : Whole (s.take i)
  stands : x <+: s.drop i

/-! ### Whole escapes -/

theorem whole_escape_iff : Whole ('\\' :: c :: s) ↔ Whole s := by
  constructor
  · intro h
    cases h with
    | escape _ h => exact h
    | char hc => exact absurd rfl hc
  · exact .escape c

theorem whole_cons_iff (hc : c ≠ '\\') : Whole (c :: s) ↔ Whole s := by
  constructor
  · intro h
    cases h with
    | escape => exact absurd rfl hc
    | char _ h => exact h
  · exact .char hc

theorem not_whole_backslash : ¬Whole ['\\'] := by
  intro h
  cases h with
  | char hc => exact hc rfl

instance Whole.decide : (s : List Char) → Decidable (Whole s)
  | [] => isTrue .nil
  | [c] => decidable_of_iff (c ≠ '\\')
    ⟨fun hc => .char hc .nil, fun h hc => not_whole_backslash (hc ▸ h)⟩
  | c :: d :: s =>
    if hc : c = '\\' then
      have := Whole.decide s
      decidable_of_iff (Whole s) (hc ▸ whole_escape_iff.symm)
    else
      have := Whole.decide (d :: s)
      decidable_of_iff (Whole (d :: s)) (whole_cons_iff hc).symm

instance : Decidable (Unescaped x s i) :=
  decidable_of_iff (Whole (s.take i) ∧ x <+: s.drop i)
    ⟨fun h => ⟨h.1, h.2⟩, fun h => ⟨h.whole, h.stands⟩⟩

/-! ### Unescaped places -/

theorem unescaped_zero : Unescaped x s 0 ↔ x <+: s :=
  ⟨fun h => h.stands, fun h => ⟨.nil, h⟩⟩

theorem not_unescaped_one : ¬Unescaped x ('\\' :: s) 1 := fun h => not_whole_backslash h.whole

theorem unescaped_escape_iff : Unescaped x ('\\' :: c :: s) (i + 2) ↔ Unescaped x s i :=
  ⟨fun h => ⟨whole_escape_iff.1 h.whole, h.stands⟩,
    fun h => ⟨whole_escape_iff.2 h.whole, h.stands⟩⟩

theorem unescaped_cons_iff (hc : c ≠ '\\') : Unescaped x (c :: s) (i + 1) ↔ Unescaped x s i :=
  ⟨fun h => ⟨(whole_cons_iff hc).1 h.whole, h.stands⟩,
    fun h => ⟨(whole_cons_iff hc).2 h.whole, h.stands⟩⟩

theorem not_unescaped_nil : ¬Unescaped (c :: x) [] i := by
  rintro ⟨-, h⟩
  rw [List.drop_nil] at h
  exact absurd h.length_le (by simp)

theorem not_unescaped_backslash (hd : d ≠ '\\') : ¬Unescaped (d :: x) ['\\'] i := by
  intro h
  match i with
  | 0 => exact hd (List.cons_prefix_cons.1 h.stands).1
  | j + 1 =>
    have hstands : d :: x <+: ([] : List Char).drop j := h.stands
    rw [List.drop_nil] at hstands
    exact absurd hstands.length_le (by simp)

/-- Behind an escape stands what stands in the rest. -/
theorem exists_unescaped_of_escape (hd : d ≠ '\\') (h : Unescaped (d :: x) ('\\' :: c :: s) i) :
    ∃ j, i = j + 2 ∧ Unescaped (d :: x) s j := by
  match i with
  | 0 => exact absurd (List.cons_prefix_cons.1 h.stands).1 hd
  | 1 => exact absurd h not_unescaped_one
  | j + 2 => exact ⟨j, rfl, unescaped_escape_iff.1 h⟩

theorem exists_unescaped_of_cons (hc : c ≠ '\\') (hstands : ¬x <+: c :: s)
    (h : Unescaped x (c :: s) i) : ∃ j, i = j + 1 ∧ Unescaped x s j := by
  match i with
  | 0 => exact absurd (unescaped_zero.1 h) hstands
  | j + 1 => exact ⟨j, rfl, (unescaped_cons_iff hc).1 h⟩

/-! ### The first unescaped place -/

/-- The character stands unescaped at the place `i` and at none before it. -/
structure FirstUnescaped (c : Char) (s : List Char) (i : Nat) : Prop where
  unescaped : Unescaped [c] s i
  first : ∀ j < i, ¬Unescaped [c] s j

instance : Decidable (FirstUnescaped c s i) :=
  decidable_of_iff (Unescaped [c] s i ∧ ∀ j < i, ¬Unescaped [c] s j)
    ⟨fun h => ⟨h.1, h.2⟩, fun h => ⟨h.unescaped, h.first⟩⟩

namespace FirstUnescaped

theorem of_escape (hc : c ≠ '\\') (h : FirstUnescaped c ('\\' :: d :: s) i) :
    ∃ j, i = j + 2 ∧ FirstUnescaped c s j := by
  obtain ⟨j, rfl, hj⟩ := exists_unescaped_of_escape hc h.unescaped
  exact ⟨j, rfl, hj, fun k hk hbefore =>
    h.first (k + 2) (by omega) (unescaped_escape_iff.2 hbefore)⟩

theorem of_cons (hd : d ≠ '\\') (hne : d ≠ c) (h : FirstUnescaped c (d :: s) i) :
    ∃ j, i = j + 1 ∧ FirstUnescaped c s j := by
  have hstands : ¬[c] <+: d :: s := fun h => hne (List.cons_prefix_cons.1 h).1.symm
  obtain ⟨j, rfl, hj⟩ := exists_unescaped_of_cons hd hstands h.unescaped
  exact ⟨j, rfl, hj, fun k hk hbefore =>
    h.first (k + 1) (by omega) ((unescaped_cons_iff hd).2 hbefore)⟩

theorem lt_length (h : FirstUnescaped c s i) : i < s.length := by
  have hle := h.unescaped.stands.length_le
  rw [List.length_drop, List.length_singleton] at hle
  omega

end FirstUnescaped

/-! ### Written strings -/

/-- The text as it is written between the quotes `q`. -/
def escaped (q : Char) (v : List Char) : List Char :=
  v.flatMap fun c =>
    if c = '\\' ∨ c = q then ['\\', c] else if c = '\n' then ['\\', 'n'] else [c]

/-- The string literal that stands for the text. -/
def literal (q : Char) (v : List Char) : List Char := q :: (escaped q v ++ [q])

/-- What is written is read back, whatever follows, if the quote is escaped by a backslash. -/
theorem readString_escaped (hq : unescape q = q) (hescape : q ≠ '\\') (hline : q ≠ '\n')
    (v t : List Char) :
    ∃ a, readString q (escaped q v ++ q :: t) = .ok a ∧ a.value = v ∧ a.rest = t := by
  unfold readString
  generalize (escaped q v ++ q :: t).length + 1 = left
  induction v with
  | nil =>
    rw [escaped, List.flatMap_nil, List.nil_append, readStringBody_cons hescape, if_pos rfl]
    exact ⟨_, rfl, rfl, rfl⟩
  | cons c v ih =>
    obtain ⟨a, ha, hvalue, hrest⟩ := ih
    rw [escaped, List.flatMap_cons, ← escaped]
    by_cases hmark : c = '\\' ∨ c = q
    · have hself : (if c = '\n' then a.value else unescape c :: a.value) = c :: v := by
        rcases hmark with rfl | rfl
        · rw [hvalue]
          rfl
        · rw [if_neg hline, hq, hvalue]
      rw [if_pos hmark]
      show ∃ a, readStringBody q left ('\\' :: c :: (escaped q v ++ q :: t)) = .ok a ∧ _
      rw [readStringBody, ha]
      exact ⟨_, rfl, hself, hrest⟩
    · rw [if_neg hmark]
      rw [not_or] at hmark
      by_cases hnewline : c = '\n'
      · rw [if_pos hnewline]
        show ∃ a, readStringBody q left ('\\' :: 'n' :: (escaped q v ++ q :: t)) = .ok a ∧ _
        rw [readStringBody, ha]
        refine ⟨_, rfl, ?_, hrest⟩
        rw [hvalue, hnewline]
        rfl
      · rw [if_neg hnewline]
        show ∃ a, readStringBody q left (c :: (escaped q v ++ q :: t)) = .ok a ∧ _
        rw [readStringBody_cons hmark.1, if_neg hmark.2, if_neg hnewline, ha]
        exact ⟨_, rfl, congrArg (c :: ·) hvalue, hrest⟩

end DesignTokens.Script
