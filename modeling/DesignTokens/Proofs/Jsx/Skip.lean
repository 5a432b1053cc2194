import DesignTokens.Proofs.Jsx.Passing
import DesignTokens.Proofs.Script.Escape

/-!
# Passing over strings

The walk over script passes over a string without its value, and where the string cannot be read it
goes on at the first line feed that is not escaped (`skipString_of_error`). So it agrees with the
reader on where a string ends, and that reader gives back what was written (`strings_agree`).
-/

namespace DesignTokens.Jsx

open Script (FirstUnescaped LexFault Unescaped escaped literal ne_escape not_unescaped_backslash
  not_unescaped_nil readString readStringBody readString_escaped unescape unescaped_cons_iff
  unescaped_escape_iff unescaped_zero)

variable {q : Char} {left i : Nat} {r source : List Char} {f : LexFault}

/-- A string that cannot be read is passed over up to the first line feed that is not escaped. -/
theorem skipString_of_error (h : readStringBody q left r = .error f) :
    (∀ k, FirstUnescaped '\n' r k → (skipString q r).1 = r.drop k) ∧
      ((∀ k, ¬Unescaped ['\n'] r k) → (skipString q r).1 = []) := by
  fun_induction readStringBody q left r with
  | case1 => exact ⟨fun k hk => absurd hk.unescaped not_unescaped_nil, fun _ => rfl⟩
  | case2 =>
    exact ⟨fun k hk => absurd hk.unescaped (not_unescaped_backslash (by decide)), fun _ => rfl⟩
  | case3 c r ih =>
    rcases error_of_bind h with h | ⟨v, -, h⟩
    · obtain ⟨hfirst, hnone⟩ := ih h
      rw [skipString]
      constructor
      · intro k hk
        obtain ⟨j, rfl, hj⟩ := hk.of_escape (by decide)
        exact hfirst j hj
      · intro hall
        exact hnone fun j hj => hall (j + 2) (unescaped_escape_iff.2 hj)
    · cases h
  | case4 => cases h
  | case5 r hend hescape hquote =>
    have hhere : Unescaped ['\n'] ('\n' :: r) 0 := unescaped_zero.2 (List.prefix_append _ r)
    rw [skipString_cons (by decide), if_neg hquote, if_pos rfl]
    constructor
    · intro k hk
      rcases Nat.eq_zero_or_pos k with rfl | hpos
      · rfl
      · exact absurd hhere (hk.first 0 hpos)
    · intro hall
      exact absurd hhere (hall 0)
  | case6 c r hend hescape hquote hline ih =>
    have hc := ne_escape hend hescape
    rcases error_of_bind h with h | ⟨v, -, h⟩
    · obtain ⟨hfirst, hnone⟩ := ih h
      rw [skipString_cons hc, if_neg hquote, if_neg hline]
      constructor
      · intro k hk
        obtain ⟨j, rfl, hj⟩ := hk.of_cons hc hline
        exact hfirst j hj
      · intro hall
        exact hnone fun j hj => hall (j + 1) ((unescaped_cons_iff hc).2 hj)
    · cases h

/-- The offset at which `rest` is left of the text. -/
def offsetOf (source rest : List Char) : Nat := source.length - rest.length

theorem offsetOf_drop {k : Nat} (h : i < source.length) (hk : k ≤ (source.drop (i + 1)).length) :
    offsetOf source ((source.drop (i + 1)).drop k) = i + 1 + k := by
  rw [List.length_drop] at hk
  rw [offsetOf, List.drop_drop, List.length_drop]
  omega

/-- A written string is read back, and the reader and the walk agree on where strings end; one that
cannot be read ends in front of the first line feed that is not escaped, or with the text. -/
theorem strings_agree :
    (∀ (q : Char) (v t : List Char), q = '"' ∨ q = '\'' →
      ∃ a, readString q ((literal q v ++ t).drop 1) = .ok a ∧ a.value = v ∧
        offsetOf (literal q v ++ t) a.rest = (literal q v).length) ∧
    ∀ (source : List Char) (i : Nat) (q : Char), source[i]? = some q →
      (∀ a, readString q (source.drop (i + 1)) = .ok a →
        offsetOf source (skipString q (source.drop (i + 1))).1 = offsetOf source a.rest) ∧
      (∀ f, readString q (source.drop (i + 1)) = .error f →
        (∀ k, FirstUnescaped '\n' (source.drop (i + 1)) k →
          offsetOf source (skipString q (source.drop (i + 1))).1 = i + 1 + k) ∧
        ((∀ k, ¬Unescaped ['\n'] (source.drop (i + 1)) k) →
          offsetOf source (skipString q (source.drop (i + 1))).1 = source.length)) := by
  refine ⟨fun q v t hq => ?_, fun source i q hi => ⟨fun a ha => ?_, fun f hf => ⟨?_, ?_⟩⟩⟩
  · have hself : unescape q = q ∧ q ≠ '\\' ∧ q ≠ '\n' := by rcases hq with rfl | rfl <;> decide
    obtain ⟨a, ha, hvalue, hrest⟩ := readString_escaped hself.1 hself.2.1 hself.2.2 v t
    have hdrop : (literal q v ++ t).drop 1 = escaped q v ++ q :: t := by
      show escaped q v ++ [q] ++ t = _
      rw [List.append_assoc, List.singleton_append]
    rw [hdrop]
    refine ⟨a, ha, hvalue, ?_⟩
    rw [hrest, offsetOf, List.length_append, Nat.add_sub_cancel]
  · have hskip := skipString_of_readStringBody ha []
    rw [List.append_nil, List.append_nil] at hskip
    rw [hskip]
  · intro k hk
    obtain ⟨hlt, -⟩ := List.getElem?_eq_some_iff.1 hi
    rw [(skipString_of_error hf).1 k hk]
    exact offsetOf_drop hlt (Nat.le_of_lt hk.lt_length)
  · intro hnone
    rw [(skipString_of_error hf).2 hnone]
    rfl

/-- A written string with all that is escaped, and one that goes on in the next line but has no
closing quote. -/
theorem strings_agree_continued :
    (∃ a, readString '\'' ((literal '\'' "it's\\\n".toList ++ ";".toList).drop 1) = .ok a ∧
      a.value = "it's\\\n".toList ∧
      offsetOf (literal '\'' "it's\\\n".toList ++ ";".toList) a.rest = 11) ∧
    "'a\\\nb\nc".toList[0]? = some '\'' ∧
      readString '\'' ("'a\\\nb\nc".toList.drop 1) = .error ⟨.unterminatedString, 7⟩ ∧
      FirstUnescaped '\n' ("'a\\\nb\nc".toList.drop 1) 4 ∧
      offsetOf "'a\\\nb\nc".toList (skipString '\'' ("'a\\\nb\nc".toList.drop 1)).1 = 5 := by
  have hfirst : FirstUnescaped '\n' ("'a\\\nb\nc".toList.drop 1) 4 := by decide
  have hagree := (strings_agree.2 "'a\\\nb\nc".toList 0 '\'' rfl).2
  exact ⟨strings_agree.1 '\'' "it's\\\n".toList ";".toList (.inr rfl), rfl, rfl, hfirst,
    (hagree _ rfl).1 4 hfirst⟩

end DesignTokens.Jsx
