import DesignTokens.Proofs.Text.Location
import Mathlib.Data.List.Induction

/-!
# Lines

`lineStarts` lists where the lines of a text begin. A text in front of an offset is whole lines and
an unfinished one (`exists_lines`), and both coordinates of the offset's location are read off this
split (`Location.ofOffset_split`). So the location of an offset counts the line feeds before it and
measures its distance from the start of its line, and leads back to it
(`Location.ofOffset_addresses`).
-/

namespace DesignTokens

variable {source lead run rest s : List Char} {o start : Nat}

/-- The offsets at which the lines of a text begin: 0, and behind each line feed. -/
def lineStarts (source : List Char) : List Nat :=
  0 :: (source.zipIdx.filter (·.1 == '\n')).map (·.2 + 1)

/-- The line of the offset `o` begins at `start`: at the start of the text or behind a line feed,
with no other one in between. -/
structure LineStart (source : List Char) (o start : Nat) : Prop where
  le : start ≤ o
  behind : start = 0 ∨ ∃ i, source[i]? = some '\n' ∧ start = i + 1
  last : ∀ i, start ≤ i → i < o → source[i]? ≠ some '\n'

/-! ### Whole lines -/

/-- The text ends with a line, or is empty. -/
def WholeLines (s : List Char) : Prop := s = [] ∨ ∃ t, s = t ++ ['\n']

/-- A text is whole lines, and an unfinished one behind them. -/
theorem exists_lines (s : List Char) :
    ∃ lead run, s = lead ++ run ∧ WholeLines lead ∧ '\n' ∉ run := by
  induction s using List.reverseRecOn with
  | nil => exact ⟨[], [], rfl, .inl rfl, List.not_mem_nil⟩
  | append_singleton s c ih =>
    by_cases hc : c = '\n'
    · subst hc
      exact ⟨s ++ ['\n'], [], by simp, .inr ⟨s, rfl⟩, List.not_mem_nil⟩
    · obtain ⟨lead, run, rfl, hlead, hrun⟩ := ih
      refine ⟨lead, run ++ [c], by simp, hlead, ?_⟩
      intro hmem
      rcases List.mem_append.1 hmem with hmem | hmem
      · exact hrun hmem
      · exact hc (List.mem_singleton.1 hmem).symm

theorem length_filter_zipIdx (s : List Char) (n : Nat) :
    ((s.zipIdx n).filter (·.1 == '\n')).length = s.count '\n' := by
  rw [← List.countP_eq_length_filter]
  show (s.zipIdx n).countP ((· == '\n') ∘ Prod.fst) = _
  rw [← List.countP_map, List.zipIdx_map_fst, List.count]

/-- Behind as many whole lines as were counted the next line begins. -/
theorem lineStarts_getElem? (h : WholeLines lead) (rest : List Char) :
    (lineStarts (lead ++ rest))[lead.count '\n']? = some lead.length := by
  rcases h with rfl | ⟨t, rfl⟩
  · rfl
  · have hsplit : t ++ ['\n'] ++ rest = t ++ '\n' :: rest := by simp
    have hindex : (t ++ ['\n']).count '\n' =
        ((t.zipIdx.filter (·.1 == '\n')).map (·.2 + 1)).length + 1 := by
      rw [List.length_map, length_filter_zipIdx]
      simp
    rw [hindex, hsplit, lineStarts, List.zipIdx_append, List.filter_append, List.map_append,
      List.getElem?_cons_succ, List.getElem?_append_right (Nat.le_refl _), Nat.sub_self]
    simp

/-- The lines that begin at the offset `o` or before it are as many as the line feeds before it,
and the first one. -/
theorem countP_lineStarts (h : o ≤ source.length) :
    (lineStarts source).countP (· ≤ o) = (source.take o).count '\n' + 1 := by
  have hfront : (source.take o).length = o := by rw [List.length_take]; omega
  have hbefore : (((source.take o).zipIdx.filter (·.1 == '\n')).map (·.2 + 1)).countP (· ≤ o) =
      (source.take o).count '\n' := by
    rw [← length_filter_zipIdx _ 0, ← List.length_map (·.2 + 1), List.countP_eq_length]
    intro n hn
    obtain ⟨⟨c, i⟩, hi, rfl⟩ := List.mem_map.1 hn
    have hlt := List.snd_lt_of_mem_zipIdx (List.mem_filter.1 hi).1
    rw [hfront] at hlt
    exact decide_eq_true (show i + 1 ≤ o by omega)
  have hbehind : ((((source.drop o).zipIdx o).filter (·.1 == '\n')).map (·.2 + 1)).countP
      (· ≤ o) = 0 := by
    rw [List.countP_eq_zero]
    intro n hn
    obtain ⟨⟨c, i⟩, hi, rfl⟩ := List.mem_map.1 hn
    have hle := List.le_snd_of_mem_zipIdx (List.mem_filter.1 hi).1
    simp only [decide_eq_true_eq]
    omega
  conv_lhs => rw [← List.take_append_drop o source]
  rw [lineStarts, List.countP_cons_of_pos (by simp), List.zipIdx_append, List.filter_append,
    List.map_append, List.countP_append, hbefore, Nat.zero_add, hfront, hbehind]

/-- The line of an offset begins behind the whole lines before it. -/
theorem lineStart_split (hlead : WholeLines lead) (hrun : '\n' ∉ run) (rest : List Char) :
    LineStart (lead ++ (run ++ rest)) (lead.length + run.length) lead.length := by
  refine ⟨Nat.le_add_right .., ?_, ?_⟩
  · rcases hlead with rfl | ⟨t, rfl⟩
    · exact .inl rfl
    · exact .inr ⟨t.length, by simp, by simp⟩
  · intro i hle hlt hi
    rw [List.getElem?_append_right hle, List.getElem?_append_left (by omega)] at hi
    exact hrun (List.mem_of_getElem? hi)

namespace Location

/-- The column counts the characters of the unfinished line. -/
theorem ofOffset_split (hlead : WholeLines lead) (hrun : '\n' ∉ run) (rest : List Char) :
    ofOffset (lead ++ (run ++ rest)) (lead.length + run.length) =
      ⟨lead.count '\n' + 1, run.length + 1⟩ := by
  have htake : (lead ++ (run ++ rest)).take (lead.length + run.length) = lead ++ run := by
    rw [← List.append_assoc, ← List.length_append, List.take_left]
  have hcount : (lead ++ run).count '\n' = lead.count '\n' := by
    rw [List.count_append, List.count_eq_zero.2 hrun, Nat.add_zero]
  have hline : (lead ++ run).reverse.takeWhile (· != '\n') = run.reverse := by
    rw [List.reverse_append, List.takeWhile_append_of_pos]
    · rcases hlead with rfl | ⟨t, rfl⟩
      · simp
      · simp
    · intro c hc
      rw [List.mem_reverse] at hc
      exact bne_iff_ne.2 fun hcn => hrun (hcn ▸ hc)
  rw [ofOffset_eq (by simp), htake, hcount, hline, List.length_reverse]

/-- The offset that a location names: its column counts from the start of its line. -/
def offset? (source : List Char) (l : Location) : Option Nat :=
  (lineStarts source)[l.line - 1]?.map (· + (l.column - 1))

/-- The location of an offset counts the line feeds before it, or the lines begun by then, and the
way from the start of its line; it leads back to the offset, and comes before the locations of all
later ones. -/
theorem ofOffset_addresses (h : o ≤ source.length) :
    (ofOffset source o).line = 1 + (source.take o).count '\n' ∧
      (ofOffset source o).line = (lineStarts source).countP (· ≤ o) ∧
      (∃ start, LineStart source o start ∧ (ofOffset source o).column = o - start + 1) ∧
      (ofOffset source o).offset? source = some o ∧
      ∀ o', o < o' → o' ≤ source.length → ofOffset source o < ofOffset source o' := by
  refine ⟨?_, ?_, ?_, ?_, fun o' hlt hle => ofOffset_lt hlt hle⟩
  · rw [ofOffset_eq h, Nat.add_comm]
  · rw [ofOffset_eq h, countP_lineStarts h]
  all_goals
    obtain ⟨lead, run, hfront, hlead, hrun⟩ := exists_lines (source.take o)
    obtain rfl : lead.length + run.length = o := by
      rw [← List.length_append, ← hfront, List.length_take]
      omega
    obtain ⟨rest, rfl⟩ : ∃ rest, lead ++ (run ++ rest) = source :=
      ⟨source.drop (lead.length + run.length), by
        rw [← List.append_assoc, ← hfront, List.take_append_drop]⟩
  · refine ⟨lead.length, lineStart_split hlead hrun rest, ?_⟩
    rw [ofOffset_split hlead hrun]
    simp
  · rw [ofOffset_split hlead hrun]
    show (lineStarts (lead ++ (run ++ rest)))[lead.count '\n']?.map (· + run.length) = _
    rw [lineStarts_getElem? hlead]
    rfl

/-- An offset behind an empty line, and the end of a text that ends with a line feed. -/
theorem ofOffset_addresses_emptyLine :
    3 ≤ "a\n\nb\n".toList.length ∧ ofOffset "a\n\nb\n".toList 3 = ⟨3, 1⟩ ∧
      3 = (lineStarts "a\n\nb\n".toList).countP (· ≤ 3) ∧
      (∃ start, LineStart "a\n\nb\n".toList 3 start ∧ 1 = 3 - start + 1) ∧
      offset? "a\n\nb\n".toList ⟨3, 1⟩ = some 3 ∧
      ofOffset "a\n\nb\n".toList 5 = ⟨4, 1⟩ ∧ (⟨3, 1⟩ : Location) < ⟨4, 1⟩ := by
  have hoffset : 3 ≤ "a\n\nb\n".toList.length := by decide
  obtain ⟨-, hbegun, hcolumn, hback, hlater⟩ := ofOffset_addresses hoffset
  exact ⟨hoffset, rfl, hbegun, hcolumn, hback, rfl, hlater 5 (by decide) (by decide)⟩

end Location

end DesignTokens
