import DesignTokens.Text.Location

/-!
# Locations are ordered like offsets

`ofOffset_lt`: a later offset has a later location, by line and then by column. So a location
determines its offset (`ofOffset_inj`), and sorting by location is sorting by offset.
-/

namespace DesignTokens

namespace Location

instance : LT Location :=
  ⟨fun a b => a.line < b.line ∨ a.line = b.line ∧ a.column < b.column⟩

instance : LE Location :=
  ⟨fun a b => a.line < b.line ∨ a.line = b.line ∧ a.column ≤ b.column⟩

variable {a b : Location} {source : List Char} {o o' : Nat}

theorem lt_def : a < b ↔ a.line < b.line ∨ a.line = b.line ∧ a.column < b.column := Iff.rfl

theorem le_def : a ≤ b ↔ a.line < b.line ∨ a.line = b.line ∧ a.column ≤ b.column := Iff.rfl

theorem ne_of_lt (h : a < b) : a ≠ b := by
  rintro rfl
  rw [lt_def] at h
  omega

/-- The column counts what was read since the last line feed. -/
theorem ofOffset_eq (h : o ≤ source.length) : ofOffset source o =
    ⟨(source.take o).count '\n' + 1,
      ((source.take o).reverse.takeWhile (· != '\n')).length + 1⟩ := by
  have hfront : (source.take o).length = o := by rw [List.length_take]; omega
  have hline : ((source.take o).reverse.takeWhile (· != '\n')).length ≤ o := by
    have := (List.takeWhile_prefix (l := (source.take o).reverse) (· != '\n')).length_le
    rwa [List.length_reverse, hfront] at this
  simp only [ofOffset, hfront, mk.injEq, true_and]
  omega

theorem ofOffset_lt (h : o < o') (h' : o' ≤ source.length) :
    ofOffset source o < ofOffset source o' := by
  obtain ⟨gap, rfl⟩ := Nat.exists_eq_add_of_le (Nat.le_of_lt h)
  rw [ofOffset_eq (by omega), ofOffset_eq h', List.take_add, lt_def]
  have hgap : 0 < ((source.drop o).take gap).length := by
    rw [List.length_take, List.length_drop]; omega
  generalize source.take o = front, (source.drop o).take gap = middle at hgap
  simp only [List.count_append, List.reverse_append]
  by_cases hnl : '\n' ∈ middle
  · have := List.count_pos_iff.2 hnl
    exact .inl (by omega)
  · have hcount : middle.count '\n' = 0 := List.count_eq_zero.2 hnl
    refine .inr ⟨by omega, ?_⟩
    rw [List.takeWhile_append_of_pos, List.length_append, List.length_reverse]
    · omega
    · intro c hc
      rw [List.mem_reverse] at hc
      exact bne_iff_ne.2 fun hcn => hnl (hcn ▸ hc)

theorem ofOffset_inj (h : o ≤ source.length) (h' : o' ≤ source.length)
    (heq : ofOffset source o = ofOffset source o') : o = o' := by
  rcases Nat.lt_trichotomy o o' with hlt | rfl | hlt
  · exact absurd heq (ne_of_lt (ofOffset_lt hlt h'))
  · rfl
  · exact absurd heq.symm (ne_of_lt (ofOffset_lt hlt h))

end Location

end DesignTokens
