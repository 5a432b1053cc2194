import DesignTokens.Proofs.Text.Search

/-!
# Replacing a text

`replaceAll` goes on behind what it has replaced, so a front in which the text does not begin is
kept (`replaceAll_append`). Whether it begins in a front is counted by `occurrences`: there is none
in the front if the whole text has no more of them than what stands behind the front.
-/

namespace DesignTokens.Text

/-- The number of places at which the nonempty text `p` stands. -/
def occurrences (p : List Char) : List Char → Nat
  | [] => 0
  | c :: s => (if p.isPrefixOf (c :: s) then 1 else 0) + occurrences p s

variable {c d : Char} {p q s u x y : List Char}

/-! ### Counting -/

theorem occurrences_cons_pos (h : p <+: c :: s) :
    occurrences p (c :: s) = 1 + occurrences p s := by
  rw [occurrences, if_pos (List.isPrefixOf_iff_prefix.2 h)]

theorem occurrences_cons_neg (h : ¬p <+: c :: s) :
    occurrences p (c :: s) = occurrences p s := by
  rw [occurrences, if_neg (fun hp => h (List.isPrefixOf_iff_prefix.1 hp)), Nat.zero_add]

theorem occurrences_le_append (p x y : List Char) : occurrences p y ≤ occurrences p (x ++ y) := by
  induction x with
  | nil => exact Nat.le_refl _
  | cons c x ih => exact Nat.le_trans ih (Nat.le_add_left ..)

/-- A text that begins with `c` does not begin in a front without `c`. -/
theorem occurrences_append (hx : c ∉ x) (p y : List Char) :
    occurrences (c :: p) (x ++ y) = occurrences (c :: p) y := by
  induction x with
  | nil => rfl
  | cons d x ih =>
    rw [List.mem_cons, not_or] at hx
    rw [List.cons_append, occurrences_cons_neg, ih hx.2]
    exact fun h => hx.1 (List.cons_prefix_cons.1 h).1

/-! ### Replacing -/

theorem replaceAll_cons_neg (h : ¬p <+: c :: s) :
    replaceAll p q (c :: s) = c :: replaceAll p q s := by
  rw [replaceAll, if_neg fun hp => h (List.isPrefixOf_iff_prefix.1 hp.2)]

theorem replaceAll_self_append (hp : p ≠ []) (q s : List Char) :
    replaceAll p q (p ++ s) = q ++ replaceAll p q s := by
  obtain ⟨c, p, rfl⟩ := List.exists_cons_of_ne_nil hp
  have hprefix : (c :: p).isPrefixOf (c :: (p ++ s)) :=
    List.isPrefixOf_iff_prefix.2 (List.prefix_append (c :: p) s)
  rw [List.cons_append, replaceAll, if_pos ⟨Nat.succ_pos _, hprefix⟩, List.length_cons,
    Nat.add_sub_cancel, List.drop_left]

/-- A front in which the text does not begin is kept. -/
theorem replaceAll_append (h : occurrences p (x ++ y) ≤ occurrences p y) (q : List Char) :
    replaceAll p q (x ++ y) = x ++ replaceAll p q y := by
  induction x with
  | nil => rfl
  | cons c x ih =>
    have hle := occurrences_le_append p x y
    have hprefix : ¬p <+: c :: (x ++ y) := fun hprefix => by
      rw [List.cons_append, occurrences_cons_pos hprefix] at h
      omega
    rw [List.cons_append, occurrences_cons_neg hprefix] at h
    rw [List.cons_append, replaceAll_cons_neg hprefix, ih h, List.cons_append]

/-- A text at the front that lacks the character `d` ends before it. -/
theorem isPrefix_of_append_cons (hd : d ∉ p) (h : p <+: x ++ d :: y) : p <+: x := by
  rcases List.prefix_or_prefix_of_prefix h (List.prefix_append x (d :: y)) with hx | ⟨u, rfl⟩
  · exact hx
  · cases u with
    | nil => simp
    | cons e u =>
      obtain ⟨rfl, -⟩ := List.cons_prefix_cons.1 ((List.prefix_append_right_inj x).1 h)
      exact absurd (by simp) hd

theorem occurrences_append_cons (hd : d ∉ p) (hx : ¬p <:+: x) (y : List Char) :
    occurrences p (x ++ d :: y) = occurrences p (d :: y) := by
  induction x with
  | nil => rfl
  | cons c x ih =>
    rw [List.cons_append, occurrences_cons_neg,
      ih fun h => hx (h.trans (List.suffix_cons c x).isInfix)]
    exact fun hprefix => hx (isPrefix_of_append_cons (x := c :: x) hd hprefix).isInfix

/-- Where the text stands in a front, its first occurrence there is replaced. -/
theorem exists_replaceAll_of_infix (hp : p ≠ []) (h : p <:+: x) (q y : List Char) :
    ∃ u w z, x = u ++ (p ++ w) ∧ replaceAll p q (x ++ y) = u ++ (q ++ z) := by
  induction x with
  | nil => exact absurd (List.infix_nil.1 h) hp
  | cons d x ih =>
    by_cases hprefix : p <+: d :: (x ++ y)
    · obtain ⟨w, hw⟩ := List.prefix_of_prefix_length_le hprefix
        (List.prefix_append (d :: x) y) h.length_le
      refine ⟨[], w, replaceAll p q (w ++ y), hw.symm, ?_⟩
      rw [← hw, List.append_assoc]
      exact replaceAll_self_append hp q (w ++ y)
    · have hx : p <:+: x := by
        rcases List.infix_cons_iff.1 h with hfront | hx
        · exact absurd (hfront.trans (List.prefix_append (d :: x) y)) hprefix
        · exact hx
      obtain ⟨u, w, z, rfl, hreplace⟩ := ih hx
      refine ⟨d :: u, w, z, rfl, ?_⟩
      rw [List.cons_append, replaceAll_cons_neg hprefix, hreplace, List.cons_append]

theorem mem_replaceAll (h : c ∈ replaceAll p q s) : c ∈ q ∨ c ∈ s := by
  fun_induction replaceAll p q s with
  | case1 => cases h
  | case2 d s hp ih =>
    rw [if_pos hp] at h
    rcases List.mem_append.1 h with h | h
    · exact .inl h
    · exact (ih h).imp_right fun h => List.mem_cons_of_mem d (List.mem_of_mem_drop h)
  | case3 d s hp ih =>
    rw [if_neg hp] at h
    rcases List.mem_cons.1 h with rfl | h
    · exact .inr List.mem_cons_self
    · exact (ih h).imp_right (List.mem_cons_of_mem d)

end DesignTokens.Text
