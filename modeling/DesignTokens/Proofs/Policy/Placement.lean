import DesignTokens.Proofs.Policy.Classification
import DesignTokens.Proofs.Policy.Margin
import Mathlib.Data.List.TakeWhile

/-!
# Where a class name turns into a margin

A class name without blanks has at most one margin, which is all that stands behind the first place
where one can begin (`marginsIn_leftmost`). So the policy forbids just the class names of one form
(`MarginAt`) on just the tags that are not allowed. Each of them carries the brand marker, hence
none is judged by the utility policy as well (`margins_decided`).
-/

namespace DesignTokens.Policy.Margin

open Text (isBlank isWordChar)

variable {m s : List Char} {c front u rest : String}

theorem margin?_eq (h : margin? s = some m) (hs : ∀ x ∈ s, isBlank x = false) : m = s := by
  have hrun : s.takeWhile (!isBlank ·) = s := by
    rw [List.takeWhile_eq_self_iff]
    intro x hx
    simp [hs x hx]
  unfold margin? at h
  rw [hrun] at h
  dsimp only at h
  split at h
  · exact (Option.some.inj h).symm
  · cases h

/-- A margin may begin in `s` behind `front`: no word character stands before it. If `front` is
empty, `inWord` says whether one does. -/
structure Begins (inWord : Bool) (s front back : List Char) : Prop where
  split : s = front ++ back
  outside : endsInWord inWord front = false
  margin : (margin? back).isSome

theorem begins_cons_iff {inWord : Bool} {c : Char} {front back : List Char} :
    Begins inWord (c :: s) (c :: front) back ↔ Begins (isWordChar c) s front back := by
  constructor
  · rintro ⟨hsplit, houtside, hmargin⟩
    exact ⟨(List.cons.inj hsplit).2, by rwa [← endsInWord_cons inWord], hmargin⟩
  · rintro ⟨rfl, houtside, hmargin⟩
    exact ⟨rfl, by rwa [endsInWord_cons], hmargin⟩

theorem marginsIn_leftmost (hs : ∀ x ∈ s, isBlank x = false) (inWord : Bool) :
    (marginsIn inWord s = [] ∧ ∀ front back, ¬Begins inWord s front back) ∨
      ∃ front back, marginsIn inWord s = [back] ∧ Begins inWord s front back ∧
        ∀ front' back', Begins inWord s front' back' → front.length ≤ front'.length := by
  induction s generalizing inWord with
  | nil =>
    refine .inl ⟨by rw [marginsIn], ?_⟩
    rintro front back ⟨hsplit, -, hmargin⟩
    obtain ⟨-, rfl⟩ := List.append_eq_nil_iff.1 hsplit.symm
    cases hmargin
  | cons c s ih =>
    obtain ⟨hc, hs'⟩ := List.forall_mem_cons.1 hs
    rw [marginsIn]
    split
    · rename_i hnone
      -- no margin begins here, so one that begins has `c` before it
      have hlater {front back : List Char} (h : Begins inWord (c :: s) front back) :
          ∃ front', front = c :: front' ∧ Begins (isWordChar c) s front' back := by
        cases front with
        | nil =>
          obtain ⟨hsplit, houtside, hmargin⟩ := h
          have hword : inWord = false := houtside
          rw [List.nil_append] at hsplit
          simp [hword, hsplit, Option.isSome_iff_ne_none.1 hmargin] at hnone
        | cons d front =>
          obtain rfl : c = d := (List.cons.inj h.split).1
          exact ⟨front, rfl, begins_cons_iff.1 h⟩
      rcases ih hs' (isWordChar c) with ⟨hnil, hnot⟩ | ⟨front, back, hone, hbegins, hleft⟩
      · refine .inl ⟨hnil, fun front back h => ?_⟩
        obtain ⟨front', -, h⟩ := hlater h
        exact hnot front' back h
      · refine .inr ⟨c :: front, back, hone, begins_cons_iff.2 hbegins, fun front' back' h => ?_⟩
        obtain ⟨front', rfl, hbegins'⟩ := hlater h
        exact Nat.succ_le_succ (hleft front' back' hbegins')
    · rename_i m hm
      split at hm
      · cases hm
      · rename_i hword
        obtain rfl := margin?_eq hm hs
        have hend (b : Bool) : marginsIn b (s.drop ((c :: s).length - 1)) = [] := by
          rw [List.length_cons, Nat.add_sub_cancel, List.drop_length, marginsIn]
        have houtside : endsInWord inWord [] = false := by simpa [endsInWord] using hword
        exact .inr ⟨[], c :: s, by rw [hend], ⟨rfl, houtside, by rw [hm]; rfl⟩,
          fun _ _ _ => Nat.zero_le _⟩

/-! ### Class names -/

/-- Behind `front` the class name is the margin utility `u` with the brand marker and `rest`; no
word character stands before it. -/
structure MarginAt (c front u rest : String) : Prop where
  eq : c = front ++ u ++ "-brand-" ++ rest
  utility : u ∈ ["m", "mx", "my", "mt", "mr", "mb", "ml"]
  rest_ne : rest ≠ ""
  boundary : front = "" ∨ ∃ x, front.toList.getLast? = some x ∧ isWordChar x = false

theorem endsInWord_eq_false_iff : endsInWord false front.toList = false ↔
    front = "" ∨ ∃ x, front.toList.getLast? = some x ∧ isWordChar x = false := by
  cases hlast : front.toList.getLast? with
  | none =>
    rw [List.getLast?_eq_none_iff] at hlast
    simp [endsInWord, hlast, ← String.toList_inj]
  | some x =>
    have hne : front ≠ "" := by
      rintro rfl
      cases hlast
    simp [endsInWord, hlast, hne]

theorem MarginAt.begins (h : MarginAt c front u rest) (hc : ∀ x ∈ c.toList, isBlank x = false) :
    Begins false c.toList front.toList (u ++ "-brand-" ++ rest).toList := by
  obtain ⟨rfl, hu, hrest, hboundary⟩ := h
  refine ⟨by simp, endsInWord_eq_false_iff.2 hboundary, margin?_isSome_iff.2 ?_⟩
  cases hchars : rest.toList with
  | nil => exact absurd (String.toList_inj.1 hchars) hrest
  | cons d rest' =>
    exact ⟨u, hu, d, rest', by simp [hchars], hc d (by simp [hchars])⟩

theorem exists_marginAt {front back : List Char} (h : Begins false c.toList front back) :
    ∃ u rest, back = (u ++ "-brand-" ++ rest).toList ∧
      MarginAt c (String.ofList front) u rest := by
  obtain ⟨hsplit, houtside, hmargin⟩ := h
  obtain ⟨u, hu, d, rest, rfl, -⟩ := margin?_isSome_iff.1 hmargin
  refine ⟨u, String.ofList (d :: rest), by simp, ?_, hu, ?_, ?_⟩
  · simp [← String.toList_inj, hsplit]
  · simp [← String.toList_inj]
  · exact endsInWord_eq_false_iff.1 (by rwa [String.toList_ofList])

/-- A class name without blanks has the margin at the first place where one stands in it, and no
other one. -/
theorem findMargins_one (hc : ∀ x ∈ c.toList, isBlank x = false) :
    (findMargins [c] = [] ∧ ∀ front u rest, ¬MarginAt c front u rest) ∨
      ∃ front u rest, findMargins [c] = [u ++ "-brand-" ++ rest] ∧ MarginAt c front u rest ∧
        ∀ front' u' rest', MarginAt c front' u' rest' → front.length ≤ front'.length := by
  have hfind : findMargins [c] = (marginsIn false c.toList).map String.ofList := by
    simp [findMargins]
  rw [hfind]
  rcases marginsIn_leftmost hc false with ⟨hnil, hnot⟩ | ⟨front, back, hone, hbegins, hleft⟩
  · refine .inl ⟨by rw [hnil, List.map_nil], fun front u rest h => ?_⟩
    exact hnot _ _ (h.begins hc)
  · obtain ⟨u, rest, rfl, hmargin⟩ := exists_marginAt hbegins
    refine .inr ⟨String.ofList front, u, rest, ?_, hmargin, fun front' u' rest' h => ?_⟩
    · rw [hone, List.map_singleton, String.ofList_toList]
    · have hle := hleft _ _ (h.begins hc)
      rwa [String.length_toList, ← String.length_ofList] at hle

theorem findMargins_one_ne_nil_iff (hc : ∀ x ∈ c.toList, isBlank x = false) :
    findMargins [c] ≠ [] ↔ ∃ front u rest, MarginAt c front u rest := by
  rcases findMargins_one hc with ⟨hnil, hnot⟩ | ⟨front, u, rest, hone, hmargin, -⟩
  · simp [hnil, hnot]
  · simp only [hone, ne_eq, List.cons_ne_nil, not_false_eq_true, true_iff]
    exact ⟨front, u, rest, hmargin⟩

theorem MarginAt.exempt (h : MarginAt c front u rest) : Utility.classify c = .exempt :=
  Utility.classify_eq_exempt_iff.2 (.inr ⟨front ++ u, rest, h.eq⟩)

theorem findMargins_eq_flatMap (classes : List String) :
    findMargins classes = classes.flatMap fun c => findMargins [c] := by
  simp [findMargins]

/-- An element violates the policy if its tag is not allowed and one of its class names has the form
of a margin. From a class name without blanks at most one margin is taken, which ends it and begins
as far to the left as one can. The class name is then exempt from the utility policy, so no class
name violates both. -/
theorem margins_decided {classes : List String}
    (hclasses : ∀ c ∈ classes, ∀ x ∈ c.toList, isBlank x = false) (tag : String)
    (allowSection : Bool) :
    ((classify classes tag allowSection).isViolation ↔
        tag ∉ allowedTags allowSection ∧ ∃ c ∈ classes, ∃ front u rest, MarginAt c front u rest) ∧
      (findMargins classes = classes.flatMap fun c => findMargins [c]) ∧
      ∀ c ∈ classes,
        ((findMargins [c] = [] ∧ ∀ front u rest, ¬MarginAt c front u rest) ∨
          ∃ front u rest, findMargins [c] = [u ++ "-brand-" ++ rest] ∧ MarginAt c front u rest ∧
            ∀ front' u' rest', MarginAt c front' u' rest' → front.length ≤ front'.length) ∧
        (findMargins [c] ≠ [] → Utility.classify c = .exempt) ∧
        ¬((Utility.classify c).isViolation ∧ (classify [c] tag allowSection).isViolation) := by
  have hexempt (c : String) (hc : c ∈ classes) (h : findMargins [c] ≠ []) :
      Utility.classify c = .exempt := by
    obtain ⟨front, u, rest, hmargin⟩ := (findMargins_one_ne_nil_iff (hclasses c hc)).1 h
    exact hmargin.exempt
  refine ⟨?_, findMargins_eq_flatMap classes, fun c hc => ⟨?_, hexempt c hc, ?_⟩⟩
  · rw [classify_isViolation, findMargins_eq_flatMap, Ne, List.flatMap_eq_nil_iff]
    simp only [not_forall, exists_prop]
    refine and_congr_right fun _ => exists_congr fun c => and_congr_right fun hc => ?_
    exact findMargins_one_ne_nil_iff (hclasses c hc)
  · exact findMargins_one (hclasses c hc)
  · rintro ⟨hutility, hmargin⟩
    rw [hexempt c hc (classify_isViolation.1 hmargin).2] at hutility
    cases hutility

/-- A variant stands before the margin; a word before it hides it. -/
theorem margins_decided_variant :
    (∀ c ∈ ["item-brand-2", "hover:mt-brand-4"], ∀ x ∈ c.toList, isBlank x = false) ∧
      MarginAt "hover:mt-brand-4" "hover:" "mt" "4" ∧
      Utility.classify "hover:mt-brand-4" = .exempt ∧
      (classify ["item-brand-2", "hover:mt-brand-4"] "section" false).isViolation := by
  have hblank : ∀ c ∈ ["item-brand-2", "hover:mt-brand-4"], ∀ x ∈ c.toList, isBlank x = false := by
    have hall : (["item-brand-2", "hover:mt-brand-4"].all fun c => c.toList.all (!isBlank ·)) =
        true := by decide
    simpa only [List.all_eq_true, Bool.not_eq_true'] using hall
  have hmem : "hover:mt-brand-4" ∈ ["item-brand-2", "hover:mt-brand-4"] := by decide
  have hmargin : MarginAt "hover:mt-brand-4" "hover:" "mt" "4" :=
    ⟨by decide, by decide, by decide, .inr ⟨':', by decide, by decide⟩⟩
  obtain ⟨hviolation, -, hone⟩ := margins_decided hblank "section" false
  obtain ⟨-, hexempt, -⟩ := hone "hover:mt-brand-4" hmem
  refine ⟨hblank, hmargin, hexempt ?_, hviolation.2 ⟨by decide, _, hmem, _, _, _, hmargin⟩⟩
  exact (findMargins_one_ne_nil_iff (hblank _ hmem)).2 ⟨_, _, _, hmargin⟩

end DesignTokens.Policy.Margin
