import DesignTokens.Proofs.Plan.Define

/-!
# The written forms of lengths and colors

The texts that are lengths and colors are described apart from their checks (`Length`, `HexColor`).
The check of lengths gives back exactly the lengths and reports every other value under its path;
that it looks for blanks first decides only what is reported (`lengths_recognized`). The check of
colors also gives back a color with a line feed behind it (`hexColors_recognized`), which is no color
(`not_hexColors_recognized`).
-/

namespace DesignTokens.Plan

variable {s whole rest : List Char} {c : Char} {v : Value} {path t : String}

/-! ### The forms -/

def digits : List Char := "0123456789".toList

def hexDigits : List Char := "0123456789abcdefABCDEF".toList

/-- One or more decimal digits. -/
def Digits (s : List Char) : Prop := s ≠ [] ∧ ∀ d ∈ s, d ∈ digits

/-- Nothing, or decimal digits behind a point. -/
inductive Places : List Char → Prop
  | none : Places []
  | point {ds : List Char} : Digits ds → Places ('.' :: ds)

def LengthUnit (s : List Char) : Prop :=
  String.ofList s ∈ ["px", "rem", "em", "%", "vh", "vw", "vmin", "vmax", "ch", "ex"]

/-- Zero, or a decimal number with a unit. -/
inductive Length : List Char → Prop
  | zero : Length ['0']
  | measure {whole places unit : List Char} :
    Digits whole → Places places → LengthUnit unit → Length (whole ++ places ++ unit)

/-- A hash mark and three or six hexadecimal digits. -/
def HexColor (s : List Char) : Prop :=
  ∃ ds, s = '#' :: ds ∧ (ds.length = 3 ∨ ds.length = 6) ∧ ∀ d ∈ ds, d ∈ hexDigits

/-- A color, perhaps with a line feed behind it. -/
def HexColorLine (s : List Char) : Prop := HexColor s ∨ ∃ t, s = t ++ ['\n'] ∧ HexColor t

/-- The check gives the value back if it is a text of the form, and otherwise reports it under its
path. -/
def Recognizes (check : Value → String → Except PlanError String) (form : List Char → Prop)
    (v : Value) (path : String) : Prop :=
  (∀ s, check v path = .ok s ↔ v = .text s ∧ form s.toList) ∧
    ((∃ problem, check v path = .error (.field path problem)) ↔
      ¬∃ s, v = .text s ∧ form s.toList)

namespace Recognizes

variable {check : Value → String → Except PlanError String} {form form' : List Char → Prop}

/-- A check always answers, so it is enough to know what it gives back and where it reports. -/
theorem intro (hok : ∀ s, check v path = .ok s ↔ v = .text s ∧ form s.toList)
    (herror : ∀ e, check v path = .error e → ∃ problem, e = .field path problem) :
    Recognizes check form v path := by
  refine ⟨hok, ?_⟩
  constructor
  · rintro ⟨problem, hproblem⟩ ⟨s, hs⟩
    rw [(hok s).2 hs] at hproblem
    cases hproblem
  · intro hnone
    cases h : check v path with
    | ok s => exact absurd ⟨s, (hok s).1 h⟩ hnone
    | error e =>
      obtain ⟨problem, rfl⟩ := herror e h
      exact ⟨problem, rfl⟩

/-- The check recognizes another form of the value just if the two forms agree on it. -/
theorem iff_agree (h : Recognizes check form v path) :
    Recognizes check form' v path ↔ ∀ s, v = .text s → (form s.toList ↔ form' s.toList) := by
  constructor
  · rintro h' s rfl
    have hs := (h.1 s).symm.trans (h'.1 s)
    simpa using hs
  · intro hagree
    have hforms (s : String) : v = .text s ∧ form s.toList ↔ v = .text s ∧ form' s.toList :=
      and_congr_right (hagree s)
    refine ⟨fun s => (h.1 s).trans (hforms s), ?_⟩
    rw [h.2]
    simp only [hforms]

end Recognizes

/-! ### Digits -/

/-- A set of characters below a bound is checked one by one. -/
theorem mem_iff_of_lt {b : Nat} {ds : List Char} {p : Char → Bool} (hds : ds.all (·.toNat < b))
    (hp : ∀ c, p c → c.toNat < b) (h : ∀ k < b, Char.ofNat k ∈ ds ↔ p (Char.ofNat k)) :
    c ∈ ds ↔ p c := by
  by_cases hc : c.toNat < b
  · have hcode := h _ hc
    rwa [Char.ofNat_toNat] at hcode
  · constructor
    · intro hmem
      exact absurd (of_decide_eq_true (List.all_eq_true.1 hds c hmem)) hc
    · intro hmem
      exact absurd (hp c hmem) hc

theorem mem_digits_iff : c ∈ digits ↔ Text.isAsciiDigit c := by
  refine mem_iff_of_lt (b := 58) (by decide) (fun c hc => ?_) (by decide)
  simp only [Text.isAsciiDigit, Bool.and_eq_true, decide_eq_true_eq, Char.le_def] at hc
  have hhigh : c.toNat ≤ 57 := hc.2
  omega

theorem mem_hexDigits_iff : c ∈ hexDigits ↔ Text.isHexDigit c := by
  refine mem_iff_of_lt (b := 103) (by decide) (fun c hc => ?_) (by decide)
  simp only [Text.isHexDigit, Text.isAsciiDigit, Bool.or_eq_true, Bool.and_eq_true,
    decide_eq_true_eq, Char.le_def] at hc
  rcases hc with (⟨-, hhigh⟩ | ⟨-, hhigh⟩) | ⟨-, hhigh⟩
  · have hhigh : c.toNat ≤ 57 := hhigh
    omega
  · have hhigh : c.toNat ≤ 102 := hhigh
    omega
  · have hhigh : c.toNat ≤ 70 := hhigh
    omega

/-- No decimal digit stands at the front of the text. -/
def EndsDigits (s : List Char) : Prop := ∀ c ∈ s.head?, c ∉ digits

theorem digits_takeWhile (h : s.head?.any Text.isAsciiDigit) :
    Digits (s.takeWhile Text.isAsciiDigit) := by
  constructor
  · cases s with
    | nil => cases h
    | cons c s =>
      have hc : Text.isAsciiDigit c := h
      rw [List.takeWhile_cons_of_pos hc]
      exact List.cons_ne_nil _ _
  · intro d hd
    exact mem_digits_iff.2 (List.all_eq_true.1 List.all_takeWhile d hd)

theorem Digits.dropWhile_append (h : Digits whole) (hrest : EndsDigits rest) :
    (whole ++ rest).head?.any Text.isAsciiDigit ∧
      (whole ++ rest).dropWhile Text.isAsciiDigit = rest := by
  obtain ⟨hne, hall⟩ := h
  have hdigit : ∀ d ∈ whole, Text.isAsciiDigit d := fun d hd => mem_digits_iff.1 (hall d hd)
  constructor
  · cases whole with
    | nil => exact absurd rfl hne
    | cons d ds => exact hdigit d List.mem_cons_self
  · rw [List.dropWhile_append_of_pos hdigit]
    cases rest with
    | nil => rfl
    | cons c rest =>
      refine List.dropWhile_cons_of_neg fun hc => ?_
      exact hrest c rfl (mem_digits_iff.2 hc)

/-! ### Lengths -/

theorem LengthUnit.ends (h : LengthUnit s) : EndsDigits s ∧ ∀ u, s ≠ '.' :: u := by
  have hunits : ∀ u ∈ units, u.toList.head?.all fun c => c ∉ digits ∧ c ≠ '.' := by decide
  have hs := hunits _ h
  rw [String.toList_ofList] at hs
  cases s with
  | nil => exact ⟨nofun, nofun⟩
  | cons c s =>
    obtain ⟨hdigit, hpoint⟩ := of_decide_eq_true hs
    refine ⟨fun d hd => Option.some.inj hd ▸ hdigit, fun u hu => ?_⟩
    exact hpoint (List.cons.inj hu).1

theorem endsLength_iff : endsLength s ↔
    ∃ places unit, Places places ∧ LengthUnit unit ∧ s = places ++ unit := by
  unfold endsLength
  constructor
  · intro h
    split at h
    · rename_i f
      rw [Bool.and_eq_true, List.contains_iff_mem] at h
      refine ⟨_, _, .point (digits_takeWhile h.1), h.2, ?_⟩
      rw [List.cons_append, List.takeWhile_append_dropWhile]
    · exact ⟨[], s, .none, List.contains_iff_mem.1 h, rfl⟩
  · rintro ⟨places, unit, hplaces, hunit, rfl⟩
    obtain ⟨hends, hpoint⟩ := hunit.ends
    cases hplaces with
    | none =>
      split
      · rename_i f hf
        exact absurd hf (hpoint f)
      · exact List.contains_iff_mem.2 hunit
    | point hds =>
      obtain ⟨hfront, hdrop⟩ := hds.dropWhile_append hends
      rename_i ds
      show ((ds ++ unit).head?.any Text.isAsciiDigit &&
        units.contains (String.ofList ((ds ++ unit).dropWhile Text.isAsciiDigit))) = true
      rw [hfront, hdrop]
      exact List.contains_iff_mem.2 hunit

theorem isLength_iff : isLength s ↔ Length s := by
  rw [isLength, Bool.or_eq_true, beq_iff_eq, Bool.and_eq_true, endsLength_iff]
  constructor
  · rintro (rfl | ⟨hfront, places, unit, hplaces, hunit, hrest⟩)
    · exact .zero
    · rw [← List.takeWhile_append_dropWhile (p := Text.isAsciiDigit) (l := s), hrest,
        ← List.append_assoc]
      exact .measure (digits_takeWhile hfront) hplaces hunit
  · rintro (_ | ⟨hwhole, hplaces, hunit⟩)
    · exact .inl rfl
    · rename_i whole places unit
      have hends : EndsDigits (places ++ unit) := by
        cases hplaces with
        | none => exact hunit.ends.1
        | point => exact fun c hc => Option.some.inj hc ▸ by decide
      obtain ⟨hfront, hdrop⟩ := hwhole.dropWhile_append hends
      rw [List.append_assoc]
      exact .inr ⟨hfront, places, unit, hplaces, hunit, hdrop⟩

theorem checkLength_eq_blank_iff :
    checkLength v path = .error (.field path (.blankInLength t)) ↔
      v = .text t ∧ ∃ c ∈ t.toList, Text.isBlank c := by
  constructor
  · intro h
    rcases error_of_bind h with h | ⟨s, hs, h⟩
    · unfold checkText at h
      split at h
      · split at h <;> cases h
      · cases h
    · split at h
      · rename_i hblank
        cases h
        exact ⟨(checkText_eq_ok_iff.1 hs).1, List.any_eq_true.1 hblank⟩
      · split at h <;> cases h
  · rintro ⟨rfl, hblank⟩
    have hempty : t.isEmpty = false := by
      rw [← Bool.not_eq_true, String.isEmpty_iff]
      rintro rfl
      obtain ⟨c, hc, -⟩ := hblank
      cases hc
    rw [checkLength, checkText_eq_ok_iff.2 ⟨rfl, hempty⟩]
    exact if_pos (List.any_eq_true.2 hblank)

/-- Exactly the lengths are given back, every other value is reported under its path, and what is
reported is a blank exactly where one stands in a text. -/
theorem lengths_recognized (v : Value) (path : String) : Recognizes checkLength Length v path ∧
    ∀ t, checkLength v path = .error (.field path (.blankInLength t)) ↔
      v = .text t ∧ ∃ c ∈ t.toList, Text.isBlank c := by
  refine ⟨.intro (fun s => ?_) fun e => field_of_checkLength, fun t => checkLength_eq_blank_iff⟩
  rw [checkLength_eq_ok_iff, isLength_iff]

/-! ### Colors -/

theorem withoutFinalNewline_eq_iff {s t : List Char} (ht : t.getLast? ≠ some '\n') :
    Text.withoutFinalNewline s = t ↔ s = t ∨ s = t ++ ['\n'] := by
  unfold Text.withoutFinalNewline
  split
  · rename_i hlast
    have hs := List.dropLast_append_getLast? '\n' hlast
    constructor
    · rintro rfl
      exact .inr hs.symm
    · rintro (rfl | rfl)
      · exact absurd hlast ht
      · exact List.dropLast_concat
  · rename_i hlast
    refine ⟨.inl, ?_⟩
    rintro (rfl | rfl)
    · rfl
    · exact absurd List.getLast?_concat hlast

theorem HexColor.getLast?_ne (h : HexColor s) : s.getLast? ≠ some '\n' := by
  obtain ⟨ds, rfl, -, hds⟩ := h
  intro hlast
  rcases List.mem_cons.1 (List.mem_of_getLast? hlast) with hmark | hmem
  · exact absurd hmark (by decide)
  · exact absurd (hds _ hmem) (by decide)

theorem isHexColor_iff : isHexColor s ↔ HexColorLine s := by
  have hform : isHexColor s ↔ HexColor (Text.withoutFinalNewline s) := by
    unfold isHexColor HexColor
    split
    · rename_i ds hds
      simp only [hds, Bool.and_eq_true, Bool.or_eq_true, beq_iff_eq, List.all_eq_true,
        mem_hexDigits_iff, List.cons.injEq, true_and, exists_eq_left']
    · rename_i hmark
      constructor
      · nofun
      · rintro ⟨ds, hds, -⟩
        exact absurd hds (hmark ds)
  rw [hform]
  constructor
  · intro h
    rcases (withoutFinalNewline_eq_iff h.getLast?_ne).1 rfl with hs | hs
    · exact .inl (hs ▸ h)
    · exact .inr ⟨_, hs, h⟩
  · rintro (h | ⟨t, hs, h⟩)
    · rwa [(withoutFinalNewline_eq_iff h.getLast?_ne).2 (.inl rfl)]
    · rwa [(withoutFinalNewline_eq_iff h.getLast?_ne).2 (.inr hs)]

theorem not_hexColor_line {t : List Char} : ¬HexColor (t ++ ['\n']) :=
  fun h => h.getLast?_ne List.getLast?_concat

/-- Colors are given back, also with a line feed behind them, and every other value is reported
under its path. So exactly the colors are recognized, unless the value is one with a line feed. -/
theorem hexColors_recognized (v : Value) (path : String) :
    Recognizes checkHexColor HexColorLine v path ∧
      (Recognizes checkHexColor HexColor v path ↔
        ¬∃ s t, v = .text s ∧ s.toList = t ++ ['\n'] ∧ HexColor t) := by
  have hlines : Recognizes checkHexColor HexColorLine v path := by
    refine .intro (fun s => ?_) fun e => field_of_checkHexColor
    rw [checkHexColor_eq_ok_iff, isHexColor_iff]
  refine ⟨hlines, hlines.iff_agree.trans ?_⟩
  constructor
  · rintro hagree ⟨s, t, hv, hs, ht⟩
    have hcolor := (hagree s hv).1 (.inr ⟨t, hs, ht⟩)
    rw [hs] at hcolor
    exact not_hexColor_line hcolor
  · intro hnone s hv
    refine ⟨?_, .inl⟩
    rintro (hcolor | ⟨t, hs, ht⟩)
    · exact hcolor
    · exact absurd ⟨s, t, hv, hs, ht⟩ hnone

/-- The line feed behind a color is given back with it. -/
theorem not_hexColors_recognized : ¬∀ v path, Recognizes checkHexColor HexColor v path := by
  intro h
  have hchecked : checkHexColor (.text "#fff\n") "color.a.b.dark" = .ok "#fff\n" :=
    checkHexColor_eq_ok_iff.2 ⟨rfl, by decide⟩
  obtain ⟨-, hcolor⟩ := ((h _ _).1 _).1 hchecked
  exact hcolor.getLast?_ne (by decide)

end DesignTokens.Plan
