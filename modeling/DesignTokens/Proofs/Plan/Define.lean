import DesignTokens.Proofs.Plan.Problem
import DesignTokens.Proofs.Plan.Variables
import DesignTokens.Proofs.Text.Blank
import DesignTokens.Proofs.Text.Search

/-!
# Defined plans

The data that is a plan is described apart from the check (`WellFormed`), and so are the plans that
can be defined (`Valid`). A plan is defined from data exactly if the data is well-formed and its
keys have texts, and it can be defined again from what it is as data (`define_reports`). A key
without a text, an integer with too many digits, stops the check of data that is otherwise
well-formed (`not_define_reports`).
-/

namespace DesignTokens.Plan

variable {α : Type} {es : Entries} {v w : Value} {p : Plan} {path s : String} {c : Char}

/-! ### Lengths and colors -/

theorem checkText_eq_ok_iff : checkText v path = .ok s ↔ v = .text s ∧ s.isEmpty = false := by
  unfold checkText
  constructor
  · intro h
    split at h
    · rename_i t
      cases ht : t.isEmpty with
      | false =>
        rw [ht] at h
        cases h
        exact ⟨rfl, ht⟩
      | true =>
        rw [ht] at h
        cases h
    · cases h
  · rintro ⟨rfl, hs⟩
    simp [hs]

theorem not_mem_of_dropWhile {t : List Char} (hdigit : Text.isAsciiDigit c = false)
    (h : c ∉ t.dropWhile Text.isAsciiDigit) : c ∉ t := by
  rw [← List.takeWhile_append_dropWhile (p := Text.isAsciiDigit) (l := t), List.mem_append]
  rintro (hmem | hmem)
  · rw [List.all_eq_true.1 List.all_takeWhile c hmem] at hdigit
    cases hdigit
  · exact h hmem

/-- A length has only digits, a point, and the characters of its unit. -/
theorem not_mem_of_isLength {t : List Char} (h : isLength t) (hdigit : Text.isAsciiDigit c = false)
    (hpoint : c ≠ '.') (hunits : ∀ u ∈ units, c ∉ u.toList) : c ∉ t := by
  have hunit {r : List Char} (hr : units.contains (String.ofList r)) : c ∉ r := by
    have hmem := hunits _ (List.contains_iff_mem.1 hr)
    rwa [String.toList_ofList] at hmem
  have hend {r : List Char} (hr : endsLength r) : c ∉ r := by
    unfold endsLength at hr
    split at hr
    · rw [Bool.and_eq_true] at hr
      rw [List.mem_cons, not_or]
      exact ⟨hpoint, not_mem_of_dropWhile hdigit (hunit hr.2)⟩
    · exact hunit hr
  rw [isLength, Bool.or_eq_true, Bool.and_eq_true, beq_iff_eq] at h
  rcases h with rfl | ⟨-, h⟩
  · rintro (_ | ⟨_, ⟨⟩⟩)
    cases hdigit
  · exact not_mem_of_dropWhile hdigit (hend h)

theorem not_blank_of_isLength {t : List Char} (h : isLength t) (hc : c ∈ t) :
    Text.isBlank c = false := by
  by_contra hblank
  rw [Bool.not_eq_false] at hblank
  refine not_mem_of_isLength h ?_ ?_ ?_ hc
  · by_contra hdigit
    rw [Bool.not_eq_false] at hdigit
    rw [Text.isBlank_of_isAsciiDigit hdigit] at hblank
    cases hblank
  · rintro rfl
    cases hblank
  · intro u hu hmem
    have hunits : (units.all fun u => u.toList.all (!Text.isBlank ·)) = true := by decide
    simp only [List.all_eq_true, Bool.not_eq_true'] at hunits
    rw [hunits u hu c hmem] at hblank
    cases hblank

/-- Lengths have no blanks, so looking for blanks first changes only what is reported. -/
theorem checkLength_eq_ok_iff :
    checkLength v path = .ok s ↔ v = .text s ∧ isLength s.toList := by
  constructor
  · intro h
    obtain ⟨t, ht, h⟩ := ok_of_bind h
    split at h
    · cases h
    · split at h
      · rename_i hlength
        cases h
        exact ⟨(checkText_eq_ok_iff.1 ht).1, hlength⟩
      · cases h
  · rintro ⟨rfl, hs⟩
    have hempty : s.isEmpty = false := by
      rw [← Bool.not_eq_true, String.isEmpty_iff]
      rintro rfl
      exact absurd hs (by decide)
    have hblank : s.toList.any Text.isBlank = false := by
      rw [List.any_eq_false]
      intro c hc
      rw [not_blank_of_isLength hs hc]
      exact Bool.false_ne_true
    rw [checkLength, checkText_eq_ok_iff.2 ⟨rfl, hempty⟩]
    show (if s.toList.any Text.isBlank = true then _ else _) = _
    rw [hblank, if_neg Bool.false_ne_true, if_pos hs]

/-- A color has only its mark and hexadecimal digits, and perhaps a line feed at its end. -/
theorem not_mem_of_isHexColor {t : List Char} (h : isHexColor t)
    (hdigit : Text.isHexDigit c = false) (hmark : c ≠ '#') (hbreak : c ≠ '\n') : c ∉ t := by
  intro hc
  have hmem := (Text.mem_withoutFinalNewline hc).resolve_right hbreak
  unfold isHexColor at h
  split at h
  · rename_i ds hds
    rw [Bool.and_eq_true, List.all_eq_true] at h
    rw [hds, List.mem_cons] at hmem
    rw [h.2 c (hmem.resolve_left hmark)] at hdigit
    cases hdigit
  · cases h

theorem checkHexColor_eq_ok_iff :
    checkHexColor v path = .ok s ↔ v = .text s ∧ isHexColor s.toList := by
  constructor
  · intro h
    obtain ⟨t, ht, h⟩ := ok_of_bind h
    split at h
    · rename_i hcolor
      cases h
      exact ⟨(checkText_eq_ok_iff.1 ht).1, hcolor⟩
    · cases h
  · rintro ⟨rfl, hs⟩
    have hempty : s.isEmpty = false := by
      rw [← Bool.not_eq_true, String.isEmpty_iff]
      rintro rfl
      exact absurd hs (by decide)
    rw [checkHexColor, checkText_eq_ok_iff.2 ⟨rfl, hempty⟩]
    exact if_pos hs

/-! ### Well-formed data -/

/-- The check of lengths accepts the value, whatever its path. -/
def LengthValue (v : Value) : Prop := ∃ s, ∀ path, checkLength v path = .ok s

def HexColorValue (v : Value) : Prop := ∃ s, ∀ path, checkHexColor v path = .ok s

/-- A map with a dark and a light color; what else it holds does not matter. -/
def ColorPairValue (v : Value) : Prop :=
  ∃ es dark light, v = .map es ∧ Entries.getText? es "dark" = some dark ∧
    Entries.getText? es "light" = some light ∧ HexColorValue dark ∧ HexColorValue light

/-- A map whose values meet the condition. -/
def MapOf (q : Value → Prop) (v : Value) : Prop := ∃ es, v = .map es ∧ ∀ e ∈ es, q e.2

/-- A map with the keys of the three groups and no others, each with a group of its kind. -/
def WellFormed (v : Value) : Prop :=
  ∃ es space radius color, v = .map es ∧ (∀ e ∈ es, ∃ group ∈ groups, e.1 = .text group) ∧
    Entries.getText? es "space" = some space ∧ Entries.getText? es "radius" = some radius ∧
    Entries.getText? es "color" = some color ∧ MapOf LengthValue space ∧
    MapOf LengthValue radius ∧ MapOf (MapOf ColorPairValue) color

/-- The keys of groups, of tokens and groups of colors, and of tokens of colors have texts. -/
def Written (v : Value) : Prop := ∀ k ∈ keys 3 v, HasText k

theorem lengthValue_iff : LengthValue v ↔ ∃ s, v = .text s ∧ isLength s.toList := by
  simp only [LengthValue, checkLength_eq_ok_iff, forall_const]

theorem hexColorValue_iff : HexColorValue v ↔ ∃ s, v = .text s ∧ isHexColor s.toList := by
  simp only [HexColorValue, checkHexColor_eq_ok_iff, forall_const]

/-! ### Plans that can be defined -/

structure ValidPair (c : ColorPair) : Prop where
  dark : isHexColor c.dark.toList
  light : isHexColor c.light.toList

instance (c : ColorPair) : Decidable (ValidPair c) :=
  decidable_of_iff (isHexColor c.dark.toList ∧ isHexColor c.light.toList)
    ⟨fun h => ⟨h.1, h.2⟩, fun h => ⟨h.dark, h.light⟩⟩

structure Valid (p : Plan) : Prop where
  distinct : p.Distinct
  space : ∀ e ∈ p.space, isLength e.2.toList
  radius : ∀ e ∈ p.radius, isLength e.2.toList
  color : ∀ g ∈ p.color, ∀ e ∈ g.2, ValidPair e.2

/-! ### Checked entries -/

section

variable {check : String → Value → Except PlanError α} {t : Table α}

theorem checkEntries_eq_ok_iff : checkEntries check es = .ok t ↔
    ∃ checked, List.Forall₂
      (fun e c => keyText e.1 = .ok c.1 ∧ check c.1 e.2 = .ok c.2) es checked ∧
        t = Table.ofList checked := by
  have hentry (e : Value × Value) (c : String × α) :
      (do let key ← keyText e.1; return (key, ← check key e.2)) = Except.ok c ↔
        keyText e.1 = .ok c.1 ∧ check c.1 e.2 = .ok c.2 := by
    constructor
    · intro h
      obtain ⟨key, hkey, h⟩ := ok_of_bind h
      obtain ⟨a, ha, h⟩ := ok_of_bind h
      cases h
      exact ⟨hkey, ha⟩
    · rintro ⟨hkey, ha⟩
      rw [hkey]
      show (check c.1 e.2 >>= fun a => pure (c.1, a)) = _
      rw [ha]
      rfl
  simp only [← hentry, ← mapM_eq_ok_iff]
  constructor
  · intro h
    obtain ⟨checked, hchecked, h⟩ := ok_of_bind h
    cases h
    exact ⟨checked, hchecked, rfl⟩
  · rintro ⟨checked, hchecked, rfl⟩
    rw [checkEntries, hchecked]
    rfl

/-- What the check says of values and results holds of all entries. -/
theorem of_checkEntries {q : Value → Prop} {r : α → Prop} (h : checkEntries check es = .ok t)
    (hcheck : ∀ key w a, check key w = .ok a → q w ∧ r a) :
    (∀ e ∈ es, q e.2) ∧ t.Distinct ∧ ∀ e ∈ t, r e.2 := by
  obtain ⟨checked, hchecked, rfl⟩ := checkEntries_eq_ok_iff.1 h
  refine ⟨fun e he => ?_, Table.ofList_distinct checked, fun c hc => ?_⟩
  · obtain ⟨c, -, -, hc⟩ := exists_of_forall₂ hchecked e he
    exact (hcheck _ _ _ hc).1
  · obtain ⟨e, -, -, hc⟩ := exists_of_forall₂ hchecked.flip c (Table.mem_of_mem_ofList hc)
    exact (hcheck _ _ _ hc).2

theorem exists_checkEntries (hkeys : ∀ e ∈ es, HasText e.1)
    (hcheck : ∀ e ∈ es, ∀ key, ∃ a, check key e.2 = .ok a) :
    ∃ t, checkEntries check es = .ok t := by
  have hentries : ∀ e ∈ es, ∃ c : String × α,
      keyText e.1 = .ok c.1 ∧ check c.1 e.2 = .ok c.2 := by
    intro e he
    obtain ⟨a, ha⟩ := hcheck e he e.1.shown
    exact ⟨(e.1.shown, a), keyText_of_hasText (hkeys e he), ha⟩
  obtain ⟨checked, hchecked⟩ := exists_forall₂ hentries
  exact ⟨_, checkEntries_eq_ok_iff.2 ⟨checked, hchecked, rfl⟩⟩

/-- A table is checked to itself if each of its entries is. -/
theorem checkEntries_table {f : α → Value} (ht : t.Distinct)
    (h : ∀ e ∈ t, check e.1 (f e.2) = .ok e.2) :
    checkEntries check (t.map fun e => (.text e.1, f e.2)) = .ok t := by
  refine checkEntries_eq_ok_iff.2 ⟨t, ?_, (Table.ofList_eq_self ht).symm⟩
  rw [List.forall₂_map_left_iff, List.forall₂_same]
  exact fun e he => ⟨rfl, h e he⟩

end

/-! ### Checked groups -/

section

variable {t : Table String} {c : ColorPair} {cs : Table ColorPair} {gs : Table (Table ColorPair)}

theorem of_checkLengths {group : String} (h : checkLengths group v = .ok t) :
    MapOf LengthValue v ∧ t.Distinct ∧ ∀ e ∈ t, isLength e.2.toList := by
  unfold checkLengths at h
  split at h
  · rename_i es
    obtain ⟨hvalues, ht⟩ := of_checkEntries h fun key w s hs => by
      obtain ⟨rfl, hlength⟩ := checkLength_eq_ok_iff.1 hs
      exact ⟨lengthValue_iff.2 ⟨s, rfl, hlength⟩, hlength⟩
    exact ⟨⟨es, rfl, hvalues⟩, ht⟩
  · cases h

theorem checkColorPair_eq_ok_iff : checkColorPair path v = .ok c ↔
    ∃ es, v = .map es ∧ Entries.getText? es "dark" = some (.text c.dark) ∧
      Entries.getText? es "light" = some (.text c.light) ∧ ValidPair c := by
  constructor
  · intro h
    unfold checkColorPair at h
    split at h
    · rename_i es
      split at h
      · cases h
      · cases h
      · rename_i hdark hlight
        obtain ⟨d, hd, h⟩ := ok_of_bind h
        obtain ⟨l, hl, h⟩ := ok_of_bind h
        cases h
        obtain ⟨rfl, hdcolor⟩ := checkHexColor_eq_ok_iff.1 hd
        obtain ⟨rfl, hlcolor⟩ := checkHexColor_eq_ok_iff.1 hl
        exact ⟨es, rfl, hdark, hlight, hdcolor, hlcolor⟩
    · cases h
  · rintro ⟨es, rfl, hdark, hlight, hc⟩
    unfold checkColorPair
    dsimp only
    rw [hdark, hlight]
    dsimp only
    rw [checkHexColor_eq_ok_iff.2 ⟨rfl, hc.dark⟩, checkHexColor_eq_ok_iff.2 ⟨rfl, hc.light⟩]
    rfl

theorem colorPairValue_iff : ColorPairValue v ↔ ∃ c, checkColorPair path v = .ok c := by
  simp only [ColorPairValue, hexColorValue_iff, checkColorPair_eq_ok_iff]
  constructor
  · rintro ⟨es, _, _, rfl, hdark, hlight, ⟨d, rfl, hd⟩, ⟨l, rfl, hl⟩⟩
    exact ⟨⟨d, l⟩, es, rfl, hdark, hlight, hd, hl⟩
  · rintro ⟨c, es, rfl, hdark, hlight, hc⟩
    exact ⟨es, _, _, rfl, hdark, hlight, ⟨_, rfl, hc.dark⟩, ⟨_, rfl, hc.light⟩⟩

theorem of_checkColorTokens (h : checkColorTokens path v = .ok cs) :
    MapOf ColorPairValue v ∧ cs.Distinct ∧ ∀ e ∈ cs, ValidPair e.2 := by
  unfold checkColorTokens at h
  split at h
  · rename_i es
    obtain ⟨hvalues, hcs⟩ := of_checkEntries h fun key w c hc => by
      obtain ⟨-, -, -, -, hvalid⟩ := checkColorPair_eq_ok_iff.1 hc
      exact ⟨colorPairValue_iff.2 ⟨c, hc⟩, hvalid⟩
    exact ⟨⟨es, rfl, hvalues⟩, hcs⟩
  · cases h

theorem of_checkColors (h : checkColors v = .ok gs) :
    MapOf (MapOf ColorPairValue) v ∧ gs.Distinct ∧
      ∀ g ∈ gs, g.2.Distinct ∧ ∀ e ∈ g.2, ValidPair e.2 := by
  unfold checkColors at h
  split at h
  · rename_i es
    obtain ⟨hvalues, hgs⟩ := of_checkEntries h fun group w cs hcs => of_checkColorTokens hcs
    exact ⟨⟨es, rfl, hvalues⟩, hgs⟩
  · cases h

theorem exists_checkLengths (h : MapOf LengthValue v) (hkeys : ∀ k ∈ keys 1 v, HasText k)
    (group : String) : ∃ t, checkLengths group v = .ok t := by
  obtain ⟨es, rfl, hvalues⟩ := h
  rw [checkLengths]
  refine exists_checkEntries (fun e he => (forall_keys_map.1 hkeys e he).1) fun e he key => ?_
  obtain ⟨s, hs⟩ := hvalues e he
  exact ⟨s, hs _⟩

theorem exists_checkColorTokens (h : MapOf ColorPairValue v) (hkeys : ∀ k ∈ keys 1 v, HasText k)
    (path : String) : ∃ cs, checkColorTokens path v = .ok cs := by
  obtain ⟨es, rfl, hvalues⟩ := h
  refine exists_checkEntries (fun e he => (forall_keys_map.1 hkeys e he).1) fun e he key => ?_
  exact colorPairValue_iff.1 (hvalues e he)

theorem exists_checkColors (h : MapOf (MapOf ColorPairValue) v)
    (hkeys : ∀ k ∈ keys 2 v, HasText k) : ∃ gs, checkColors v = .ok gs := by
  obtain ⟨es, rfl, hvalues⟩ := h
  refine exists_checkEntries (fun e he => (forall_keys_map.1 hkeys e he).1) fun e he group => ?_
  exact exists_checkColorTokens (hvalues e he) (forall_keys_map.1 hkeys e he).2 _

theorem checkLengths_lengthsValue (ht : t.Distinct) (h : ∀ e ∈ t, isLength e.2.toList)
    (group : String) : checkLengths group (lengthsValue t) = .ok t := by
  rw [lengthsValue, checkLengths]
  exact checkEntries_table ht fun e he => checkLength_eq_ok_iff.2 ⟨rfl, h e he⟩

theorem checkColorPair_toValue (h : ValidPair c) :
    checkColorPair path (ColorPair.toValue c) = .ok c := by
  refine checkColorPair_eq_ok_iff.2 ⟨_, rfl, Entries.getText?_cons_self .., ?_, h⟩
  rw [Entries.getText?_cons_of_ne (by simp)]
  exact Entries.getText?_cons_self ..

def colorTokensValue (cs : Table ColorPair) : Value :=
  .map (cs.map fun e => (.text e.1, ColorPair.toValue e.2))

theorem checkColorTokens_value (hcs : cs.Distinct) (h : ∀ e ∈ cs, ValidPair e.2) (path : String) :
    checkColorTokens path (colorTokensValue cs) = .ok cs := by
  rw [colorTokensValue, checkColorTokens]
  exact checkEntries_table hcs fun e he => checkColorPair_toValue (h e he)

theorem checkColors_value (hgs : gs.Distinct)
    (h : ∀ g ∈ gs, g.2.Distinct ∧ ∀ e ∈ g.2, ValidPair e.2) :
    checkColors (.map (gs.map fun g => (.text g.1, colorTokensValue g.2))) = .ok gs := by
  rw [checkColors]
  refine checkEntries_table (f := colorTokensValue) hgs fun g hg => ?_
  exact checkColorTokens_value (h g hg).1 (h g hg).2 _

end

/-! ### Defined plans -/

theorem isGroup_iff {k : Value} : isGroup k ↔ ∃ group ∈ groups, k = .text group := by
  simp only [isGroup, List.any_eq_true, Value.same_text]

theorem define_eq_ok_iff : define v = .ok p ↔ ∃ es space radius color, v = .map es ∧
    (∀ e ∈ es, ∃ group ∈ groups, e.1 = .text group) ∧
    Entries.getText? es "space" = some space ∧ Entries.getText? es "radius" = some radius ∧
    Entries.getText? es "color" = some color ∧ checkLengths "space" space = .ok p.space ∧
    checkLengths "radius" radius = .ok p.radius ∧ checkColors color = .ok p.color := by
  constructor
  · intro h
    unfold define at h
    split at h
    · rename_i es
      cases hunknown : es.find? fun e => !isGroup e.1 with
      | some e =>
        rw [hunknown] at h
        obtain ⟨key, -, h⟩ := ok_of_bind h
        cases h
      | none =>
        rw [hunknown] at h
        obtain ⟨space, hspace, h⟩ := ok_of_bind h
        obtain ⟨radius, hradius, h⟩ := ok_of_bind h
        obtain ⟨color, hcolor, h⟩ := ok_of_bind h
        obtain ⟨s, hs, h⟩ := ok_of_bind h
        obtain ⟨r, hr, h⟩ := ok_of_bind h
        obtain ⟨c, hc, h⟩ := ok_of_bind h
        cases h
        refine ⟨es, space, radius, color, rfl, fun e he => ?_, requireGroup_eq_ok_iff.1 hspace,
          requireGroup_eq_ok_iff.1 hradius, requireGroup_eq_ok_iff.1 hcolor, hs, hr, hc⟩
        exact isGroup_iff.1 (by simpa using List.find?_eq_none.1 hunknown e he)
    · cases h
  · rintro ⟨es, space, radius, color, rfl, hknown, hspace, hradius, hcolor, hs, hr, hc⟩
    have hfind : (es.find? fun e => !isGroup e.1) = none := by
      rw [List.find?_eq_none]
      intro e he
      rw [isGroup_iff.2 (hknown e he)]
      exact Bool.false_ne_true
    unfold define
    dsimp only
    rw [hfind, requireGroup_eq_ok_iff.2 hspace, requireGroup_eq_ok_iff.2 hradius,
      requireGroup_eq_ok_iff.2 hcolor]
    show (checkLengths "space" space >>= fun s => checkLengths "radius" radius >>= fun r =>
      checkColors color >>= fun c => pure (Plan.mk s r c)) = .ok p
    rw [hs, hr, hc]
    rfl

theorem of_define (h : define v = .ok p) : WellFormed v ∧ p.Valid := by
  obtain ⟨es, space, radius, color, rfl, hknown, hspace, hradius, hcolor, hs, hr, hc⟩ :=
    define_eq_ok_iff.1 h
  obtain ⟨hspaces, hsdistinct, hslengths⟩ := of_checkLengths hs
  obtain ⟨hradii, hrdistinct, hrlengths⟩ := of_checkLengths hr
  obtain ⟨hcolors, hcdistinct, hpairs⟩ := of_checkColors hc
  constructor
  · exact ⟨es, space, radius, color, rfl, hknown, hspace, hradius, hcolor, hspaces, hradii, hcolors⟩
  · exact ⟨⟨hsdistinct, hrdistinct, hcdistinct, fun g hg => (hpairs g hg).1⟩, hslengths, hrlengths,
      fun g hg => (hpairs g hg).2⟩

theorem exists_define (h : WellFormed v) (hv : Written v) : ∃ p, define v = .ok p := by
  obtain ⟨es, space, radius, color, rfl, hknown, hspace, hradius, hcolor, hspaces, hradii,
    hcolors⟩ := h
  have hkeys {group : String} {w : Value} (hw : Entries.getText? es group = some w) :
      ∀ k ∈ keys 2 w, HasText k := by
    obtain ⟨e, he, rfl⟩ := Option.map_eq_some_iff.1 hw
    exact (forall_keys_map.1 hv e (List.mem_of_find?_eq_some he)).2
  obtain ⟨s, hs⟩ :=
    exists_checkLengths hspaces (fun k hk => hkeys hspace k (mem_keys_succ hk)) "space"
  obtain ⟨r, hr⟩ :=
    exists_checkLengths hradii (fun k hk => hkeys hradius k (mem_keys_succ hk)) "radius"
  obtain ⟨c, hc⟩ := exists_checkColors hcolors (hkeys hcolor)
  exact ⟨⟨s, r, c⟩, define_eq_ok_iff.2
    ⟨es, space, radius, color, rfl, hknown, hspace, hradius, hcolor, hs, hr, hc⟩⟩

/-- A plan that can be defined is defined again from what it is as data. -/
theorem define_toValue (h : p.Valid) : define p.toValue = .ok p := by
  refine define_eq_ok_iff.2 ⟨_, _, _, _, rfl, ?_, rfl, rfl, rfl,
    checkLengths_lengthsValue h.distinct.space h.space _,
    checkLengths_lengthsValue h.distinct.radius h.radius _,
    checkColors_value h.distinct.color fun g hg => ⟨h.distinct.tokens g hg, h.color g hg⟩⟩
  simp [groups]

/-- Plans are defined from well-formed data, and from it alone. Otherwise the first problem is
reported, unless a key has no text. -/
theorem define_reports (v : Value) :
    (∀ p, define v = .ok p → WellFormed v ∧ define p.toValue = .ok p) ∧
      (∀ e, define v = .error e ↔ (problems v).head? = some e) ∧
      (Written v → ((∃ p, define v = .ok p) ↔ WellFormed v) ∧
        ∀ e, define v = .error e → IsReported e) := by
  refine ⟨fun p hp => ?_, fun e => (define_problems v).error_iff, fun hv => ⟨?_, fun e he => ?_⟩⟩
  · obtain ⟨hwellFormed, hvalid⟩ := of_define hp
    exact ⟨hwellFormed, define_toValue hvalid⟩
  · constructor
    · rintro ⟨p, hp⟩
      exact (of_define hp).1
    · exact fun h => exists_define h hv
  · have hhead := (define_problems v).error_iff.1 he
    exact forall_isReported_problems hv e (List.mem_of_head? hhead)

/-! ### Data with a single length -/

/-- The data of a plan with one length, under the key. -/
def spaced (k : Value) : Value :=
  .map [(.text "space", .map [(k, .text "1rem")]), (.text "radius", .map []),
    (.text "color", .map [])]

theorem wellFormed_spaced (k : Value) : WellFormed (spaced k) := by
  refine ⟨_, _, _, _, rfl, by simp [groups], rfl, rfl, rfl, ⟨_, rfl, ?_⟩, ⟨_, rfl, nofun⟩,
    ⟨_, rfl, nofun⟩⟩
  exact List.forall_mem_singleton.2 (lengthValue_iff.2 ⟨"1rem", rfl, by decide⟩)

theorem define_spaced_of_error {k : Value} {e : PlanError} (h : keyText k = .error e) :
    define (spaced k) = .error e := by
  have hproblems : problems (spaced k) =
      (named (fun key => errorsOf (checkLength (.text "1rem") ("space" ++ "." ++ key))) k ++ []) ++
        [] := rfl
  rw [(define_problems _).error_iff, hproblems, named, h]
  rfl

/-- A number names a length. -/
theorem define_reports_number : Written (spaced (.int 2)) ∧ WellFormed (spaced (.int 2)) ∧
    ∃ p, define (spaced (.int 2)) = .ok p ∧ define p.toValue = .ok p := by
  have hwritten : Written (spaced (.int 2)) := by
    have htext (s : String) : HasText (.text s) := nofun
    have hnumber : HasText (.int 2) := by
      rintro n ⟨⟩
      have hpow (d : Nat) (hd : 1 ≤ d) : 10 ≤ Nat.pow 10 d :=
        Nat.pow_le_pow_right (Nat.succ_pos 9) hd
      have hbound : 10 ≤ Decimal.digitBound := by
        unfold Decimal.digitBound
        exact hpow Decimal.digitLimit (by decide)
      omega
    simp [Written, spaced, keys, htext, hnumber]
  obtain ⟨hdefined, -, hreports⟩ := define_reports (spaced (.int 2))
  obtain ⟨p, hp⟩ := (hreports hwritten).1.2 (wellFormed_spaced _)
  exact ⟨hwritten, wellFormed_spaced _, p, hp, (hdefined p hp).2⟩

/-- An integer with one digit more than are written is the key of a length. -/
theorem not_define_reports : ¬∀ v, ((∃ p, define v = .ok p) ↔ WellFormed v) ∧
    ∀ e, define v = .error e → IsReported e := by
  intro h
  have hdigits : Decimal.digitBound ≤ (Decimal.digitBound : Int).natAbs :=
    Nat.le_of_eq (Int.natAbs_natCast _).symm
  exact (h (spaced (.int Decimal.digitBound))).2 _
    (define_spaced_of_error (keyText_of_le_natAbs hdigits))

end DesignTokens.Plan
