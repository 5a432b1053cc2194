import DesignTokens.Proofs.Plan.Define

/-!
# Keys of a plan

A plan holds what its data says under the texts of the keys. Keys that differ may have one text, as
`1` and `"1"` do, and then the last entry stands for all of them (`HoldsLast`): an entry is held
exactly if the last one with its text says the same (`define_keeps`). A group of colors is lost with
all its tokens when a later group has its text (`not_define_keeps`).
-/

namespace DesignTokens.Plan

variable {α : Type} {p : Plan} {v w : Value} {es ts space radius color : Entries} {k s path : String}
  {c c' : ColorPair}

/-! ### Entries under the texts of their keys -/

/-- The value of the last entry whose key has the text. -/
def lastShown? (es : Entries) (k : String) : Option Value :=
  Table.last? (es.map fun e => (e.1.shown, e.2)) k

/-- No two keys have one text. -/
def DistinctTexts (es : Entries) : Prop := (es.map (·.1.shown)).Nodup

instance (es : Entries) : Decidable (DistinctTexts es) :=
  inferInstanceAs (Decidable (es.map (·.1.shown)).Nodup)

theorem lastShown?_of_distinct (h : DistinctTexts es) {e : Value × Value} (he : e ∈ es) :
    lastShown? es e.1.shown = some e.2 := by
  refine Table.last?_eq_some (e := (e.1.shown, e.2)) (List.mem_map.2 ⟨e, he, rfl⟩) ?_
  intro d hd hname
  obtain ⟨e', he', rfl⟩ := List.mem_map.1 hd
  rw [List.inj_on_of_nodup_map h he' he hname]

theorem mem_of_lastShown? (h : lastShown? es k = some w) :
    ∃ e ∈ es, e.1.shown = k ∧ e.2 = w := by
  obtain ⟨d, hd, rfl⟩ := Option.map_eq_some_iff.1 h
  obtain ⟨e, he, rfl⟩ := List.mem_map.1 (List.mem_reverse.1 (List.mem_of_find?_eq_some hd))
  exact ⟨e, he, by simpa using List.find?_some hd, rfl⟩

theorem exists_lastShown? {e : Value × Value} (he : e ∈ es) :
    ∃ e' ∈ es, lastShown? es e.1.shown = some e'.2 := by
  cases hlast : lastShown? es e.1.shown with
  | some w =>
    obtain ⟨e', he', -, rfl⟩ := mem_of_lastShown? hlast
    exact ⟨e', he', rfl⟩
  | none =>
    rw [lastShown?, Table.last?, Option.map_eq_none_iff, List.find?_eq_none] at hlast
    have hne := hlast _ (List.mem_reverse.2 (List.mem_map.2 ⟨e, he, rfl⟩))
    simp at hne

theorem eq_shown_of_keyText {key : Value} (h : keyText key = .ok k) : k = key.shown := by
  unfold keyText at h
  split at h
  · split at h
    · cases h
    · cases h
      rfl
  · cases h
    rfl

theorem find?_of_forall₂ {check : String → Value → Except PlanError α}
    {checked : List (String × α)} (h : List.Forall₂
      (fun e c => keyText e.1 = .ok c.1 ∧ check c.1 e.2 = .ok c.2) es checked) (k : String) :
    (es.find? (·.1.shown == k) = none ∧ checked.find? (·.1 == k) = none) ∨
      ∃ e c, es.find? (·.1.shown == k) = some e ∧ checked.find? (·.1 == k) = some c ∧
        check k e.2 = .ok c.2 := by
  induction h with
  | nil => exact .inl ⟨rfl, rfl⟩
  | @cons e c es checked hec _ ih =>
    have hname := eq_shown_of_keyText hec.1
    by_cases hk : c.1 = k
    · have hshown : e.1.shown = k := hname ▸ hk
      exact .inr ⟨e, c, List.find?_cons_of_pos (by simpa using hshown),
        List.find?_cons_of_pos (by simpa using hk), hk ▸ hec.2⟩
    · have hshown : ¬e.1.shown = k := hname ▸ hk
      rw [List.find?_cons_of_neg (by simpa using hshown),
        List.find?_cons_of_neg (by simpa using hk)]
      exact ih

/-- Under each text the checked table holds what the check makes of the last value. -/
theorem get?_checkEntries {check : String → Value → Except PlanError α} {t : Table α}
    (h : checkEntries check es = .ok t) (k : String) :
    (lastShown? es k = none ∧ t.get? k = none) ∨
      ∃ w a, lastShown? es k = some w ∧ t.get? k = some a ∧ check k w = .ok a := by
  obtain ⟨checked, hchecked, rfl⟩ := checkEntries_eq_ok_iff.1 h
  have hlast : lastShown? es k = (es.reverse.find? (·.1.shown == k)).map (·.2) := by
    rw [lastShown?, Table.last?, ← List.map_reverse, List.find?_map, Option.map_map]
    rfl
  rw [Table.get?_ofList, hlast, Table.last?]
  rcases find?_of_forall₂ (List.rel_reverse hchecked) k with ⟨hes, ht⟩ | ⟨e, c, hes, ht, hcheck⟩
  · rw [hes, ht]
    exact .inl ⟨rfl, rfl⟩
  · rw [hes, ht]
    exact .inr ⟨e.2, c.2, rfl, rfl, hcheck⟩

/-- If the check makes of a value just what `q` says of it, then so does the table. -/
theorem get?_checkEntries_iff {check : String → Value → Except PlanError α} {t : Table α}
    {q : Value → α → Prop} (h : checkEntries check es = .ok t)
    (hq : ∀ k w a, check k w = .ok a → ∀ a', q w a' ↔ a = a') (k : String) (a : α) :
    t.get? k = some a ↔ ∃ w, lastShown? es k = some w ∧ q w a := by
  rcases get?_checkEntries h k with ⟨hes, ht⟩ | ⟨w, a', hes, ht, hcheck⟩
  · simp [hes, ht]
  · simp [hes, ht, hq k w a' hcheck]

/-! ### What is held -/

/-- The map has these colors. -/
def HasColors (v : Value) (c : ColorPair) : Prop :=
  ∃ es, v = .map es ∧ Entries.getText? es "dark" = some (.text c.dark) ∧
    Entries.getText? es "light" = some (.text c.light)

theorem HasColors.inj (h : HasColors v c) (h' : HasColors v c') : c = c' := by
  obtain ⟨es, rfl, hdark, hlight⟩ := h
  obtain ⟨_, ⟨⟩, hdark', hlight'⟩ := h'
  cases c
  cases c'
  simp_all

theorem hasColors_of_checkColorPair (h : checkColorPair path v = .ok c) : HasColors v c := by
  obtain ⟨es, hv, hdark, hlight, -⟩ := checkColorPair_eq_ok_iff.1 h
  exact ⟨es, hv, hdark, hlight⟩

/-- The color with a key in a group. -/
def color? (p : Plan) (group key : String) : Option ColorPair :=
  (p.color.get? group).bind (·.get? key)

/-- The data is a map, and its groups are maps with these entries. -/
def HasGroups (v : Value) (space radius color : Entries) : Prop :=
  ∃ es, v = .map es ∧ Entries.getText? es "space" = some (.map space) ∧
    Entries.getText? es "radius" = some (.map radius) ∧
    Entries.getText? es "color" = some (.map color)

/-- Under each text the plan holds what the last entry with this text says, and nothing else. -/
structure HoldsLast (p : Plan) (space radius color : Entries) : Prop where
  space : ∀ k s, p.space.get? k = some s ↔ lastShown? space k = some (.text s)
  radius : ∀ k s, p.radius.get? k = some s ↔ lastShown? radius k = some (.text s)
  color : ∀ g k c, p.color? g k = some c ↔ ∃ ts w, lastShown? color g = some (.map ts) ∧
    lastShown? ts k = some w ∧ HasColors w c

theorem get?_checkLengths {group : String} {t : Table String}
    (h : checkLengths group (.map es) = .ok t) (k s : String) :
    t.get? k = some s ↔ lastShown? es k = some (.text s) := by
  rw [checkLengths] at h
  rw [get?_checkEntries_iff (q := fun w s => w = .text s) h]
  · simp
  · intro key w a hcheck s
    rw [(checkLength_eq_ok_iff.1 hcheck).1, Value.text.injEq]

theorem get?_checkColorTokens {cs : Table ColorPair} (h : checkColorTokens path (.map ts) = .ok cs)
    (k : String) (c : ColorPair) :
    cs.get? k = some c ↔ ∃ w, lastShown? ts k = some w ∧ HasColors w c := by
  rw [checkColorTokens] at h
  refine get?_checkEntries_iff h (fun key w a hcheck c => ?_) k c
  have hcolors := hasColors_of_checkColorPair hcheck
  exact ⟨hcolors.inj, fun heq => heq ▸ hcolors⟩

theorem get?_checkColors {gs : Table (Table ColorPair)} (h : checkColors (.map es) = .ok gs)
    (g k : String) (c : ColorPair) : (gs.get? g).bind (·.get? k) = some c ↔
      ∃ ts w, lastShown? es g = some (.map ts) ∧ lastShown? ts k = some w ∧ HasColors w c := by
  rw [checkColors] at h
  rcases get?_checkEntries h g with ⟨hes, hgs⟩ | ⟨v, cs, hes, hgs, hcheck⟩
  · simp [hes, hgs]
  · obtain ⟨ts, rfl, -⟩ := (of_checkColorTokens hcheck).1
    simp [hes, hgs, get?_checkColorTokens hcheck]

/-! ### What is lost -/

/-- Every entry is held under the text of its key. -/
structure Holds (p : Plan) (space radius color : Entries) : Prop where
  space : ∀ e ∈ space, ∃ s, e.2 = .text s ∧ p.space.get? e.1.shown = some s
  radius : ∀ e ∈ radius, ∃ s, e.2 = .text s ∧ p.radius.get? e.1.shown = some s
  color : ∀ g ∈ color, ∃ ts, g.2 = .map ts ∧
    ∀ e ∈ ts, ∃ c, HasColors e.2 c ∧ p.color? g.1.shown e.1.shown = some c

/-- Every entry agrees with the last one whose key has the same text: a length is the same, and the
tokens of a group have the same colors in the last group with its text. -/
structure Lasting (space radius color : Entries) : Prop where
  space : ∀ e ∈ space, lastShown? space e.1.shown = some e.2
  radius : ∀ e ∈ radius, lastShown? radius e.1.shown = some e.2
  color : ∀ g ∈ color, ∃ ts ts', g.2 = .map ts ∧ lastShown? color g.1.shown = some (.map ts') ∧
    ∀ e ∈ ts, ∃ w c, lastShown? ts' e.1.shown = some w ∧ HasColors e.2 c ∧ HasColors w c

/-- Lengths are texts, and groups of colors are maps of maps with colors. -/
structure Typed (space radius color : Entries) : Prop where
  space : ∀ e ∈ space, ∃ s, e.2 = .text s
  radius : ∀ e ∈ radius, ∃ s, e.2 = .text s
  color : ∀ g ∈ color, ∃ ts, g.2 = .map ts ∧ ∀ e ∈ ts, ∃ c, HasColors e.2 c

theorem text_of_lengthValue (h : LengthValue v) : ∃ s, v = .text s := by
  obtain ⟨s, hs, -⟩ := lengthValue_iff.1 h
  exact ⟨s, hs⟩

theorem colors_of_mapOf (h : MapOf ColorPairValue v) :
    ∃ ts, v = .map ts ∧ ∀ e ∈ ts, ∃ c, HasColors e.2 c := by
  obtain ⟨ts, hts, hvalues⟩ := h
  refine ⟨ts, hts, fun e he => ?_⟩
  obtain ⟨c, hc⟩ : ∃ c, checkColorPair "" e.2 = .ok c := colorPairValue_iff.1 (hvalues e he)
  exact ⟨c, hasColors_of_checkColorPair hc⟩

theorem holdsLast_of_define (h : define v = .ok p) : ∃ space radius color,
    HasGroups v space radius color ∧ Typed space radius color ∧ p.HoldsLast space radius color := by
  obtain ⟨es, _, _, _, rfl, -, hspace, hradius, hcolor, hs, hr, hc⟩ := define_eq_ok_iff.1 h
  obtain ⟨space, rfl, hspaces⟩ := (of_checkLengths hs).1
  obtain ⟨radius, rfl, hradii⟩ := (of_checkLengths hr).1
  obtain ⟨color, rfl, hcolors⟩ := (of_checkColors hc).1
  exact ⟨space, radius, color, ⟨es, rfl, hspace, hradius, hcolor⟩,
    ⟨fun e he => text_of_lengthValue (hspaces e he), fun e he => text_of_lengthValue (hradii e he),
      fun g hg => colors_of_mapOf (hcolors g hg)⟩,
    ⟨get?_checkLengths hs, get?_checkLengths hr, get?_checkColors hc⟩⟩

theorem lengths_held_iff {t : Table String} (hes : ∀ e ∈ es, ∃ s, e.2 = .text s)
    (ht : ∀ k s, t.get? k = some s ↔ lastShown? es k = some (.text s)) :
    (∀ e ∈ es, ∃ s, e.2 = .text s ∧ t.get? e.1.shown = some s) ↔
      ∀ e ∈ es, lastShown? es e.1.shown = some e.2 := by
  refine forall₂_congr fun e he => ?_
  obtain ⟨s, hs⟩ := hes e he
  simp [hs, ht]

/-- A plan holds every entry exactly if the last ones with their texts agree with them. -/
theorem HoldsLast.holds_iff (hp : p.HoldsLast space radius color)
    (htyped : Typed space radius color) :
    p.Holds space radius color ↔ Lasting space radius color := by
  constructor
  · intro h
    refine ⟨(lengths_held_iff htyped.space hp.space).1 h.space,
      (lengths_held_iff htyped.radius hp.radius).1 h.radius, fun g hg => ?_⟩
    obtain ⟨ts, hts, hheld⟩ := h.color g hg
    obtain ⟨g', hg', hlast⟩ := exists_lastShown? hg
    obtain ⟨ts', hts', -⟩ := htyped.color g' hg'
    rw [hts'] at hlast
    refine ⟨ts, ts', hts, hlast, fun e he => ?_⟩
    obtain ⟨c, hc, hcolor?⟩ := hheld e he
    obtain ⟨_, w, hlast', hw, hwc⟩ := (hp.color _ _ _).1 hcolor?
    rw [hlast, Option.some.injEq, Value.map.injEq] at hlast'
    exact ⟨w, c, hlast' ▸ hw, hc, hwc⟩
  · intro h
    refine ⟨(lengths_held_iff htyped.space hp.space).2 h.space,
      (lengths_held_iff htyped.radius hp.radius).2 h.radius, fun g hg => ?_⟩
    obtain ⟨ts, ts', hts, hlast, hlasting⟩ := h.color g hg
    refine ⟨ts, hts, fun e he => ?_⟩
    obtain ⟨w, c, hw, hc, hwc⟩ := hlasting e he
    exact ⟨c, hc, (hp.color _ _ _).2 ⟨ts', w, hlast, hw, hwc⟩⟩

theorem Typed.lasting (htyped : Typed space radius color) (hspace : DistinctTexts space)
    (hradius : DistinctTexts radius) (hcolor : DistinctTexts color)
    (htokens : ∀ g ∈ color, ∀ ts, g.2 = .map ts → DistinctTexts ts) :
    Lasting space radius color where
  space := fun _ => lastShown?_of_distinct hspace
  radius := fun _ => lastShown?_of_distinct hradius
  color := by
    intro g hg
    obtain ⟨ts, hts, hcolors⟩ := htyped.color g hg
    refine ⟨ts, ts, hts, hts ▸ lastShown?_of_distinct hcolor hg, fun e he => ?_⟩
    obtain ⟨c, hc⟩ := hcolors e he
    exact ⟨e.2, c, lastShown?_of_distinct (htokens g hg ts hts) he, hc, hc⟩

/-- Under the text of a key a plan holds what the last entry with this text says. So it holds every
entry exactly if each agrees with the last one with its text, and no entry is lost where the keys of
each map have texts of their own. -/
theorem define_keeps (h : define v = .ok p) : ∃ space radius color,
    HasGroups v space radius color ∧ p.HoldsLast space radius color ∧
      (p.Holds space radius color ↔ Lasting space radius color) ∧
      (DistinctTexts space → DistinctTexts radius → DistinctTexts color →
        (∀ g ∈ color, ∀ ts, g.2 = .map ts → DistinctTexts ts) → p.Holds space radius color) := by
  obtain ⟨space, radius, color, hgroups, htyped, hlast⟩ := holdsLast_of_define h
  refine ⟨space, radius, color, hgroups, hlast, hlast.holds_iff htyped, ?_⟩
  intro hspace hradius hcolor htokens
  exact (hlast.holds_iff htyped).2 (htyped.lasting hspace hradius hcolor htokens)

/-! ### Groups with one text -/

/-- Two groups of colors, the first under a number, each with a token. -/
def groupedColors (k : Value) : Entries :=
  [(.int 1, .map [(.text "a", ColorPair.toValue ⟨"#000", "#fff"⟩)]),
    (k, .map [(.text "b", ColorPair.toValue ⟨"#111", "#eee"⟩)])]

def grouped (k : Value) : Value :=
  .map [(.text "space", .map []), (.text "radius", .map []),
    (.text "color", .map (groupedColors k))]

theorem hasGroups_grouped_iff {k : Value} : HasGroups (grouped k) space radius color ↔
    space = [] ∧ radius = [] ∧ color = groupedColors k := by
  constructor
  · rintro ⟨_, ⟨⟩, ⟨⟩, ⟨⟩, ⟨⟩⟩
    exact ⟨rfl, rfl, rfl⟩
  · rintro ⟨rfl, rfl, rfl⟩
    exact ⟨_, rfl, rfl, rfl, rfl⟩

theorem hasText_of_natAbs_lt {n : Int} (h : n.natAbs < 10) : HasText (.int n) := by
  rintro m ⟨⟩
  have hpow (d : Nat) (hd : 1 ≤ d) : 10 ≤ Nat.pow 10 d := Nat.pow_le_pow_right (Nat.succ_pos 9) hd
  have hbound : 10 ≤ Decimal.digitBound := by
    unfold Decimal.digitBound
    exact hpow Decimal.digitLimit (by decide)
  omega

theorem exists_define_grouped (name : String) : ∃ p, define (grouped (.text name)) = .ok p := by
  have htext (s : String) : HasText (.text s) := nofun
  refine exists_define ?_ ?_
  · refine ⟨_, _, _, _, rfl, by simp [groups], rfl, rfl, rfl, ⟨_, rfl, nofun⟩, ⟨_, rfl, nofun⟩, _,
      rfl, ?_⟩
    have hpair {c : ColorPair} (h : ValidPair c) : ColorPairValue (ColorPair.toValue c) := by
      have hc : checkColorPair "" (ColorPair.toValue c) = .ok c := checkColorPair_toValue h
      exact colorPairValue_iff.2 ⟨c, hc⟩
    refine List.forall_mem_cons.2 ⟨⟨_, rfl, List.forall_mem_singleton.2 (hpair ?_)⟩,
      List.forall_mem_singleton.2 ⟨_, rfl, List.forall_mem_singleton.2 (hpair ?_)⟩⟩
    · decide
    · decide
  · have hnumber : HasText (.int 1) := hasText_of_natAbs_lt (by decide)
    simp [Written, grouped, groupedColors, keys, htext, hnumber, ColorPair.toValue]

/-- Next to a group with another text the group with a number is held. -/
theorem define_keeps_grouped : ∃ p, define (grouped (.text "2")) = .ok p ∧
    p.Holds [] [] (groupedColors (.text "2")) := by
  obtain ⟨p, hp⟩ := exists_define_grouped "2"
  obtain ⟨space, radius, color, hgroups, -, -, hholds⟩ := define_keeps hp
  obtain ⟨rfl, rfl, rfl⟩ := hasGroups_grouped_iff.1 hgroups
  refine ⟨p, hp, hholds (by decide) (by decide) (by decide) ?_⟩
  simp [groupedColors, DistinctTexts]

/-- A group with the text `1` takes the place of the group with the number. -/
theorem not_define_keeps : ¬∀ v p, define v = .ok p → ∀ space radius color,
    HasGroups v space radius color → p.Holds space radius color := by
  intro h
  obtain ⟨p, hp⟩ := exists_define_grouped "1"
  obtain ⟨space, radius, color, hgroups, htyped, hlast⟩ := holdsLast_of_define hp
  have hlasting := (hlast.holds_iff htyped).1 (h _ p hp _ _ _ hgroups)
  obtain ⟨rfl, rfl, rfl⟩ := hasGroups_grouped_iff.1 hgroups
  obtain ⟨ts, ts', ⟨⟩, ⟨⟩, htokens⟩ := hlasting.color _ List.mem_cons_self
  obtain ⟨w, c, hlost, -⟩ := htokens _ List.mem_cons_self
  cases hlost

end DesignTokens.Plan
