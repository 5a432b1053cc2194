import DesignTokens.Proofs.Plan.Define

/-!
# Names of custom properties

The name of a color joins a group and a key by a hyphen, and both may have hyphens of their own. So
two colors have one name if the name of one group goes on, behind a hyphen, with the front of a key
of the other (`Token.Clash`). No other tokens share a name (`Token.name_eq_iff`), hence the names of
a plan are distinct unless two of its colors clash, and a declaration counts unless another one has
its name (`names_distinct`).
-/

namespace DesignTokens.Plan

/-- A token by its place in a plan. -/
inductive Token
  | space (key : String)
  | radius (key : String)
  | color (group key : String)
  deriving DecidableEq

namespace Token

variable {t t' : Token} {group key group' key' : String}

def name : Token → String
  | space key => lengthName "space" key
  | radius key => lengthName "radius" key
  | color group key => colorName group key

/-- The group of the second color is that of the first one with a hyphen and a text behind it, and
the key of the first color is this text with a hyphen and the key of the second. -/
def Clash : Token → Token → Prop
  | color group key, color group' key' =>
    ∃ middle, group' = group ++ "-" ++ middle ∧ key = middle ++ "-" ++ key'
  | _, _ => False

theorem colorName_inj (h : colorName group key = colorName group' key') :
    color group key = color group' key' ∨ Clash (color group key) (color group' key') ∨
      Clash (color group' key') (color group key) := by
  have hsplit : group.toList ++ '-' :: key.toList = group'.toList ++ '-' :: key'.toList := by
    simpa [colorName] using congrArg String.toList h
  have hfront {s t : String} {m : List Char} (h : s.toList = t.toList ++ '-' :: m) :
      s = t ++ "-" ++ String.ofList m := String.toList_inj.1 (by simp [h])
  have hback {s t : String} {m : List Char} (h : s.toList = m ++ '-' :: t.toList) :
      s = String.ofList m ++ "-" ++ t := String.toList_inj.1 (by simp [h])
  rcases Text.append_cons_cases hsplit with ⟨hg, hk⟩ | ⟨m, hg, hk⟩ | ⟨m, hg, hk⟩
  · rw [String.toList_inj.1 hg, String.toList_inj.1 hk]
    exact .inl rfl
  · exact .inr (.inl ⟨_, hfront hg, hback hk⟩)
  · exact .inr (.inr ⟨_, hfront hg, hback hk⟩)

theorem Clash.name_eq (h : t.Clash t') : t.name = t'.name := by
  cases t with
  | color group key =>
    cases t' with
    | color group' key' =>
      obtain ⟨middle, rfl, rfl⟩ := h
      simp [name, colorName, String.append_assoc]
    | _ => cases h
  | _ => cases h

/-- Tokens have one name only if they are colors that clash. -/
theorem name_eq_iff : t.name = t'.name ↔ t = t' ∨ t.Clash t' ∨ t'.Clash t := by
  constructor
  · intro h
    cases t with
    | color group key =>
      cases t' with
      | color group' key' => exact colorName_inj h
      | _ => simp [name, lengthName, colorName, ← String.toList_inj] at h
    | _ =>
      cases t' <;> simp_all [name, lengthName, colorName, ← String.toList_inj]
  · rintro (rfl | h | h)
    · rfl
    · exact h.name_eq
    · exact h.name_eq.symm

theorem Clash.ne (h : t.Clash t') : t ≠ t' := by
  rintro rfl
  cases t with
  | color group key =>
    obtain ⟨middle, hgroup, -⟩ := h
    have hlength := congrArg String.length hgroup
    have hhyphen : "-".length = 1 := rfl
    simp only [String.length_append] at hlength
    omega
  | _ => cases h

end Token

variable {p : Plan} {v : Value} {x : Variable} {xs : List Variable}

/-! ### The tokens of a plan -/

def tokens (p : Plan) : List Token :=
  p.space.map (.space ·.1) ++ p.radius.map (.radius ·.1) ++
    p.color.flatMap fun g => g.2.map (.color g.1 ·.1)

theorem tokenNames_perm (p : Plan) : p.tokenNames.Perm (p.tokens.map Token.name) := by
  have hperm := (customProperties_perm p).map (·.name)
  rw [names_customProperties] at hperm
  simpa [tokens, Token.name, lengthVariable, colorVariable, Function.comp_def, List.map_flatMap]
    using hperm

theorem nodup_map_key {α : Type} {t : Table α} {f : String → Token} (ht : t.Distinct)
    (hf : Function.Injective f) : (t.map fun e => f e.1).Nodup := by
  have hnames := List.Nodup.map hf ht
  rwa [List.map_map] at hnames

theorem nodup_tokens (hp : p.Distinct) : p.tokens.Nodup := by
  have hcolors : (p.color.flatMap fun g => g.2.map (Token.color g.1 ·.1)).Nodup := by
    rw [List.nodup_flatMap]
    refine ⟨fun g hg => nodup_map_key (hp.tokens g hg) fun _ _ h => (Token.color.inj h).2, ?_⟩
    refine (List.pairwise_map.1 hp.color).imp fun {g g'} hne t ht ht' => ?_
    obtain ⟨e, -, rfl⟩ := List.mem_map.1 ht
    obtain ⟨e', -, heq⟩ := List.mem_map.1 ht'
    exact hne (Token.color.inj heq).1.symm
  rw [tokens, List.nodup_append', List.nodup_append']
  refine ⟨⟨nodup_map_key hp.space fun _ _ => Token.space.inj,
    nodup_map_key hp.radius fun _ _ => Token.radius.inj, ?_⟩, hcolors, ?_⟩
  · intro t ht ht'
    obtain ⟨e, -, rfl⟩ := List.mem_map.1 ht
    obtain ⟨e', -, heq⟩ := List.mem_map.1 ht'
    cases heq
  · intro t ht ht'
    obtain ⟨g, -, ht'⟩ := List.mem_flatMap.1 ht'
    obtain ⟨e', -, rfl⟩ := List.mem_map.1 ht'
    rcases List.mem_append.1 ht with ht | ht
    · obtain ⟨e, -, heq⟩ := List.mem_map.1 ht
      cases heq
    · obtain ⟨e, -, heq⟩ := List.mem_map.1 ht
      cases heq

theorem nodup_tokenNames_iff (hp : p.Distinct) :
    p.tokenNames.Nodup ↔ ∀ t ∈ p.tokens, ∀ t' ∈ p.tokens, ¬t.Clash t' := by
  rw [(tokenNames_perm p).nodup_iff, List.nodup_map_iff_inj_on (nodup_tokens hp)]
  constructor
  · exact fun hinj t ht t' ht' hclash => hclash.ne (hinj t ht t' ht' hclash.name_eq)
  · intro hclash t ht t' ht' hname
    rcases Token.name_eq_iff.1 hname with h | h | h
    · exact h
    · exact absurd h (hclash t ht t' ht')
    · exact absurd h (hclash t' ht' t ht)

/-! ### Declarations that count -/

/-- The names and values that the root block declares. The last declaration of a name overrides the
others. -/
def darkValues (xs : List Variable) : List (String × String) := xs.map fun x => (x.name, x.dark)

def lightValues (xs : List Variable) : List (String × String) :=
  xs.filterMap fun x => x.light.map (x.name, ·)

theorem darkDeclarations_eq (xs : List Variable) :
    darkDeclarations xs = (darkValues xs).map fun d => declaration d.1 d.2 := by
  simp [darkDeclarations, darkValues]

theorem lightDeclarations_eq (xs : List Variable) :
    lightDeclarations xs = (lightValues xs).map fun d => declaration d.1 d.2 := by
  simp [lightDeclarations, lightValues, List.map_filterMap, Function.comp_def]

/-- A custom property has its values if no other one has its name. -/
theorem values_of_unique (hx : x ∈ xs) (h : ∀ y ∈ xs, y.name = x.name → y = x) :
    Table.last? (darkValues xs) x.name = some x.dark ∧
      Table.last? (lightValues xs) x.name = x.light := by
  have hlight : ∀ d ∈ lightValues xs, d.1 = x.name → x.light = some d.2 := by
    intro d hd hname
    obtain ⟨y, hy, hd⟩ := List.mem_filterMap.1 hd
    obtain ⟨l, hl, rfl⟩ := Option.map_eq_some_iff.1 hd
    rw [← h y hy hname, hl]
  constructor
  · refine Table.last?_eq_some (e := (x.name, x.dark)) (List.mem_map.2 ⟨x, hx, rfl⟩) ?_
    intro d hd hname
    obtain ⟨y, hy, rfl⟩ := List.mem_map.1 hd
    rw [h y hy hname]
  · cases hl : x.light with
    | some l =>
      have hmem : (x.name, l) ∈ lightValues xs := List.mem_filterMap.2 ⟨x, hx, by simp [hl]⟩
      refine Table.last?_eq_some hmem fun d hd hname => ?_
      have hvalue := hlight d hd hname
      rw [hl, Option.some.injEq] at hvalue
      exact hvalue.symm
    | none =>
      refine Table.last?_eq_none fun d hd hname => ?_
      have hvalue := hlight d hd hname
      rw [hl] at hvalue
      cases hvalue

/-- A style sheet declares the names that the plan lists, one for each token. Tokens have one name
only if they are colors that clash, so the names are distinct exactly if no two tokens clash, and a
custom property has its values if no other one has its name. -/
theorem names_distinct (h : define v = .ok p) :
    (darkDeclarations p.customProperties =
        (darkValues p.customProperties).map (fun d => declaration d.1 d.2) ∧
      lightDeclarations p.customProperties =
        (lightValues p.customProperties).map (fun d => declaration d.1 d.2) ∧
      (darkValues p.customProperties).map (·.1) = p.tokenNames) ∧
    (p.tokens.Nodup ∧ p.tokenNames.Perm (p.tokens.map Token.name) ∧
      ∀ t t' : Token, t.name = t'.name ↔ t = t' ∨ t.Clash t' ∨ t'.Clash t) ∧
    (p.tokenNames.Nodup ↔ ∀ t ∈ p.tokens, ∀ t' ∈ p.tokens, ¬t.Clash t') ∧
    ∀ x ∈ p.customProperties, (∀ y ∈ p.customProperties, y.name = x.name → y = x) →
      Table.last? (darkValues p.customProperties) x.name = some x.dark ∧
        Table.last? (lightValues p.customProperties) x.name = x.light := by
  have hp := (of_define h).2.distinct
  refine ⟨⟨darkDeclarations_eq _, lightDeclarations_eq _, ?_⟩,
    ⟨nodup_tokens hp, tokenNames_perm p, fun _ _ => Token.name_eq_iff⟩, nodup_tokenNames_iff hp,
    fun x => values_of_unique⟩
  rw [darkValues, List.map_map]
  exact names_customProperties p

/-- Two groups of colors, the name of the first in front of the name of the second. -/
def hyphenated (key : String) : Plan :=
  ⟨[], [], [("a", [("b-c", ⟨"#000", "#fff"⟩)]), ("a-b", [(key, ⟨"#111", "#eee"⟩)])]⟩

/-- `a` with the key `b-c` does not clash with `a-b` and the key `d`. -/
theorem names_distinct_hyphenated : define (hyphenated "d").toValue = .ok (hyphenated "d") ∧
    (∀ t ∈ (hyphenated "d").tokens, ∀ t' ∈ (hyphenated "d").tokens, ¬t.Clash t') ∧
    Table.last? (darkValues (hyphenated "d").customProperties) "--brand-color-a-b-c" =
      some "#000" := by
  have hdefine : define (hyphenated "d").toValue = .ok (hyphenated "d") :=
    define_toValue ⟨⟨by decide, by decide, by decide, by decide⟩, by decide, by decide, by decide⟩
  obtain ⟨-, -, hnodup, hvalues⟩ := names_distinct hdefine
  refine ⟨hdefine, hnodup.1 ((tokenNames_perm _).nodup_iff.2 (by decide)), ?_⟩
  have hperm := customProperties_perm (hyphenated "d")
  refine (hvalues ⟨"--brand-color-a-b-c", "#000", some "#fff"⟩ ?_ ?_).1
  · rw [hperm.mem_iff]
    decide
  · simp only [hperm.mem_iff]
    decide

/-- With the key `c` there are two colors of the name `--brand-color-a-b-c`. -/
theorem not_names_distinct : ¬∀ v p, define v = .ok p → p.tokenNames.Nodup := by
  intro h
  have hdefine : define (hyphenated "c").toValue = .ok (hyphenated "c") :=
    define_toValue ⟨⟨by decide, by decide, by decide, by decide⟩, by decide, by decide, by decide⟩
  have hnodup := (tokenNames_perm (hyphenated "c")).nodup_iff.1 (h _ _ hdefine)
  exact absurd hnodup (by decide)

end DesignTokens.Plan
