import DesignTokens.Plan.Css
import DesignTokens.Proofs.Value.Table
import Mathlib.Data.List.Perm.Basic

/-!
# Custom properties of a plan

A plan has one custom property for each token (`customProperties_perm`). They are listed in the
order of the keys, groups of colors in the order of their names, so the style sheet shows nothing of
the order in which the plan was written, and the names are those that the plan lists
(`css_of_entries`).
-/

namespace DesignTokens

namespace Plan

variable {p q : Plan}

/-- No group of the plan has a name twice. -/
structure Distinct (p : Plan) : Prop where
  space : p.space.Distinct
  radius : p.radius.Distinct
  color : p.color.Distinct
  tokens : ∀ g ∈ p.color, g.2.Distinct

/-- Both plans have the same entries in every group, perhaps in another order. -/
structure SameEntries (p q : Plan) : Prop where
  space : p.space.Perm q.space
  radius : p.radius.Perm q.radius
  color : ∃ groups : Table (Table ColorPair),
    List.Forall₂ (fun g g' => g'.1 = g.1 ∧ g.2.Perm g'.2) p.color groups ∧ groups.Perm q.color

/-! ### One property for each token -/

def lengthVariable (group : String) (e : String × String) : Variable :=
  ⟨lengthName group e.1, e.2, none⟩

def colorVariable (group : String) (e : String × ColorPair) : Variable :=
  ⟨colorName group e.1, e.2.dark, some e.2.light⟩

theorem lengthVariables_eq (group : String) (t : Table String) :
    lengthVariables group t = t.sorted.map (lengthVariable group) := rfl

theorem colorVariables_eq (t : Table (Table ColorPair)) :
    colorVariables t = t.sorted.flatMap fun g => g.2.sorted.map (colorVariable g.1) := rfl

/-- The custom properties are those of the tokens, each token once. -/
theorem customProperties_perm (p : Plan) : p.customProperties.Perm
    (p.space.map (lengthVariable "space") ++ p.radius.map (lengthVariable "radius") ++
      p.color.flatMap fun g => g.2.map (colorVariable g.1)) := by
  rw [customProperties, lengthVariables_eq, lengthVariables_eq, colorVariables_eq]
  refine ((p.space.sorted_perm.map _).append (p.radius.sorted_perm.map _)).append ?_
  exact p.color.sorted_perm.flatMap fun g _ => g.2.sorted_perm.map _

/-! ### The order of entries -/

/-- Groups of colors are listed alike if their tokens are, once these are sorted. -/
theorem colorVariables_map_sorted (t : Table (Table ColorPair)) :
    colorVariables (t.map fun g => (g.1, g.2.sorted)) = colorVariables t := by
  have hsorted (u : Table ColorPair) : u.sorted.sorted = u.sorted :=
    List.mergeSort_of_pairwise (u.sorted_pairwise.imp decide_eq_true)
  rw [colorVariables_eq, Table.sorted_map, List.flatMap_map]
  simp only [hsorted]
  rfl

theorem map_sorted_congr {t u : Table (Table ColorPair)} (ht : ∀ g ∈ t, g.2.Distinct)
    (h : List.Forall₂ (fun g g' => g'.1 = g.1 ∧ g.2.Perm g'.2) t u) :
    (t.map fun g => (g.1, g.2.sorted)) = u.map fun g => (g.1, g.2.sorted) := by
  induction h with
  | nil => rfl
  | cons hg _ ih =>
    obtain ⟨hdistinct, ht⟩ := List.forall_mem_cons.1 ht
    rw [List.map_cons, List.map_cons, ih ht, hg.1, Table.sorted_eq_of_perm hdistinct hg.2]

theorem colorVariables_congr (hp : p.Distinct) (h : p.SameEntries q) :
    colorVariables p.color = colorVariables q.color := by
  obtain ⟨groups, hgroups, hperm⟩ := h.color
  have hsorted := map_sorted_congr hp.tokens hgroups
  have hdistinct : Table.Distinct (p.color.map fun g => (g.1, g.2.sorted)) := by
    rw [Table.Distinct, List.map_map]
    exact hp.color
  rw [← colorVariables_map_sorted p.color, ← colorVariables_map_sorted q.color, colorVariables_eq,
    colorVariables_eq, Table.sorted_eq_of_perm hdistinct (hsorted ▸ hperm.map _)]

theorem customProperties_congr (hp : p.Distinct) (h : p.SameEntries q) :
    p.customProperties = q.customProperties := by
  rw [customProperties, customProperties, lengthVariables_eq, lengthVariables_eq,
    lengthVariables_eq, lengthVariables_eq, Table.sorted_eq_of_perm hp.space h.space,
    Table.sorted_eq_of_perm hp.radius h.radius, colorVariables_congr hp h]

/-! ### The order of names -/

/-- `names` are those of all tokens: spaces in the order of their keys, then radii, then group after
group of colors in the order of their names, with their tokens in the order of their keys. -/
def ListsInOrder (p : Plan) (names : List String) : Prop :=
  ∃ (space radius : Table String) (groups : Table (Table ColorPair))
    (tokens : Table ColorPair → Table ColorPair),
    space.Orders p.space ∧ radius.Orders p.radius ∧ groups.Orders p.color ∧
      (∀ g ∈ groups, (tokens g.2).Orders g.2) ∧
      names = space.map (lengthName "space" ·.1) ++ radius.map (lengthName "radius" ·.1) ++
        groups.flatMap fun g => (tokens g.2).map (colorName g.1 ·.1)

theorem names_customProperties (p : Plan) : p.customProperties.map (·.name) = p.tokenNames := by
  rw [customProperties, tokenNames, lengthVariables_eq, lengthVariables_eq, colorVariables_eq]
  simp [List.map_flatMap, lengthVariable, colorVariable, Function.comp_def]

theorem tokenNames_inOrder (p : Plan) : p.ListsInOrder p.tokenNames := by
  refine ⟨p.space.sorted, p.radius.sorted, p.color.sorted, Table.sorted, p.space.sorted_orders,
    p.radius.sorted_orders, p.color.sorted_orders, fun g _ => g.2.sorted_orders, ?_⟩
  rw [tokenNames]

/-- The style sheet depends only on the entries of the plan, and declares the names that the plan
lists, in the order of groups and keys. -/
theorem css_of_entries :
    (∀ p q : Plan, p.Distinct → p.SameEntries q → p.css = q.css) ∧
      ∀ p : Plan, p.customProperties.map (·.name) = p.tokenNames ∧ p.ListsInOrder p.tokenNames := by
  constructor
  · intro p q hp h
    unfold css
    rw [customProperties_congr hp h]
  · intro p
    exact ⟨names_customProperties p, tokenNames_inOrder p⟩

/-- Two groups of colors, the first with two tokens, in two orders. -/
theorem css_of_entries_swapped :
    Distinct ⟨[], [], [("a", [("x", ⟨"#000", "#fff"⟩), ("y", ⟨"#111", "#eee"⟩)]), ("b", [])]⟩ ∧
    css ⟨[], [], [("a", [("x", ⟨"#000", "#fff"⟩), ("y", ⟨"#111", "#eee"⟩)]), ("b", [])]⟩ =
      css ⟨[], [], [("b", []), ("a", [("y", ⟨"#111", "#eee"⟩), ("x", ⟨"#000", "#fff"⟩)])]⟩ := by
  have hdistinct :
      Distinct ⟨[], [], [("a", [("x", ⟨"#000", "#fff"⟩), ("y", ⟨"#111", "#eee"⟩)]), ("b", [])]⟩ :=
    ⟨by decide, by decide, by decide, by decide⟩
  refine ⟨hdistinct, css_of_entries.1 _ _ hdistinct ⟨.nil, .nil, ?_⟩⟩
  exact ⟨[("a", [("y", ⟨"#111", "#eee"⟩), ("x", ⟨"#000", "#fff"⟩)]), ("b", [])],
    .cons ⟨rfl, .swap ..⟩ (.cons ⟨rfl, .nil⟩ .nil), .swap ..⟩

end Plan

end DesignTokens
