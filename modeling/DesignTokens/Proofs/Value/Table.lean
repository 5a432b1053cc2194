import DesignTokens.Value.Basic
import DesignTokens.Value.Table
import Mathlib.Data.List.Induction
import Mathlib.Data.List.Nodup

/-!
# Looking up, inserting and sorting

What is found in a table or a map after a name was given a value: that value under the name, and
under every other name what was there before. A table that was made by inserting has no name twice
(`ofList_distinct`) and holds the last value of each name (`get?_ofList`), and the order in which
its entries were given does not show once they are sorted (`sorted_eq_of_perm`).
-/

namespace DesignTokens

namespace Table

variable {α : Type} {name name' : String} {a : α} {t : Table α}

theorem get?_insert_self (name : String) (a : α) (t : Table α) :
    get? (insert name a t) name = some a := by
  induction t with
  | nil => simp [insert, get?]
  | cons e t ih =>
    rw [insert]
    split
    · simp [get?]
    · rename_i he
      rw [get?, List.find?_cons_of_neg (by simpa using he)]
      exact ih

theorem get?_insert_of_ne (h : name' ≠ name) (a : α) (t : Table α) :
    get? (insert name a t) name' = get? t name' := by
  induction t with
  | nil => simp [insert, get?, h.symm]
  | cons e t ih =>
    rw [insert]
    split
    · rename_i he
      have he' : e.1 = name := by simpa using he
      rw [get?, get?, List.find?_cons_of_neg (by simpa using h.symm),
        List.find?_cons_of_neg (by simpa [he'] using h.symm)]
    · by_cases he' : e.1 = name'
      · rw [get?, get?, List.find?_cons_of_pos (by simpa using he'),
          List.find?_cons_of_pos (by simpa using he')]
      · rw [get?, get?, List.find?_cons_of_neg (by simpa using he'),
          List.find?_cons_of_neg (by simpa using he')]
        exact ih

/-- A value that the name has already changes nothing. -/
theorem insert_of_get? (h : get? t name = some a) : insert name a t = t := by
  induction t with
  | nil => cases h
  | cons e t ih =>
    rw [insert]
    split
    · rename_i he
      rw [get?, List.find?_cons_of_pos (by simpa using he)] at h
      cases h
      rw [← beq_iff_eq.1 he]
    · rename_i he
      rw [get?, List.find?_cons_of_neg (by simpa using he)] at h
      rw [ih h]

/-- Only the last value that is given to a name counts. -/
theorem insert_insert_self (name : String) (a b : α) (t : Table α) :
    insert name a (insert name b t) = insert name a t := by
  induction t with
  | nil => simp [insert]
  | cons e t ih =>
    by_cases he : e.1 = name
    · simp [insert, he]
    · simp [insert, he, ih]

/-- Values are given to two names in either order if the first has its place already. -/
theorem insert_insert_of_mem {b : α} (h : name ≠ name') (hmem : name ∈ t.map (·.1)) :
    insert name a (insert name' b t) = insert name' b (insert name a t) := by
  induction t with
  | nil => cases hmem
  | cons e t ih =>
    rw [List.map_cons, List.mem_cons] at hmem
    by_cases he : e.1 = name
    · simp [insert, he, h]
    · by_cases he' : e.1 = name'
      · simp [insert, he', h.symm]
      · simp [insert, he, he', ih (hmem.resolve_left (Ne.symm he))]

/-- Inserting adds the name to those that are there. -/
theorem mem_names_insert :
    name' ∈ (insert name a t).map (·.1) ↔ name' = name ∨ name' ∈ t.map (·.1) := by
  induction t with
  | nil => simp [insert]
  | cons e t ih =>
    rw [insert]
    split
    · rename_i he
      rw [List.map_cons, List.map_cons, List.mem_cons, List.mem_cons, ← beq_iff_eq.1 he,
        or_self_left]
    · rw [List.map_cons, List.map_cons, List.mem_cons, List.mem_cons, ih, or_left_comm]

/-- Related values under one name keep two tables related. -/
theorem forall₂_insert {R : α → α → Prop} {b : α} {t' : Table α} (hab : R a b)
    (h : List.Forall₂ (fun e e' => e.1 = e'.1 ∧ R e.2 e'.2) t t') :
    List.Forall₂ (fun e e' => e.1 = e'.1 ∧ R e.2 e'.2) (insert name a t) (insert name b t') := by
  induction h with
  | nil => exact .cons ⟨rfl, hab⟩ .nil
  | cons he h ih =>
    rw [insert, insert, he.1]
    split
    · exact .cons ⟨rfl, hab⟩ h
    · exact .cons he ih

theorem mem_insert {e : String × α} (h : e ∈ insert name a t) : e = (name, a) ∨ e ∈ t := by
  induction t with
  | nil => exact .inl (List.mem_singleton.1 h)
  | cons e' t ih =>
    rw [insert] at h
    split at h
    · exact (List.mem_cons.1 h).imp_right (List.mem_cons_of_mem _)
    · rcases List.mem_cons.1 h with rfl | h
      · exact .inr List.mem_cons_self
      · exact (ih h).imp_right (List.mem_cons_of_mem _)

theorem mem_foldl_insert {e : String × α} {es : List (String × α)}
    (h : e ∈ es.foldl (fun t e => insert e.1 e.2 t) t) : e ∈ es ∨ e ∈ t := by
  induction es generalizing t with
  | nil => exact .inr h
  | cons e' es ih =>
    rcases ih h with h | h
    · exact .inl (List.mem_cons_of_mem e' h)
    · rcases mem_insert h with rfl | h
      · exact .inl List.mem_cons_self
      · exact .inr h

theorem mem_of_mem_ofList {e : String × α} {es : List (String × α)} (h : e ∈ ofList es) : e ∈ es :=
  (mem_foldl_insert h).resolve_right List.not_mem_nil

/-! ### Distinct names -/

/-- No name stands in the table twice. -/
def Distinct (t : Table α) : Prop := (t.map (·.1)).Nodup

instance (t : Table α) : Decidable t.Distinct := inferInstanceAs (Decidable (t.map (·.1)).Nodup)

theorem Distinct.nil : Distinct ([] : Table α) := List.nodup_nil

theorem Distinct.insert (h : Distinct t) (name : String) (a : α) :
    Distinct (insert name a t) := by
  induction t with
  | nil => simp [Distinct, Table.insert]
  | cons e t ih =>
    obtain ⟨he, ht⟩ := List.nodup_cons.1 h
    rw [Table.insert]
    split
    · rename_i hname
      obtain rfl : e.1 = name := beq_iff_eq.1 hname
      exact List.nodup_cons.2 ⟨he, ht⟩
    · rename_i hname
      refine List.nodup_cons.2 ⟨fun hmem => ?_, ih ht⟩
      obtain ⟨e', he', heq⟩ := List.mem_map.1 hmem
      rcases mem_insert he' with rfl | he'
      · exact hname (beq_iff_eq.2 heq.symm)
      · exact he (List.mem_map.2 ⟨e', he', heq⟩)

theorem foldl_insert_distinct (h : Distinct t) (es : List (String × α)) :
    Distinct (es.foldl (fun t e => insert e.1 e.2 t) t) := by
  induction es generalizing t with
  | nil => exact h
  | cons e es ih => exact ih (h.insert e.1 e.2)

theorem ofList_distinct (es : List (String × α)) : Distinct (ofList es) :=
  foldl_insert_distinct .nil es

theorem insert_of_not_mem (h : name ∉ t.map (·.1)) (a : α) :
    insert name a t = t ++ [(name, a)] := by
  induction t with
  | nil => rfl
  | cons e t ih =>
    rw [List.map_cons, List.mem_cons, not_or] at h
    rw [insert, if_neg (by simpa using Ne.symm h.1), ih h.2, List.cons_append]

theorem foldl_insert_of_distinct {es : List (String × α)} (h : Distinct (t ++ es)) :
    es.foldl (fun t e => insert e.1 e.2 t) t = t ++ es := by
  induction es generalizing t with
  | nil => simp
  | cons e es ih =>
    have he : e.1 ∉ t.map (·.1) := by
      rw [Distinct, List.map_append, List.nodup_append] at h
      exact fun hmem => h.2.2 _ hmem _ (by simp) rfl
    have hrest : Distinct (t ++ [e] ++ es) := by simpa using h
    rw [List.foldl_cons, insert_of_not_mem he, ih hrest]
    simp

/-- A table that has no name twice is made of its entries. -/
theorem ofList_eq_self (h : Distinct t) : ofList t = t := foldl_insert_of_distinct (t := []) h

/-! ### Repeated names -/

/-- The last of the values that are given under a name. -/
def last? (es : List (String × α)) (name : String) : Option α :=
  (es.reverse.find? (·.1 == name)).map (·.2)

theorem last?_concat_self (es : List (String × α)) (name : String) (a : α) :
    last? (es ++ [(name, a)]) name = some a := by
  simp [last?]

theorem last?_concat_of_ne {e : String × α} (h : e.1 ≠ name) (es : List (String × α)) :
    last? (es ++ [e]) name = last? es name := by
  simp [last?, h]

/-- A table that is made of entries holds the last value of each name. -/
theorem get?_ofList (es : List (String × α)) (name : String) :
    get? (ofList es) name = last? es name := by
  induction es using List.reverseRecOn with
  | nil => rfl
  | append_singleton es e ih =>
    have hlast : ofList (es ++ [e]) = insert e.1 e.2 (ofList es) := by
      rw [ofList, List.foldl_append]
      rfl
    rw [hlast]
    by_cases h : e.1 = name
    · subst h
      rw [get?_insert_self, last?_concat_self]
    · rw [get?_insert_of_ne (Ne.symm h), last?_concat_of_ne h, ih]

theorem last?_eq_none {es : List (String × α)} (h : ∀ e ∈ es, e.1 ≠ name) :
    last? es name = none := by
  rw [last?, Option.map_eq_none_iff, List.find?_eq_none]
  exact fun e he hname => h e (List.mem_reverse.1 he) (beq_iff_eq.1 hname)

/-- A name that is given one value only has it. -/
theorem last?_eq_some {es : List (String × α)} {e : String × α} (he : e ∈ es)
    (h : ∀ e' ∈ es, e'.1 = e.1 → e'.2 = e.2) : last? es e.1 = some e.2 := by
  cases hfind : es.reverse.find? (·.1 == e.1) with
  | none =>
    have hne := List.find?_eq_none.1 hfind e (List.mem_reverse.2 he)
    simp at hne
  | some e' =>
    have he' := List.mem_reverse.1 (List.mem_of_find?_eq_some hfind)
    have hname : e'.1 = e.1 := by simpa using List.find?_some hfind
    rw [last?, hfind, Option.map_some, h e' he' hname]

theorem Distinct.get?_of_mem (h : Distinct t) {e : String × α} (he : e ∈ t) :
    get? t e.1 = some e.2 := by
  have hlast : last? t e.1 = some e.2 := by
    refine last?_eq_some he fun e' he' hname => ?_
    rw [List.inj_on_of_nodup_map h he' he hname]
  rw [← hlast, ← get?_ofList, ofList_eq_self h]

/-! ### Sorting -/

variable {u : Table α}

theorem sorted_perm (t : Table α) : t.sorted.Perm t := List.mergeSort_perm ..

theorem sorted_pairwise (t : Table α) : t.sorted.Pairwise fun a b => a.1 ≤ b.1 := by
  refine (List.pairwise_mergeSort ?_ ?_ t).imp of_decide_eq_true
  · intro a b c hab hbc
    rw [decide_eq_true_eq] at *
    exact String.le_trans hab hbc
  · intro a b
    simpa using String.le_total a.1 b.1

/-- Tables with the same entries are sorted alike. -/
theorem sorted_eq_of_perm (ht : Distinct t) (h : t.Perm u) : t.sorted = u.sorted := by
  have hperm : t.sorted.Perm u.sorted := (sorted_perm t).trans (h.trans (sorted_perm u).symm)
  refine List.Perm.eq_of_pairwise (fun a b ha hb hab hba => ?_) (sorted_pairwise t)
    (sorted_pairwise u) hperm
  have ha : a ∈ t := (sorted_perm t).mem_iff.1 ha
  have hb : b ∈ t := h.mem_iff.2 ((sorted_perm u).mem_iff.1 hb)
  exact List.inj_on_of_nodup_map ht ha hb (String.le_antisymm hab hba)

/-- `u` has the entries of `t` in the order of their names. -/
structure Orders (u t : Table α) : Prop where
  perm : u.Perm t
  ordered : u.Pairwise fun a b => a.1 ≤ b.1

theorem sorted_orders (t : Table α) : t.sorted.Orders t := ⟨sorted_perm t, sorted_pairwise t⟩

theorem sorted_map {β : Type} (f : α → β) (t : Table α) :
    sorted (t.map fun e => (e.1, f e.2)) = t.sorted.map fun e => (e.1, f e.2) := by
  symm
  exact List.map_mergeSort fun _ _ _ _ => rfl

end Table

/-! ### Maps with texts as keys -/

/-- A text is the same key as no other value. -/
theorem Value.same_text {v : Value} {k : String} : v.same (.text k) ↔ v = .text k := by
  cases v <;> simp [Value.same, Value.asInt?]

namespace Entries

variable {es : Entries} {k k' : String} {v : Value}

theorem getText?_cons_self (k : String) (v : Value) (es : Entries) :
    getText? ((.text k, v) :: es) k = some v := by
  have hsame : (Value.text k).same (.text k) := Value.same_text.2 rfl
  simp [getText?, get?, hsame]

theorem getText?_cons_of_ne {e : Value × Value} (h : e.1 ≠ .text k) (es : Entries) :
    getText? (e :: es) k = getText? es k := by
  have hsame : ¬e.1.same (.text k) := fun hsame => h (Value.same_text.1 hsame)
  simp [getText?, get?, hsame]

theorem getText?_insert_self (k : String) (v : Value) (es : Entries) :
    getText? (insert (.text k) v es) k = some v := by
  induction es with
  | nil => exact getText?_cons_self k v []
  | cons e es ih =>
    rw [insert]
    split
    · rename_i he
      rw [Value.same_text.1 he]
      exact getText?_cons_self k v es
    · rename_i he
      rw [getText?_cons_of_ne fun h => he (Value.same_text.2 h)]
      exact ih

theorem getText?_insert_of_ne (h : k' ≠ k) (v : Value) (es : Entries) :
    getText? (insert (.text k) v es) k' = getText? es k' := by
  have hne : Value.text k ≠ .text k' := fun heq => h (Value.text.inj heq).symm
  induction es with
  | nil => exact getText?_cons_of_ne hne []
  | cons e es ih =>
    rw [insert]
    split
    · rename_i he
      rw [Value.same_text] at he
      rw [getText?_cons_of_ne (he ▸ hne), getText?_cons_of_ne (he ▸ hne)]
    · by_cases he' : e.1 = .text k'
      · obtain ⟨key, w⟩ := e
        cases he'
        rw [getText?_cons_self, getText?_cons_self]
      · rw [getText?_cons_of_ne he', getText?_cons_of_ne he', ih]

/-- A value that the key has already changes nothing. -/
theorem insert_of_getText? (h : getText? es k = some v) : insert (.text k) v es = es := by
  induction es with
  | nil => cases h
  | cons e es ih =>
    obtain ⟨key, w⟩ := e
    rw [insert]
    split
    · rename_i he
      obtain rfl := Value.same_text.1 he
      rw [getText?_cons_self] at h
      cases h
      rfl
    · rename_i he
      rw [getText?_cons_of_ne fun hkey => he (Value.same_text.2 hkey)] at h
      rw [ih h]

/-- Only the last value that is given to a key counts. -/
theorem insert_insert_self (k : String) (v w : Value) (es : Entries) :
    insert (.text k) v (insert (.text k) w es) = insert (.text k) v es := by
  induction es with
  | nil =>
    have hsame : (Value.text k).same (.text k) := Value.same_text.2 rfl
    simp [insert, hsame]
  | cons e es ih =>
    by_cases he : e.1.same (.text k)
    · simp [insert, he]
    · simp [insert, he, ih]

/-- Two keys are given values in either order, up to the order of the entries. -/
theorem insert_insert_perm (h : k ≠ k') (v w : Value) (es : Entries) :
    (insert (.text k) v (insert (.text k') w es)).Perm
      (insert (.text k') w (insert (.text k) v es)) := by
  have hne : (Value.text k).same (.text k') = false := by
    rw [Bool.eq_false_iff, Ne, Value.same_text]
    exact fun heq => h (Value.text.inj heq)
  have hne' : (Value.text k').same (.text k) = false := by
    rw [Bool.eq_false_iff, Ne, Value.same_text]
    exact fun heq => h (Value.text.inj heq).symm
  induction es with
  | nil =>
    simp only [insert, hne, hne', Bool.false_eq_true, if_false]
    exact .swap ..
  | cons e es ih =>
    by_cases he : e.1.same (.text k)
    · have hself : (Value.text k).same (.text k) = true := Value.same_text.2 rfl
      simp [insert, Value.same_text.1 he, hself, hne]
    · by_cases he' : e.1.same (.text k')
      · simp [insert, he, he']
      · simpa [insert, he, he'] using ih

theorem getText?_eq_none : getText? es k = none ↔ ∀ e ∈ es, e.1 ≠ .text k := by
  rw [getText?, get?, Option.map_eq_none_iff, List.find?_eq_none]
  exact forall₂_congr fun e _ => not_congr Value.same_text

/-- Inserting adds the key to those that are there. -/
theorem forall_keys_insert {p : Value → Prop} (k : String) (v : Value) (es : Entries) :
    (∀ e ∈ insert (.text k) v es, p e.1) ↔ p (.text k) ∧ ∀ e ∈ es, p e.1 := by
  induction es with
  | nil => simp [insert]
  | cons e es ih =>
    rw [insert]
    split
    · rename_i he
      rw [Value.same_text] at he
      rw [List.forall_mem_cons, List.forall_mem_cons, he, and_self_left]
    · rw [List.forall_mem_cons, ih, List.forall_mem_cons, and_left_comm]

end Entries

end DesignTokens
