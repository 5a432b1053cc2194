import DesignTokens.Lint.Rule
import DesignTokens.Proofs.Value.Table
import Mathlib.Data.List.Basic

/-!
# The options of a rule

Reading options finds the issues with the ignored paths, with the permission for sections and with
unknown options, in this order, and succeeds if there are none (`read_eq`). Giving an option a value
under its first name changes what is found about this option only (`pathIssues_insert`,
`sectionGiven?_insert_section`), but turns its other name into an unknown one (`known_insert`).
-/

namespace DesignTokens.Lint.Options

variable {a b key : String} {names others : List String} {raw : Entries} {rule : Rule}
  {o : Options} {v : Value} {issue : OptionIssue}

/-! ### Issues -/

def pathIssues (raw : Entries) : List OptionIssue :=
  ((given? raw pathNames).map fun p => (readPaths p.1 p.2).2).getD []

/-- What is given of the permission for sections, which only the margin rule reads. -/
def sectionGiven? (rule : Rule) (raw : Entries) : Option (String × Value) :=
  if rule = .brandMarginPolicy then given? raw sectionNames else none

def sectionIssues (rule : Rule) (raw : Entries) : List OptionIssue :=
  ((sectionGiven? rule raw).map fun p => (readTruth p.1 p.2).2).getD []

def givenNames (given : Option (String × Value)) : List String := given.toList.map (·.1)

def unknownIssues (rule : Rule) (raw : Entries) : List OptionIssue :=
  let counted := givenNames (given? raw pathNames) ++ givenNames (sectionGiven? rule raw)
  raw.filterMap fun e => unknownIssue? counted e.1

def issues (rule : Rule) (raw : Entries) : List OptionIssue :=
  pathIssues raw ++ sectionIssues rule raw ++ unknownIssues rule raw

/-- What the options come to if there are no issues. -/
def value (rule : Rule) (raw : Entries) : Options where
  ignorePaths := ((given? raw pathNames).map fun p => (readPaths p.1 p.2).1).getD []
  allowSection := ((sectionGiven? rule raw).map fun p => (readTruth p.1 p.2).1).getD false

theorem read_eq (rule : Rule) (raw : Entries) : read rule raw =
    if (issues rule raw).isEmpty then .ok (value rule raw)
    else .error (.invalidOptions rule (issues rule raw)) := by
  unfold read issues pathIssues sectionIssues unknownIssues value
  rw [sectionGiven?]
  cases given? raw pathNames <;>
    cases (if rule = .brandMarginPolicy then given? raw sectionNames else none) <;> rfl

theorem read_eq_ok_iff : read rule raw = .ok o ↔ issues rule raw = [] ∧ value rule raw = o := by
  rw [read_eq]
  split
  · rename_i h
    rw [Except.ok.injEq, List.isEmpty_iff.1 h, eq_self, true_and]
  · rename_i h
    exact ⟨nofun, fun ⟨hnil, _⟩ => absurd (List.isEmpty_iff.2 hnil) h⟩

theorem read_eq_error_iff {fault : ConfigFault} : read rule raw = .error fault ↔
    issues rule raw ≠ [] ∧ fault = .invalidOptions rule (issues rule raw) := by
  rw [read_eq]
  split
  · rename_i h
    exact ⟨nofun, fun ⟨hne, _⟩ => absurd (List.isEmpty_iff.1 h) hne⟩
  · rename_i h
    rw [Except.error.injEq, eq_comm]
    exact ⟨fun hfault => ⟨fun hnil => h (List.isEmpty_iff.2 hnil), hfault⟩, (·.2)⟩

/-! ### What is given -/

theorem given?_pair (raw : Entries) (a b : String) :
    given? raw [a, b] = ((raw.getText? a).map (a, ·)).or ((raw.getText? b).map (b, ·)) := by
  rw [given?, List.findSome?_cons]
  cases raw.getText? a with
  | some v => rfl
  | none =>
    rw [List.findSome?_cons]
    cases raw.getText? b <;> rfl

/-- Without the other name, the first one counts. -/
theorem given?_of_none (h : raw.getText? b = none) :
    given? raw [a, b] = (raw.getText? a).map (a, ·) := by
  rw [given?_pair, h, Option.map_none, Option.or_none]

theorem given?_insert_self (a b : String) (v : Value) (raw : Entries) :
    given? (raw.insert (.text a) v) [a, b] = some (a, v) := by
  rw [given?_pair, Entries.getText?_insert_self]
  rfl

theorem given?_insert_of_ne {c d : String} (hc : c ≠ a) (hd : d ≠ a) (v : Value)
    (raw : Entries) : given? (raw.insert (.text a) v) [c, d] = given? raw [c, d] := by
  rw [given?_pair, given?_pair, Entries.getText?_insert_of_ne hc, Entries.getText?_insert_of_ne hd]

theorem mem_of_mem_givenNames {n : String} (h : n ∈ givenNames (given? raw names)) :
    n ∈ names := by
  obtain ⟨⟨m, v⟩, hgiven, rfl⟩ := List.mem_map.1 h
  obtain ⟨m', hm', hget⟩ := List.exists_of_findSome?_eq_some (Option.mem_toList.1 hgiven)
  obtain ⟨w, -, hw⟩ := Option.map_eq_some_iff.1 hget
  cases hw
  exact hm'

theorem mem_sectionNames {n : String} (h : n ∈ givenNames (sectionGiven? rule raw)) :
    n ∈ sectionNames := by
  unfold sectionGiven? at h
  split at h
  · exact mem_of_mem_givenNames h
  · cases h

/-! ### Known names -/

/-- Every key is one of the names. -/
def Known (names : List String) (raw : Entries) : Prop := ∀ e ∈ raw, ∃ n ∈ names, e.1 = .text n

theorem unknownIssue?_eq_none : unknownIssue? names v = none ↔ ∃ n ∈ names, v = .text n := by
  unfold unknownIssue?
  split
  · rename_i s
    rw [ite_eq_left_iff]
    simp
  · rename_i hv
    exact ⟨nofun, fun ⟨n, _, hn⟩ => absurd hn (hv n)⟩

theorem unknownIssues_eq_nil : unknownIssues rule raw = [] ↔
    Known (givenNames (given? raw pathNames) ++ givenNames (sectionGiven? rule raw)) raw := by
  rw [unknownIssues, List.filterMap_eq_nil_iff]
  exact forall₂_congr fun e _ => unknownIssue?_eq_none

theorem known_append_comm (names others : List String) :
    Known (names ++ others) raw ↔ Known (others ++ names) raw := by
  simp only [Known, List.mem_append, or_comm]

/-- Once the option is given under its first name, its other name is not known. -/
theorem known_insert (hab : b ≠ a) (hb : b ∉ others) (v : Value) :
    Known (a :: others) (raw.insert (.text a) v) ↔
      Known (givenNames (given? raw [a, b]) ++ others) raw ∧ raw.getText? b = none := by
  unfold Known
  rw [Entries.forall_keys_insert (p := fun w => ∃ n ∈ a :: others, w = .text n)]
  constructor
  · rintro ⟨-, hknown⟩
    refine ⟨fun e he => ?_, Entries.getText?_eq_none.2 fun e he heb => ?_⟩
    · obtain ⟨n, hn, hen⟩ := hknown e he
      refine ⟨n, ?_, hen⟩
      rcases List.mem_cons.1 hn with rfl | hn
      · obtain ⟨w, hw⟩ := Option.ne_none_iff_exists'.1 fun hnone =>
          Entries.getText?_eq_none.1 hnone e he hen
        rw [given?_pair, hw]
        exact List.mem_cons_self
      · exact List.mem_append_right _ hn
    · obtain ⟨n, hn, hen⟩ := hknown e he
      obtain rfl : n = b := Value.text.inj (hen.symm.trans heb)
      exact (List.mem_cons.1 hn).elim hab hb
  · rintro ⟨hknown, hnone⟩
    refine ⟨⟨a, List.mem_cons_self, rfl⟩, fun e he => ?_⟩
    obtain ⟨n, hn, hen⟩ := hknown e he
    refine ⟨n, ?_, hen⟩
    rcases List.mem_append.1 hn with hn | hn
    · rw [given?_of_none hnone] at hn
      cases hget : raw.getText? a with
      | none =>
        rw [hget] at hn
        cases hn
      | some w =>
        rw [hget] at hn
        rw [List.mem_singleton.1 hn]
        exact List.mem_cons_self
    · exact List.mem_cons_of_mem a hn

/-! ### Ignored paths -/

/-- One item of a list of paths, with its place in the list. -/
def readItem (key : String) (entry : Value × Nat) : Except OptionIssue String :=
  match entry.1 with
  | .text s => .ok s
  | _ => .error ⟨.textExpected, .text key, some entry.2⟩

theorem readItem_of_ne (h : ∀ s, v ≠ .text s) (n : Nat) :
    readItem key (v, n) = .error ⟨.textExpected, .text key, some n⟩ := by
  cases v with
  | text s => exact absurd rfl (h s)
  | _ => rfl

theorem readPaths_list (key : String) (xs : List Value) : readPaths key (.list xs) =
    ((xs.zipIdx.map (readItem key)).filterMap (·.toOption),
      (xs.zipIdx.map (readItem key)).filterMap fun r =>
        match r with | .error e => some e | .ok _ => none) :=
  rfl

theorem readPaths_of_ne (h : ∀ xs, v ≠ .list xs) :
    readPaths key v = ([], [⟨.listExpected, .text key, none⟩]) := by
  cases v with
  | list xs => exact absurd rfl (h xs)
  | _ => rfl

theorem readPaths_texts (key : String) (ts : List String) :
    readPaths key (.list (ts.map .text)) = (ts, []) := by
  have hitems (n : Nat) : ((ts.map Value.text).zipIdx n).map (readItem key) = ts.map .ok := by
    induction ts generalizing n with
    | nil => rfl
    | cons t ts ih => rw [List.map_cons, List.zipIdx_cons, List.map_cons, ih, List.map_cons]; rfl
  rw [readPaths_list, hitems, List.filterMap_map, List.filterMap_map]
  refine Prod.ext_iff.2 ⟨List.filterMap_some, List.filterMap_eq_nil_iff.2 fun t _ => rfl⟩

theorem exists_texts {xs : List Value} (h : ∀ x ∈ xs, ∃ s, x = .text s) :
    ∃ ts : List String, xs = ts.map .text := by
  induction xs with
  | nil => exact ⟨[], rfl⟩
  | cons x xs ih =>
    obtain ⟨⟨s, rfl⟩, hxs⟩ := List.forall_mem_cons.1 h
    obtain ⟨ts, rfl⟩ := ih hxs
    exact ⟨s :: ts, rfl⟩

/-- The only lists without issues are lists of texts. -/
theorem readPaths_list_eq_nil {xs : List Value} :
    (readPaths key (.list xs)).2 = [] ↔ ∃ ts : List String, xs = ts.map .text := by
  constructor
  · intro h
    refine exists_texts fun x hx => ?_
    by_contra hne
    obtain ⟨n, hn, rfl⟩ := List.getElem_of_mem hx
    have hitem : readItem key (xs[n], n) = _ := readItem_of_ne (fun s hs => hne ⟨s, hs⟩) n
    rw [readPaths_list, List.filterMap_eq_nil_iff] at h
    have hnone := h _ (List.mem_map_of_mem (List.mk_mem_zipIdx_iff_getElem?.2
      (List.getElem?_eq_getElem hn)))
    rw [hitem] at hnone
    cases hnone
  · rintro ⟨ts, rfl⟩
    rw [readPaths_texts]

theorem exists_texts_of_readPaths (h : (readPaths key v).2 = []) :
    ∃ ts : List String, v = .list (ts.map .text) := by
  by_cases hv : ∃ xs, v = .list xs
  · obtain ⟨xs, rfl⟩ := hv
    obtain ⟨ts, rfl⟩ := readPaths_list_eq_nil.1 h
    exact ⟨ts, rfl⟩
  · rw [readPaths_of_ne fun xs hxs => hv ⟨xs, hxs⟩] at h
    cases h

theorem problem_of_mem_readPaths_list {xs : List Value}
    (h : issue ∈ (readPaths key (.list xs)).2) : issue.problem = .textExpected := by
  obtain ⟨r, hr, hissue⟩ := List.mem_filterMap.1 (readPaths_list key xs ▸ h)
  obtain ⟨⟨x, n⟩, -, rfl⟩ := List.mem_map.1 hr
  by_cases hx : ∃ s, x = .text s
  · obtain ⟨s, rfl⟩ := hx
    cases hissue
  · rw [readItem_of_ne fun s hs => hx ⟨s, hs⟩] at hissue
    cases hissue
    rfl

/-! ### Giving an option a value -/

theorem pathIssues_insert (v : Value) (raw : Entries) :
    pathIssues (raw.insert (.text "ignorePaths") v) = (readPaths "ignorePaths" v).2 := by
  rw [pathIssues, pathNames, given?_insert_self]
  rfl

theorem sectionGiven?_insert_paths (rule : Rule) (v : Value) (raw : Entries) :
    sectionGiven? rule (raw.insert (.text "ignorePaths") v) = sectionGiven? rule raw := by
  unfold sectionGiven? sectionNames
  rw [given?_insert_of_ne (by decide) (by decide)]

theorem given?_insert_section (v : Value) (raw : Entries) :
    given? (raw.insert (.text "allowSection") v) pathNames = given? raw pathNames :=
  given?_insert_of_ne (by decide) (by decide) v raw

theorem sectionGiven?_insert_section (v : Value) (raw : Entries) :
    sectionGiven? .brandMarginPolicy (raw.insert (.text "allowSection") v) =
      some ("allowSection", v) :=
  given?_insert_self "allowSection" "allow_section" v raw

theorem unknownIssues_insert_paths (rule : Rule) (v : Value) (raw : Entries) :
    unknownIssues rule (raw.insert (.text "ignorePaths") v) = [] ↔
      unknownIssues rule raw = [] ∧ raw.getText? "ignore_paths" = none := by
  have hother : "ignore_paths" ∉ givenNames (sectionGiven? rule raw) := fun h =>
    absurd (mem_sectionNames h) (by decide)
  rw [unknownIssues_eq_nil, unknownIssues_eq_nil, sectionGiven?_insert_paths, pathNames,
    given?_insert_self]
  exact known_insert (a := "ignorePaths") (by decide) hother v

theorem unknownIssues_insert_section (v : Value) (raw : Entries) :
    unknownIssues .brandMarginPolicy (raw.insert (.text "allowSection") v) = [] ↔
      unknownIssues .brandMarginPolicy raw = [] ∧ raw.getText? "allow_section" = none := by
  have hother : "allow_section" ∉ givenNames (given? raw pathNames) := fun h =>
    absurd (mem_of_mem_givenNames h) (by decide)
  rw [unknownIssues_eq_nil, unknownIssues_eq_nil, given?_insert_section,
    sectionGiven?_insert_section, known_append_comm _ (givenNames (some _)),
    known_append_comm _ (givenNames (sectionGiven? _ raw))]
  exact known_insert (a := "allowSection") (by decide) hother v

end DesignTokens.Lint.Options
