import DesignTokens.Lint.Config
import DesignTokens.Proofs.Lint.Options

/-!
# Overridden options

An override adds paths to the ignored ones and sets the permission for sections before the options
are checked, and it only knows the first names of both. It turns an option that is given under its
other name into an unknown one (`Respells`), and the issues with what it takes for a list or replaces
are not found any more (`Hides`). `issues_overrideOptions` says when overridden options are accepted,
`value_overrideOptions` what they come to.
-/

namespace DesignTokens.Lint

open Options

variable {rule : Rule} {paths : List String} {allowSection : Bool} {raw raw' : Entries}
  {issue : OptionIssue}

/-! ### Ignored paths, and sections -/

/-- What ignored paths are added to. -/
def givenPaths (raw : Entries) : Value := (raw.getText? "ignorePaths").getD (.list [])

def addPaths (paths : List String) (raw : Entries) : Except NotIterable Entries :=
  if paths = [] then .ok raw
  else (items (givenPaths raw)).map fun old =>
    raw.insert (.text "ignorePaths") (.list (old ++ paths.map .text))

def permitSections (rule : Rule) (allowSection : Bool) (raw : Entries) : Entries :=
  if allowSection ∧ rule = .brandMarginPolicy then raw.insert (.text "allowSection") (.bool true)
  else raw

theorem overrideOptions_eq (rule : Rule) (paths : List String) (allowSection : Bool)
    (raw : Entries) : overrideOptions rule paths allowSection raw =
      (addPaths paths raw).map (permitSections rule allowSection) := by
  have hsections (options : Entries) :
      (if allowSection && rule == .brandMarginPolicy then
          .ok (options.insert (.text "allowSection") (.bool true))
        else .ok options : Except NotIterable Entries) =
      .ok (permitSections rule allowSection options) := by
    unfold permitSections
    cases allowSection <;> cases rule <;> rfl
  cases paths with
  | nil => exact hsections raw
  | cons p ps =>
    show items (givenPaths raw) >>= _ = Except.map _ ((items (givenPaths raw)).map _)
    cases items (givenPaths raw) with
    | error e => rfl
    | ok old => exact hsections _

theorem addPaths_ok_iff : (∃ mid, addPaths paths raw = .ok mid) ↔
    paths = [] ∨ ∃ old, items (givenPaths raw) = .ok old := by
  unfold addPaths
  split
  · rename_i hpaths
    exact ⟨fun _ => .inl hpaths, fun _ => ⟨raw, rfl⟩⟩
  · rename_i hpaths
    cases items (givenPaths raw) with
    | error e => exact ⟨nofun, fun h => nomatch h.resolve_left hpaths⟩
    | ok old => exact ⟨fun _ => .inr ⟨old, rfl⟩, fun _ => ⟨_, rfl⟩⟩

theorem overrideOptions_ok_iff : (∃ raw', overrideOptions rule paths allowSection raw = .ok raw') ↔
    paths = [] ∨ ∃ old, items (givenPaths raw) = .ok old := by
  rw [← addPaths_ok_iff, overrideOptions_eq]
  cases addPaths paths raw with
  | error e => exact ⟨nofun, nofun⟩
  | ok mid => exact ⟨fun _ => ⟨mid, rfl⟩, fun _ => ⟨_, rfl⟩⟩

/-- Without overrides options stay as they are. -/
theorem overrideOptions_nil (rule : Rule) (raw : Entries) :
    overrideOptions rule [] false raw = .ok raw := by
  cases rule <;> rfl

theorem addPaths_cases {mid : Entries} (h : addPaths paths raw = .ok mid) :
    paths = [] ∧ mid = raw ∨ paths ≠ [] ∧ ∃ old, items (givenPaths raw) = .ok old ∧
      mid = raw.insert (.text "ignorePaths") (.list (old ++ paths.map .text)) := by
  unfold addPaths at h
  split at h
  · rename_i hpaths
    cases h
    exact .inl ⟨hpaths, rfl⟩
  · rename_i hpaths
    cases hitems : items (givenPaths raw) with
    | error e =>
      rw [hitems] at h
      cases h
    | ok old =>
      rw [hitems] at h
      cases h
      exact .inr ⟨hpaths, old, rfl, rfl⟩

theorem permitSections_cases (rule : Rule) (allowSection : Bool) (raw : Entries) :
    ¬(allowSection ∧ rule = .brandMarginPolicy) ∧ permitSections rule allowSection raw = raw ∨
      allowSection ∧ rule = .brandMarginPolicy ∧
        permitSections rule allowSection raw = raw.insert (.text "allowSection") (.bool true) := by
  unfold permitSections
  split
  · rename_i h
    exact .inr ⟨h.1, h.2, rfl⟩
  · rename_i h
    exact .inl ⟨h, rfl⟩

/-! ### Issues with overridden options -/

/-- The items of the value are texts. -/
def HasTexts (v : Value) : Prop := ∃ ts : List String, items v = .ok (ts.map .text)

/-- The override gives a value to an option that is given under its other name. -/
def Respells (paths : List String) (allowSection : Bool) (rule : Rule) (raw : Entries) : Prop :=
  paths ≠ [] ∧ raw.getText? "ignore_paths" ≠ none ∨
    allowSection ∧ rule = .brandMarginPolicy ∧ raw.getText? "allow_section" ≠ none

/-- The override hides the issue: it takes what is no list for the list of its items, and these are
texts, or it replaces what is no truth value. -/
def Hides (paths : List String) (allowSection : Bool) (rule : Rule) (raw : Entries)
    (issue : OptionIssue) : Prop :=
  paths ≠ [] ∧ issue = ⟨.listExpected, .text "ignorePaths", none⟩ ∧ HasTexts (givenPaths raw) ∨
    allowSection ∧ rule = .brandMarginPolicy ∧ issue = ⟨.truthExpected, .text "allowSection", none⟩

theorem not_respells_iff : ¬Respells paths allowSection rule raw ↔
    (paths ≠ [] → raw.getText? "ignore_paths" = none) ∧
      (allowSection ∧ rule = .brandMarginPolicy → raw.getText? "allow_section" = none) := by
  rw [Respells, not_or, not_and, not_not, ← and_assoc, not_and, not_not]

theorem problem_of_hides (h : Hides paths allowSection rule raw issue) :
    paths ≠ [] ∧ issue.problem = .listExpected ∨
      (allowSection ∧ rule = .brandMarginPolicy) ∧ issue.problem = .truthExpected := by
  rcases h with ⟨hpaths, rfl, -⟩ | ⟨hallow, hrule, rfl⟩
  · exact .inl ⟨hpaths, rfl⟩
  · exact .inr ⟨⟨hallow, hrule⟩, rfl⟩

theorem hasTexts_list {xs : List Value} :
    HasTexts (.list xs) ↔ (readPaths "ignorePaths" (.list xs)).2 = [] := by
  rw [readPaths_list_eq_nil]
  exact exists_congr fun ts => Except.ok.injEq xs (ts.map .text) ▸ Iff.rfl

theorem forall_hides_pathIssues (hpaths : paths ≠ [])
    (hother : raw.getText? "ignore_paths" = none) :
    (∀ issue ∈ pathIssues raw, Hides paths allowSection rule raw issue) ↔
      HasTexts (givenPaths raw) := by
  rw [pathIssues, pathNames, given?_of_none hother]
  unfold Hides
  rw [givenPaths]
  cases raw.getText? "ignorePaths" with
  | none => exact ⟨fun _ => ⟨[], rfl⟩, fun _ => List.forall_mem_nil _⟩
  | some v =>
    show (∀ issue ∈ (readPaths "ignorePaths" v).2, _) ↔ HasTexts v
    by_cases hv : ∃ xs, v = .list xs
    · obtain ⟨xs, rfl⟩ := hv
      rw [hasTexts_list, List.eq_nil_iff_forall_not_mem]
      refine forall₂_congr fun issue hissue => ⟨fun h => ?_, False.elim⟩
      have hproblem := problem_of_mem_readPaths_list hissue
      rcases h with ⟨-, rfl, -⟩ | ⟨-, -, rfl⟩ <;> cases hproblem
    · rw [readPaths_of_ne fun xs hxs => hv ⟨xs, hxs⟩]
      constructor
      · intro h
        rcases h _ List.mem_cons_self with ⟨-, -, htexts⟩ | ⟨-, -, hissue⟩
        · exact htexts
        · cases hissue
      · rintro htexts issue hissue
        exact .inl ⟨hpaths, List.mem_singleton.1 hissue, htexts⟩

theorem problem_of_mem_pathIssues (h : issue ∈ pathIssues raw) :
    issue.problem ≠ .truthExpected := by
  unfold pathIssues at h
  cases hgiven : given? raw pathNames with
  | none =>
    rw [hgiven] at h
    cases h
  | some p =>
    obtain ⟨key, v⟩ := p
    rw [hgiven] at h
    by_cases hv : ∃ xs, v = .list xs
    · obtain ⟨xs, rfl⟩ := hv
      rw [problem_of_mem_readPaths_list h]
      decide
    · rw [Option.map_some, readPaths_of_ne fun xs hxs => hv ⟨xs, hxs⟩] at h
      rw [List.mem_singleton.1 h]
      exact OptionProblem.noConfusion

theorem given?_permitSections (rule : Rule) (allowSection : Bool) (raw : Entries) :
    given? (permitSections rule allowSection raw) pathNames = given? raw pathNames := by
  rcases permitSections_cases rule allowSection raw with ⟨-, hraw⟩ | ⟨-, -, hraw⟩
  · rw [hraw]
  · rw [hraw, given?_insert_section]

theorem pathIssues_overridden {mid : Entries} (h : addPaths paths raw = .ok mid)
    (hother : paths ≠ [] → raw.getText? "ignore_paths" = none) :
    pathIssues (permitSections rule allowSection mid) = [] ↔
      ∀ issue ∈ pathIssues raw, Hides paths allowSection rule raw issue := by
  rw [pathIssues, given?_permitSections, ← pathIssues]
  obtain ⟨rfl, rfl⟩ | ⟨hpaths, old, hold, rfl⟩ := addPaths_cases h
  · rw [List.eq_nil_iff_forall_not_mem]
    refine forall₂_congr fun issue hissue => ⟨False.elim, fun h => ?_⟩
    rcases problem_of_hides h with ⟨hne, -⟩ | ⟨-, hproblem⟩
    · exact hne rfl
    · exact problem_of_mem_pathIssues hissue hproblem
  · rw [forall_hides_pathIssues hpaths (hother hpaths), HasTexts, hold, pathIssues_insert,
      readPaths_list_eq_nil]
    constructor
    · rintro ⟨ts, hts⟩
      have hold : ∀ x ∈ old, ∃ s, x = Value.text s := fun x hx => by
        obtain ⟨s, -, rfl⟩ := List.mem_map.1 (hts ▸ List.mem_append_left _ hx)
        exact ⟨s, rfl⟩
      obtain ⟨ts', rfl⟩ := exists_texts hold
      exact ⟨ts', rfl⟩
    · rintro ⟨ts, hts⟩
      cases hts
      exact ⟨ts ++ paths, List.map_append.symm⟩

theorem sectionGiven?_addPaths {mid : Entries} (h : addPaths paths raw = .ok mid) :
    sectionGiven? rule mid = sectionGiven? rule raw := by
  obtain ⟨-, rfl⟩ | ⟨-, old, -, rfl⟩ := addPaths_cases h
  · rfl
  · exact sectionGiven?_insert_paths ..

theorem problem_of_mem_sectionIssues (h : issue ∈ sectionIssues rule raw) :
    issue.problem = .truthExpected := by
  unfold sectionIssues at h
  cases hgiven : sectionGiven? rule raw with
  | none =>
    rw [hgiven] at h
    cases h
  | some p =>
    obtain ⟨key, v⟩ := p
    rw [hgiven, Option.map_some, Option.getD_some] at h
    cases v with
    | bool b => cases h
    | _ => rw [List.mem_singleton.1 h]

theorem sectionIssues_overridden {mid : Entries} (h : addPaths paths raw = .ok mid)
    (hother : allowSection ∧ rule = .brandMarginPolicy → raw.getText? "allow_section" = none) :
    sectionIssues rule (permitSections rule allowSection mid) = [] ↔
      ∀ issue ∈ sectionIssues rule raw, Hides paths allowSection rule raw issue := by
  rcases permitSections_cases rule allowSection mid with ⟨hsection, hmid⟩ | ⟨hallow, rfl, hmid⟩
  · rw [hmid, sectionIssues, sectionGiven?_addPaths h, ← sectionIssues,
      List.eq_nil_iff_forall_not_mem]
    refine forall₂_congr fun issue hissue => ⟨False.elim, fun h => ?_⟩
    rcases problem_of_hides h with ⟨-, hproblem⟩ | ⟨hpermit, -⟩
    · rw [problem_of_mem_sectionIssues hissue] at hproblem
      cases hproblem
    · exact hsection hpermit
  · rw [hmid, sectionIssues, sectionGiven?_insert_section]
    refine ⟨fun _ issue hissue => .inr ⟨hallow, rfl, ?_⟩, fun _ => rfl⟩
    rw [sectionIssues, sectionGiven?, if_pos rfl, sectionNames,
      given?_of_none (hother ⟨hallow, rfl⟩)] at hissue
    cases hget : raw.getText? "allowSection" with
    | none =>
      rw [hget] at hissue
      cases hissue
    | some v =>
      rw [hget, Option.map_some, Option.map_some, Option.getD_some] at hissue
      cases v with
      | bool b => cases hissue
      | _ => exact List.mem_singleton.1 hissue

theorem problem_of_mem_unknownIssues (h : issue ∈ unknownIssues rule raw) :
    issue.problem = .unknownOption ∨ issue.problem = .keyNotText := by
  obtain ⟨e, -, hissue⟩ := List.mem_filterMap.1 h
  unfold unknownIssue? at hissue
  split at hissue
  · split at hissue
    · cases hissue
    · cases hissue
      exact .inl rfl
  · cases hissue
    exact .inr rfl

theorem forall_hides_unknownIssues :
    (∀ issue ∈ unknownIssues rule raw, Hides paths allowSection rule raw issue) ↔
      unknownIssues rule raw = [] := by
  refine ⟨fun h => List.eq_nil_iff_forall_not_mem.2 fun issue hissue => ?_, fun h => ?_⟩
  · have hhidden : issue.problem = .listExpected ∨ issue.problem = .truthExpected :=
      (problem_of_hides (h issue hissue)).imp And.right And.right
    rcases problem_of_mem_unknownIssues hissue with hproblem | hproblem
    all_goals
      rw [hproblem] at hhidden
      exact absurd hhidden (by decide)
  · rw [h]
    exact List.forall_mem_nil _

theorem unknownIssues_overridden {mid : Entries} (h : addPaths paths raw = .ok mid) :
    unknownIssues rule (permitSections rule allowSection mid) = [] ↔
      unknownIssues rule raw = [] ∧ ¬Respells paths allowSection rule raw := by
  have hpaths : unknownIssues rule mid = [] ↔
      unknownIssues rule raw = [] ∧ (paths ≠ [] → raw.getText? "ignore_paths" = none) := by
    obtain ⟨rfl, rfl⟩ | ⟨hne, old, -, rfl⟩ := addPaths_cases h
    · exact ⟨fun hnil => ⟨hnil, fun hne => absurd rfl hne⟩, (·.1)⟩
    · rw [unknownIssues_insert_paths]
      exact and_congr_right fun _ => ⟨fun hnone _ => hnone, fun hnone => hnone hne⟩
  have hother : mid.getText? "allow_section" = raw.getText? "allow_section" := by
    obtain ⟨-, rfl⟩ | ⟨-, old, -, rfl⟩ := addPaths_cases h
    · rfl
    · exact Entries.getText?_insert_of_ne (by decide) ..
  rw [not_respells_iff, ← and_assoc, ← hpaths, ← hother]
  rcases permitSections_cases rule allowSection mid with ⟨hsection, hmid⟩ | ⟨hallow, rfl, hmid⟩
  · rw [hmid]
    exact ⟨fun hnil => ⟨hnil, fun hpermit => absurd hpermit hsection⟩, (·.1)⟩
  · rw [hmid, unknownIssues_insert_section]
    exact and_congr_right fun _ => ⟨fun hnone _ => hnone, fun hnone => hnone ⟨hallow, rfl⟩⟩

/-- Overridden options are accepted if the override hides all issues and respells no option. -/
theorem issues_overrideOptions (h : overrideOptions rule paths allowSection raw = .ok raw') :
    Options.issues rule raw' = [] ↔ ¬Respells paths allowSection rule raw ∧
      ∀ issue ∈ Options.issues rule raw, Hides paths allowSection rule raw issue := by
  rw [overrideOptions_eq] at h
  cases hmid : addPaths paths raw with
  | error e =>
    rw [hmid] at h
    cases h
  | ok mid =>
    rw [hmid] at h
    cases h
    simp only [Options.issues, List.append_eq_nil_iff, List.forall_mem_append,
      unknownIssues_overridden hmid, forall_hides_unknownIssues]
    by_cases hrespells : Respells paths allowSection rule raw
    · exact ⟨fun h => absurd hrespells h.2.2, fun h => absurd hrespells h.1⟩
    · obtain ⟨hpaths, hsection⟩ := not_respells_iff.1 hrespells
      rw [pathIssues_overridden hmid hpaths, sectionIssues_overridden hmid hsection]
      exact ⟨fun ⟨hfirst, hunknown, hnot⟩ => ⟨hnot, hfirst, hunknown⟩,
        fun ⟨hnot, hfirst, hunknown⟩ => ⟨hfirst, hunknown, hnot⟩⟩

theorem ignorePaths_overridden {mid : Entries} (h : addPaths paths raw = .ok mid)
    (haccepted : pathIssues raw = []) (hother : paths ≠ [] → raw.getText? "ignore_paths" = none) :
    (Options.value rule (permitSections rule allowSection mid)).ignorePaths =
      (Options.value rule raw).ignorePaths ++ paths := by
  unfold Options.value
  dsimp only
  rw [given?_permitSections]
  obtain ⟨rfl, rfl⟩ | ⟨hpaths, old, hold, rfl⟩ := addPaths_cases h
  · rw [List.append_nil]
  · have hgiven := given?_of_none (a := "ignorePaths") (hother hpaths)
    rw [pathIssues, pathNames, hgiven] at haccepted
    rw [pathNames, given?_insert_self, hgiven]
    rw [givenPaths] at hold
    cases hget : raw.getText? "ignorePaths" with
    | none =>
      rw [hget] at hold
      cases hold
      exact congrArg Prod.fst (readPaths_texts "ignorePaths" paths)
    | some v =>
      rw [hget] at hold haccepted
      obtain ⟨ts, rfl⟩ := exists_texts_of_readPaths haccepted
      cases hold
      show (readPaths "ignorePaths" _).1 = (readPaths "ignorePaths" _).1 ++ paths
      rw [← List.map_append, readPaths_texts, readPaths_texts]

theorem allowSection_overridden {mid : Entries} (h : addPaths paths raw = .ok mid) :
    (Options.value rule (permitSections rule allowSection mid)).allowSection =
      ((Options.value rule raw).allowSection || (allowSection && rule == .brandMarginPolicy)) := by
  unfold Options.value
  dsimp only
  rcases permitSections_cases rule allowSection mid with ⟨hsection, hmid⟩ | ⟨hallow, rfl, hmid⟩
  · have hfalse : (allowSection && rule == .brandMarginPolicy) = false := by
      rw [Bool.eq_false_iff, Ne, Bool.and_eq_true, beq_iff_eq]
      exact hsection
    rw [hmid, sectionGiven?_addPaths h, hfalse, Bool.or_false]
  · rw [hmid, sectionGiven?_insert_section, hallow]
    exact (Bool.or_true _).symm

/-- What accepted options come to when they are overridden. -/
theorem value_overrideOptions (h : overrideOptions rule paths allowSection raw = .ok raw')
    (haccepted : Options.issues rule raw = [])
    (hrespells : ¬Respells paths allowSection rule raw) :
    Options.value rule raw' = ⟨(Options.value rule raw).ignorePaths ++ paths,
      (Options.value rule raw).allowSection || (allowSection && rule == .brandMarginPolicy)⟩ := by
  rw [overrideOptions_eq] at h
  rw [Options.issues, List.append_eq_nil_iff, List.append_eq_nil_iff] at haccepted
  cases hmid : addPaths paths raw with
  | error e =>
    rw [hmid] at h
    cases h
  | ok mid =>
    rw [hmid] at h
    cases h
    rw [← allowSection_overridden hmid,
      ← ignorePaths_overridden hmid haccepted.1.1 (not_respells_iff.1 hrespells).1]

end DesignTokens.Lint
