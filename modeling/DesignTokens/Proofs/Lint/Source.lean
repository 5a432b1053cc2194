import DesignTokens.Proofs.Jsx.Scan
import DesignTokens.Proofs.Lint.Diagnostic
import DesignTokens.Proofs.Lint.Rule
import Mathlib

/-!
# What linting reports

Linting goes element by element and sorts, while `owed` goes rule by rule. `lintSource_accounts`
says that the diagnostics are those that are owed, in order of place. At one place they keep the
order of `owed`, since all that is reported there is about a single attribute
(`Jsx.offsets_differ_of_scan`). `lintSource_recovers`: linting fails only at a symbolic digit.
`lintSource_grounded`: a diagnostic points at a class attribute of the text.
-/

namespace DesignTokens

section Swap

variable {α β γ : Type} {f : α → β → List γ} {xs : List α} {ys : List β}

theorem flatMap_swap_perm (xs : List α) (ys : List β) :
    (xs.flatMap fun x => ys.flatMap (f x)).Perm (ys.flatMap fun y => xs.flatMap (f · y)) := by
  induction xs with
  | nil => simp
  | cons x xs ih =>
    simp only [List.flatMap_cons]
    exact (ih.append_left _).trans (List.flatMap_append_perm ys _ _)

/-- The order of the visits does not matter if all is found in one row. -/
theorem flatMap_swap_of_pairwise
    (h : xs.Pairwise fun x x' => (∀ y ∈ ys, f x y = []) ∨ ∀ y ∈ ys, f x' y = []) :
    (xs.flatMap fun x => ys.flatMap (f x)) = ys.flatMap fun y => xs.flatMap (f · y) := by
  induction xs with
  | nil => simp
  | cons x xs ih =>
    obtain ⟨hx, hxs⟩ := List.pairwise_cons.1 h
    by_cases hempty : ∀ y ∈ ys, f x y = []
    · have hfront : ys.flatMap (f x) = [] := List.flatMap_eq_nil_iff.2 hempty
      simp only [List.flatMap_cons]
      rw [hfront, List.nil_append, ih hxs]
      exact List.flatMap_congr fun y hy => by rw [hempty y hy, List.nil_append]
    · have hback (x' : α) (hx' : x' ∈ xs) (y : β) (hy : y ∈ ys) : f x' y = [] :=
        (hx x' hx').resolve_left hempty y hy
      have hrow : (xs.flatMap fun x => ys.flatMap (f x)) = [] :=
        List.flatMap_eq_nil_iff.2 fun x' hx' => List.flatMap_eq_nil_iff.2 (hback x' hx')
      simp only [List.flatMap_cons]
      rw [hrow, List.append_nil]
      refine List.flatMap_congr fun y hy => ?_
      rw [List.flatMap_eq_nil_iff.2 fun x' hx' => hback x' hx' y hy, List.append_nil]

end Swap

namespace Lint

open Jsx (Attribute Element)
open Script (SymbolicDigit)

variable {file : String} {source : List Char} {es : List Element} {r : ResolvedRule}
  {rules : List ResolvedRule} {active : List ActiveRule} {d : Diagnostic} {ds : List Diagnostic}

theorem flatMap_checkElement (active : List ActiveRule) (file : String) (source : List Char)
    (es : List Element) : es.flatMap (checkElement active file source) =
      es.flatMap fun e => active.flatMap (·.elementReports file source e) :=
  List.flatMap_congr fun e _ => List.flatMap_congr fun r _ => r.check_contexts file source e

/-- What is owed at one place is about a single attribute, so that it does not matter whether the
elements or the rules come first. -/
theorem filter_checkElement (hscan : Jsx.scan source = .ok es)
    (hactive : activateAll (some file) rules = .ok active) (l : Location) :
    (es.flatMap (checkElement active file source)).filter (·.location = l) =
      (owed file source es rules).filter (·.location = l) := by
  rw [flatMap_checkElement, owed_eq_of_activateAll hactive]
  simp only [List.filter_flatMap]
  refine flatMap_swap_of_pairwise ?_
  refine List.Pairwise.imp_of_mem (fun {e e'} he he' hdiffer => ?_)
    (Jsx.offsets_differ_of_scan hscan)
  -- whoever owes something at `l` has a class attribute there
  have hattribute (e : Element) (he : e ∈ es) (h : ¬ ∀ r ∈ active,
      (r.elementReports file source e).filter (·.location = l) = []) :
      ∃ a ∈ e.attributes, a.offset ≤ source.length ∧ .ofOffset source a.offset = l := by
    simp only [Classical.not_forall] at h
    obtain ⟨r, hr, h⟩ := h
    obtain ⟨d, hd⟩ := List.exists_mem_of_ne_nil _ h
    rw [List.mem_filter, decide_eq_true_eq] at hd
    obtain ⟨a, ha, data, rfl, -⟩ := ActiveRule.of_mem_elementReports hd.1
    have ha := (List.mem_filter.1 ha).1
    exact ⟨a, ha, Nat.le_of_lt (Jsx.written_of_scan hscan he ha).1, hd.2⟩
  by_cases h : ∀ r ∈ active, (r.elementReports file source e).filter (·.location = l) = []
  · exact .inl h
  by_cases h' : ∀ r ∈ active, (r.elementReports file source e').filter (·.location = l) = []
  · exact .inr h'
  obtain ⟨a, ha, hlength, hl⟩ := hattribute e he h
  obtain ⟨a', ha', hlength', hl'⟩ := hattribute e' he' h'
  exact absurd (Location.ofOffset_inj hlength hlength' (hl.trans hl'.symm)) (hdiffer a ha a' ha')

/-- A text is linted by what its scan finds, unless no rule is used on it. -/
theorem lintSource_cases (h : lintSource source file rules = .ok ds) :
    ∃ active, activateAll (some file) rules = .ok active ∧
      (active = [] ∧ ds = [] ∨ ∃ es, Jsx.scan source = .ok es ∧
        ds = Diagnostic.sort (es.flatMap (checkElement active file source))) := by
  unfold lintSource at h
  obtain ⟨active, hactive, h⟩ := ok_of_bind h
  refine ⟨active, ok_of_mapError hactive, ?_⟩
  split at h
  · rename_i hempty
    cases h
    exact .inl ⟨List.isEmpty_iff.1 hempty, rfl⟩
  · obtain ⟨es, hes, h⟩ := ok_of_bind h
    cases h
    exact .inr ⟨es, ok_of_mapError hes, rfl⟩

/-- The diagnostics are what the rules owe on the elements of a text, in order of place. -/
structure Accounts (file : String) (source : List Char) (es : List Element)
    (rules : List ResolvedRule) (ds : List Diagnostic) : Prop where
  /-- Nothing is lost and nothing is reported twice. -/
  complete : ds.Perm (owed file source es rules)
  ordered : ds.Pairwise fun d d' => d.location ≤ d'.location
  /-- At one place the rules come in order, and the reports of a rule in order of extraction. -/
  stable : ∀ l, ds.filter (·.location = l) = (owed file source es rules).filter (·.location = l)
  /-- A diagnostic tells where it comes from. -/
  carried : ∀ d ∈ ds, d.file = file ∧ (∃ r ∈ rules, d.rule = r.rule.id ∧ d.severity = r.severity) ∧
    ∃ e ∈ es, ∃ a ∈ classAttributes e, d.location = .ofOffset source a.offset

theorem accounts_of_scan (hscan : Jsx.scan source = .ok es)
    (hactive : activateAll (some file) rules = .ok active) :
    Accounts file source es rules
      (Diagnostic.sort (es.flatMap (checkElement active file source))) := by
  have hfound : (es.flatMap (checkElement active file source)).Perm
      (owed file source es rules) := by
    rw [flatMap_checkElement, owed_eq_of_activateAll hactive]
    exact flatMap_swap_perm es active
  have hperm := (Diagnostic.sort_perm _).trans hfound
  have hcarried (d : Diagnostic)
      (hd : d ∈ Diagnostic.sort (es.flatMap (checkElement active file source))) :
      d.file = file ∧ (∃ r ∈ rules, d.rule = r.rule.id ∧ d.severity = r.severity) ∧
        ∃ e ∈ es, ∃ a ∈ classAttributes e, d.location = .ofOffset source a.offset := by
    obtain ⟨r, hr, o, e, he, hd⟩ := of_mem_owed (hperm.subset hd)
    obtain ⟨a, ha, data, rfl, -⟩ := ActiveRule.of_mem_elementReports hd
    exact ⟨rfl, ⟨r, hr, rfl, rfl⟩, e, he, a, ha, rfl⟩
  refine ⟨hperm, ?_, fun l => ?_, hcarried⟩
  · refine (Diagnostic.sort_pairwise _).imp_of_mem fun hd hd' hle => ?_
    rw [Diagnostic.le_iff, (hcarried _ hd).1, (hcarried _ hd').1] at hle
    exact (hle.resolve_left (String.lt_irrefl file)).2
  · rw [Diagnostic.filter_sort, filter_checkElement hscan hactive]
    intro d hd d' hd' hl hl'
    rw [decide_eq_true_eq] at hl hl'
    have hfile := (hcarried d ((Diagnostic.sort_perm _).symm.subset hd)).1
    have hfile' := (hcarried d' ((Diagnostic.sort_perm _).symm.subset hd')).1
    rw [Diagnostic.le_iff, Location.le_def, hl, hl']
    exact .inr ⟨hfile.trans hfile'.symm, .inr ⟨rfl, Nat.le_refl _⟩⟩

theorem accounts_of_lintSource (h : lintSource source file rules = .ok ds)
    (hscan : Jsx.scan source = .ok es) : Accounts file source es rules ds := by
  obtain ⟨active, hactive, ⟨rfl, rfl⟩ | ⟨es', hscan', rfl⟩⟩ := lintSource_cases h
  · have haccounts := accounts_of_scan hscan hactive
    have hnone : es.flatMap (checkElement [] file source) = [] :=
      List.flatMap_eq_nil_iff.2 fun _ _ => rfl
    rwa [hnone, Diagnostic.sort, List.mergeSort_nil] at haccounts
  · cases hscan.symm.trans hscan'
    exact accounts_of_scan hscan hactive

theorem exempts_of_lintSource {e : SymbolicDigit} (h : lintSource source file rules = .ok ds)
    (hscan : Jsx.scan source = .error e) : (∀ r ∈ rules, r.Exempts file) ∧ ds = [] := by
  obtain ⟨active, hactive, ⟨rfl, rfl⟩ | ⟨es, hscan', -⟩⟩ := lintSource_cases h
  · exact ⟨fun r hr => exempts_of_activateAll hactive hr, rfl⟩
  · cases hscan.symm.trans hscan'

/-- Linting loses nothing, reports nothing twice, and orders what it reports. A text whose scan
fails is linted only if every rule exempts the file. -/
theorem lintSource_accounts (h : lintSource source file rules = .ok ds) :
    (∀ es, Jsx.scan source = .ok es → Accounts file source es rules ds) ∧
    (∀ d, Jsx.scan source = .error d → (∀ r ∈ rules, r.Exempts file) ∧ ds = []) :=
  ⟨fun _ hscan => accounts_of_lintSource h hscan, fun _ hscan => exempts_of_lintSource h hscan⟩

theorem lintSource_accounts_nested :
    ∃ es ds, Jsx.scan "<p a=\x7b<b className=\"m-2\"/>\x7d className=\"p-4\"/>".toList = .ok es ∧
      es.map (·.tag) = ["p", "b"] ∧
      lintSource "<p a=\x7b<b className=\"m-2\"/>\x7d className=\"p-4\"/>".toList "a.tsx"
        [⟨.brandClassnamesOnly, .error, []⟩, ⟨.brandMarginPolicy, .warn, []⟩] = .ok ds ∧
      Accounts "a.tsx" "<p a=\x7b<b className=\"m-2\"/>\x7d className=\"p-4\"/>".toList es
        [⟨.brandClassnamesOnly, .error, []⟩, ⟨.brandMarginPolicy, .warn, []⟩] ds := by
  have hscan : Jsx.scan "<p a=\x7b<b className=\"m-2\"/>\x7d className=\"p-4\"/>".toList =
      .ok [⟨"p", 0, [⟨"a", 3, some (.unparsed "<b className=\"m-2\"/>".toList)⟩,
        ⟨"className", 28, some (.string "p-4")⟩]⟩,
        ⟨"b", 6, [⟨"className", 9, some (.string "m-2")⟩]⟩] := by cbv
  obtain ⟨ds, h⟩ : ∃ ds,
      lintSource "<p a=\x7b<b className=\"m-2\"/>\x7d className=\"p-4\"/>".toList "a.tsx"
        [⟨.brandClassnamesOnly, .error, []⟩, ⟨.brandMarginPolicy, .warn, []⟩] = .ok ds := by
    unfold lintSource
    rw [hscan]
    exact ⟨_, rfl⟩
  exact ⟨_, ds, hscan, rfl, h, (lintSource_accounts h).1 _ hscan⟩

/-- If the options of all rules are accepted, linting gives a list, or it stops at a digit of the
text that is no decimal digit. -/
theorem lintSource_ok_or_symbolicDigit (h : ∀ r ∈ rules, r.Accepted) :
    (∃ ds, lintSource source file rules = .ok ds) ∨
      ∃ d : SymbolicDigit, lintSource source file rules = .error (.symbolicDigit d) ∧
        d.Occurs source := by
  obtain ⟨active, hactive⟩ := activateAll_ok h
  unfold lintSource
  rw [hactive]
  show (∃ ds, ite _ _ _ = _) ∨ ∃ d, ite _ _ _ = _ ∧ _
  split
  · exact .inl ⟨[], rfl⟩
  · cases hscan : Jsx.scan source with
    | ok es => exact .inl ⟨_, rfl⟩
    | error d => exact .inr ⟨d, rfl, Jsx.occurs_of_scan hscan⟩

/-- A diagnostic points at a class attribute, and the class name it is about stands in the text
behind the name of the attribute. -/
theorem lintSource_grounded (h : lintSource source file rules = .ok ds) (hd : d ∈ ds) :
    ∃ o, o < source.length ∧ d.location = .ofOffset source o ∧
      (∀ o' ≤ source.length, d.location = .ofOffset source o' → o' = o) ∧
      "className".toList <+: source.drop o ∧
      (∀ c, (source.drop (o + 9)).head? = some c → Jsx.isAttributeNamePart c = false) ∧
      ('\\' ∉ source → d.messageId = Policy.Utility.forbiddenClass →
        ∃ c, d.data.lookup "className" = some (.text c) ∧
          ∃ p, o + 9 < p ∧ c.toList <+: source.drop p) := by
  obtain ⟨active, hactive, ⟨rfl, rfl⟩ | ⟨es, hscan, -⟩⟩ := lintSource_cases h
  · cases hd
  have howed := (accounts_of_lintSource h hscan).complete.subset hd
  obtain ⟨r, -, o, e, he, hd⟩ := of_mem_owed howed
  obtain ⟨a, ha, data, rfl, hclass⟩ := ActiveRule.of_mem_elementReports hd
  obtain ⟨ha, hname⟩ := List.mem_filter.1 ha
  have hname : a.name = "className" := beq_iff_eq.1 hname
  obtain ⟨hlt, hwritten⟩ := Jsx.written_of_scan hscan he ha
  obtain ⟨hstands, hend⟩ := hwritten.name_stands
  have hdrop : (source.drop a.offset).drop a.name.toList.length = source.drop (a.offset + 9) := by
    rw [List.drop_drop, hname]
    rfl
  rw [hdrop] at hend
  refine ⟨a.offset, hlt, rfl, fun o' ho' heq => ?_, hname ▸ hstands, hend, fun hs hid => ?_⟩
  · exact Location.ofOffset_inj ho' (Nat.le_of_lt hlt) heq.symm
  · have hrule : r.rule = .brandClassnamesOnly := by
      cases hr : r.rule with
      | brandClassnamesOnly => rfl
      | brandMarginPolicy =>
        have hid : r.rule.messageId = Policy.Utility.forbiddenClass := hid
        rw [hr] at hid
        exact absurd hid (by decide)
    obtain ⟨c, hc, hdata⟩ := hclass hrule
    obtain ⟨w, hw, hcw⟩ := hwritten.classNames_stand (fun h => hs (List.drop_subset _ _ h)) hc
    rw [hdrop] at hw
    obtain ⟨n, hn, hfront⟩ := hw.drop_of_infix hcw
    rw [List.drop_drop] at hfront
    exact ⟨c, hdata, a.offset + 9 + n, by omega, hfront⟩

theorem lintSource_grounded_padding :
    ∃ d, lintSource "<p className=\"p-4\"/>".toList "a.tsx" [⟨.brandClassnamesOnly, .error, []⟩] =
        .ok [d] ∧
      ∃ o, d.location = .ofOffset "<p className=\"p-4\"/>".toList o ∧
        "className".toList <+: "<p className=\"p-4\"/>".toList.drop o ∧
        ∃ c, d.data.lookup "className" = some (.text c) ∧
          ∃ p, o + 9 < p ∧ c.toList <+: "<p className=\"p-4\"/>".toList.drop p := by
  have hscan : Jsx.scan "<p className=\"p-4\"/>".toList =
      .ok [⟨"p", 0, [⟨"className", 3, some (.string "p-4")⟩]⟩] := by cbv
  have h : lintSource "<p className=\"p-4\"/>".toList "a.tsx" [⟨.brandClassnamesOnly, .error, []⟩] =
      .ok [ActiveRule.report ⟨.brandClassnamesOnly, .error, ⟨[], false⟩⟩ "a.tsx" ⟨1, 4⟩
        [("className", .text "p-4"), ("suggestion", .text "p-brand-4")]] := by
    unfold lintSource
    rw [hscan]
    exact congrArg Except.ok (List.mergeSort_singleton _)
  obtain ⟨o, -, hlocation, -, hstands, -, hclass⟩ := lintSource_grounded h List.mem_cons_self
  exact ⟨_, h, o, hlocation, hstands, hclass (by decide) rfl⟩

end Lint

end DesignTokens
