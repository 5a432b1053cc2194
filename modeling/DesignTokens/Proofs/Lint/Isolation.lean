import DesignTokens.Lint.Reporter
import DesignTokens.Proofs.Lint.Source

/-!
# Rules do not disturb each other

Rules that share a reporter are called on elements in any order. A call only adds reports of the
rule that is called (`check_diagnostics`), so a run keeps what was reported before it, and the
reports of a rule are those of its own calls (`filter_reports`). Linting is such a run, element by
element, with its reports sorted. `reports_isolated` says for all runs, and so for all texts, that
a rule reports what it reports alone.
-/

namespace DesignTokens.Lint

open Jsx (Element)

/-- A rule is called on an element, given its class attributes. -/
structure Call where
  rule : ActiveRule
  tag : String
  contexts : List Jsx.Context

namespace Call

def reports (file : String) (c : Call) : List Diagnostic := c.rule.check file c.tag c.contexts

variable {file : String} {c : Call} {d : Diagnostic}

/-- Every report is about the rule that is called. -/
theorem rule_of_mem_reports (h : d ∈ c.reports file) : d.rule = c.rule.rule.id := by
  unfold reports ActiveRule.check at h
  cases hrule : c.rule.rule with
  | brandClassnamesOnly =>
    rw [hrule] at h
    obtain ⟨context, -, h⟩ := List.mem_flatMap.1 h
    rw [ActiveRule.filterMap_checkClass] at h
    obtain ⟨name, -, rfl⟩ := List.mem_map.1 h
    exact congrArg Rule.id hrule
  | brandMarginPolicy =>
    rw [hrule] at h
    dsimp only at h
    split at h
    · cases h
    · split at h
      · rw [List.mem_singleton.1 h]
        exact congrArg Rule.id hrule
      · cases h

theorem filter_reports (file : String) (id : String) (calls : List Call) :
    (calls.flatMap (·.reports file)).filter (·.rule = id) =
      (calls.filter (·.rule.rule.id = id)).flatMap (·.reports file) := by
  induction calls with
  | nil => rfl
  | cons c calls ih =>
    rw [List.flatMap_cons, List.filter_append, ih]
    by_cases hrule : c.rule.rule.id = id
    · have hall : (c.reports file).filter (·.rule = id) = c.reports file :=
        List.filter_eq_self.2 fun d hd => by simpa [rule_of_mem_reports hd] using hrule
      rw [List.filter_cons_of_pos (by simpa using hrule), List.flatMap_cons, hall]
    · have hnone : (c.reports file).filter (·.rule = id) = [] :=
        List.filter_eq_nil_iff.2 fun d hd => by simpa [rule_of_mem_reports hd] using hrule
      rw [List.filter_cons_of_neg (by simpa using hrule), hnone, List.nil_append]

end Call

namespace Reporter

/-- One call after another. -/
def run (r : Reporter) (calls : List Call) : Reporter :=
  calls.foldl (fun r c => r.check c.rule c.tag c.contexts) r

/-- A call adds reports behind those that are there. -/
theorem check_diagnostics (r : Reporter) (c : Call) :
    (r.check c.rule c.tag c.contexts).file = r.file ∧
      (r.check c.rule c.tag c.contexts).diagnostics = r.diagnostics ++ c.reports r.file :=
  ⟨rfl, rfl⟩

theorem run_diagnostics (r : Reporter) (calls : List Call) :
    (r.run calls).diagnostics = r.diagnostics ++ calls.flatMap (·.reports r.file) := by
  induction calls generalizing r with
  | nil => exact (List.append_nil _).symm
  | cons c calls ih =>
    obtain ⟨hfile, hcall⟩ := check_diagnostics r c
    have hrest := ih (r.check c.rule c.tag c.contexts)
    rw [hfile, hcall, List.append_assoc] at hrest
    exact hrest

theorem run_isPrefix (r : Reporter) (before after : List Call) :
    (r.run before).diagnostics <+: (r.run (before ++ after)).diagnostics := by
  rw [run_diagnostics, run_diagnostics, List.flatMap_append, ← List.append_assoc]
  exact List.prefix_append ..

end Reporter

/-! ### Linting as a run -/

section

variable {file : String} {source : List Char} {es : List Element} {r : ResolvedRule}
  {rules : List ResolvedRule} {active : List ActiveRule} {ds : List Diagnostic}

/-- The calls on the elements of a text. -/
def elementCalls (source : List Char) (es : List Element) (active : List ActiveRule) : List Call :=
  es.flatMap fun e => active.map fun r => ⟨r, e.tag, e.contexts source classAttribute⟩

theorem run_elementCalls (file : String) (source : List Char) (es : List Element)
    (active : List ActiveRule) :
    ((Reporter.new file).run (elementCalls source es active)).diagnostics =
      es.flatMap (checkElement active file source) := by
  rw [Reporter.run_diagnostics, elementCalls, List.flatMap_assoc]
  exact List.flatMap_congr fun e _ => List.flatMap_map ..

theorem filter_elementCalls (source : List Char) (es : List Element) (active : List ActiveRule)
    (id : String) : (elementCalls source es active).filter (·.rule.rule.id = id) =
      elementCalls source es (active.filter (·.rule.id = id)) := by
  unfold elementCalls
  rw [List.filter_flatMap]
  exact List.flatMap_congr fun e _ => List.filter_map

/-- The reports of one rule are those that it makes alone. -/
theorem filter_checkElements (file : String) (source : List Char) (es : List Element)
    (active : List ActiveRule) (id : String) :
    (es.flatMap (checkElement active file source)).filter (·.rule = id) =
      es.flatMap (checkElement (active.filter (·.rule.id = id)) file source) := by
  rw [← run_elementCalls, ← run_elementCalls, Reporter.run_diagnostics, Reporter.run_diagnostics,
    ← filter_elementCalls]
  exact Call.filter_reports file id _

/-- Whether a rule is used on the file depends on that rule only. -/
theorem activateAll_filter (id : String) (h : activateAll (some file) rules = .ok active) :
    activateAll (some file) (rules.filter (·.rule.id = id)) =
      .ok (active.filter (·.rule.id = id)) := by
  induction rules generalizing active with
  | nil =>
    cases h
    rfl
  | cons r rules ih =>
    rw [activateAll_cons] at h
    obtain ⟨used, hused, h⟩ := ok_of_bind h
    obtain ⟨rest, hrest, h⟩ := ok_of_bind h
    cases h
    have hrule : ∀ a ∈ used.toList, a.rule = r.rule := by
      obtain ⟨o, ho⟩ := accepted_of_activate hused
      rw [activate_of_read ho] at hused
      cases hused
      split
      · exact List.forall_mem_nil _
      · exact List.forall_mem_singleton.2 rfl
    rw [List.filter_append]
    by_cases hid : r.rule.id = id
    · have hall : used.toList.filter (·.rule.id = id) = used.toList :=
        List.filter_eq_self.2 fun a ha => by simpa [hrule a ha] using hid
      rw [List.filter_cons_of_pos (by simpa using hid), activateAll_cons, hused, ih hrest, hall]
      rfl
    · have hnone : used.toList.filter (·.rule.id = id) = [] :=
        List.filter_eq_nil_iff.2 fun a ha => by simpa [hrule a ha] using hid
      rw [List.filter_cons_of_neg (by simpa using hid), ih hrest, hnone, List.nil_append]

theorem filter_id_eq_singleton (hdistinct : (rules.map (·.rule.id)).Nodup) (hr : r ∈ rules) :
    rules.filter (·.rule.id = r.rule.id) = [r] := by
  induction rules with
  | nil => cases hr
  | cons r' rules ih =>
    obtain ⟨hr', hrules⟩ := List.nodup_cons.1 hdistinct
    rcases List.mem_cons.1 hr with rfl | hr
    · have hnone : rules.filter (·.rule.id = r.rule.id) = [] := by
        refine List.filter_eq_nil_iff.2 fun a ha => ?_
        rw [decide_eq_true_eq]
        exact fun hid => hr' (List.mem_map.2 ⟨a, ha, hid⟩)
      rw [List.filter_cons_of_pos (by simp), hnone]
    · have hne : ¬ r'.rule.id = r.rule.id := fun hid => hr' (List.mem_map.2 ⟨r, hr, hid.symm⟩)
      rw [List.filter_cons_of_neg (by simpa using hne), ih hrules hr]

/-- Linting with some of the rules gives their diagnostics. -/
theorem lintSource_filter (id : String) (h : lintSource source file rules = .ok ds) :
    lintSource source file (rules.filter (·.rule.id = id)) = .ok (ds.filter (·.rule = id)) := by
  obtain ⟨active, hactive, ⟨rfl, rfl⟩ | ⟨es, hscan, rfl⟩⟩ := lintSource_cases h
  · unfold lintSource
    rw [activateAll_filter id hactive]
    rfl
  · unfold lintSource
    rw [activateAll_filter id hactive, hscan, ← Diagnostic.sort_filter, filter_checkElements]
    show ite _ _ _ = _
    split
    · rename_i hempty
      have hnone : es.flatMap (checkElement [] file source) = [] :=
        List.flatMap_eq_nil_iff.2 fun _ _ => rfl
      rw [List.isEmpty_iff.1 hempty, hnone, Diagnostic.sort, List.mergeSort_nil]
      rfl
    · rfl

end

/-! ### Isolation -/

/-- Rules that share a reporter are isolated. In any order of calls nothing that was reported is
changed or removed, and what a rule reports is what its own calls report to a new reporter. So the
diagnostics of a rule in a text are those of linting with this rule alone. -/
theorem reports_isolated :
    (∀ (r : Reporter) (active : List ActiveRule) (calls : List Call),
      (active.map (·.rule.id)).Nodup → (∀ c ∈ calls, c.rule ∈ active) →
        (∀ before after, calls = before ++ after →
          (r.run before).diagnostics <+: (r.run calls).diagnostics) ∧
        ∃ reports, (r.run calls).diagnostics = r.diagnostics ++ reports ∧
          ∀ rule ∈ active, reports.filter (·.rule = rule.rule.id) =
            ((Reporter.new r.file).run (calls.filter (·.rule = rule))).diagnostics) ∧
    (∀ (source : List Char) (file : String) (rules : List ResolvedRule) (ds : List Diagnostic),
      (rules.map (·.rule.id)).Nodup → lintSource source file rules = .ok ds →
        ∀ rule ∈ rules,
          lintSource source file [rule] = .ok (ds.filter (·.rule = rule.rule.id))) := by
  refine ⟨fun r active calls hdistinct hcalls => ⟨?_, ?_⟩,
    fun source file rules ds hdistinct h rule hrule => ?_⟩
  · rintro before after rfl
    exact r.run_isPrefix before after
  · refine ⟨_, r.run_diagnostics calls, fun rule hrule => ?_⟩
    have hcalls : calls.filter (·.rule.rule.id = rule.rule.id) = calls.filter (·.rule = rule) := by
      refine List.filter_congr fun c hc => decide_eq_decide.2 ⟨fun hid => ?_, fun h => h ▸ rfl⟩
      exact List.inj_on_of_nodup_map hdistinct (hcalls c hc) hrule hid
    rw [Call.filter_reports, hcalls, Reporter.run_diagnostics]
    rfl
  · rw [← filter_id_eq_singleton hdistinct hrule]
    exact lintSource_filter rule.rule.id h

/-- Both rules, called in turns. -/
def turns : List Call :=
  let classes : ActiveRule := ⟨.brandClassnamesOnly, .error, ⟨[], false⟩⟩
  let margins : ActiveRule := ⟨.brandMarginPolicy, .warn, ⟨[], false⟩⟩
  let context (v : String) : Jsx.Context := ⟨"p", "className", ⟨1, 4⟩, some (.string v)⟩
  [⟨margins, "p", [context "m-brand-2"]⟩, ⟨classes, "p", [context "p-4"]⟩,
    ⟨margins, "main", [context "m-brand-2"]⟩, ⟨margins, "b", [context "m-brand-4"]⟩]

theorem reports_isolated_turns :
    (((Reporter.new "a.tsx").run turns).diagnostics.map (·.rule) =
        ["brand-margin-policy", "brand-classnames-only", "brand-margin-policy"] ∧
      ∃ reports, ((Reporter.new "a.tsx").run turns).diagnostics = reports ∧
        reports.filter (·.rule = "brand-margin-policy") = ((Reporter.new "a.tsx").run
          (turns.filter (·.rule = ⟨.brandMarginPolicy, .warn, ⟨[], false⟩⟩))).diagnostics) ∧
    (∃ ds, lintSource "<p className=\"p-4 m-brand-2\"/>".toList "a.tsx"
        [⟨.brandClassnamesOnly, .error, []⟩, ⟨.brandMarginPolicy, .warn, []⟩] = .ok ds ∧
      lintSource "<p className=\"p-4 m-brand-2\"/>".toList "a.tsx"
        [⟨.brandMarginPolicy, .warn, []⟩] = .ok (ds.filter (·.rule = "brand-margin-policy"))) := by
  have hscan : Jsx.scan "<p className=\"p-4 m-brand-2\"/>".toList =
      .ok [⟨"p", 0, [⟨"className", 3, some (.string "p-4 m-brand-2")⟩]⟩] := by cbv
  obtain ⟨ds, h⟩ : ∃ ds, lintSource "<p className=\"p-4 m-brand-2\"/>".toList "a.tsx"
      [⟨.brandClassnamesOnly, .error, []⟩, ⟨.brandMarginPolicy, .warn, []⟩] = .ok ds := by
    unfold lintSource
    rw [hscan]
    exact ⟨_, rfl⟩
  have hcalls := reports_isolated.1 (.new "a.tsx")
    [⟨.brandClassnamesOnly, .error, ⟨[], false⟩⟩, ⟨.brandMarginPolicy, .warn, ⟨[], false⟩⟩] turns
    (by decide) (by decide)
  obtain ⟨-, reports, hreports, hrule⟩ := hcalls
  exact ⟨⟨by decide +kernel, reports, hreports, hrule ⟨.brandMarginPolicy, .warn, ⟨[], false⟩⟩
    (by decide)⟩, ds, h, reports_isolated.2 _ _ _ _ (by decide) h ⟨.brandMarginPolicy, .warn, []⟩
    (List.mem_cons_of_mem _ List.mem_cons_self)⟩

end DesignTokens.Lint
