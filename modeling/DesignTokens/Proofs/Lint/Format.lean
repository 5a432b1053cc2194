import DesignTokens.Proofs.Json.Ascii
import DesignTokens.Proofs.Lint.Report
import DesignTokens.Proofs.Text.Replace
import DesignTokens.Proofs.Text.Search

/-!
# What is printed shows the diagnostics

A record is read back field by field (`Diagnostic.ofJson?`), so the array of records holds all that
the diagnostics hold. A printed line is one line: no line feed stands in a class name, and none
comes in with its suggestion (`not_newline_of_mem_line`). Both forms list the diagnostics in order
of place (`printed_of_lintSource`).
-/

namespace DesignTokens.Lint

open Json (Tree IsAscii)

variable {file template : String} {source : List Char} {rules : List ResolvedRule}
  {ds : List Diagnostic} {d : Diagnostic} {data : List (String × Value)} {x : Char}

/-! ### Records -/

def textField? (fields : List (String × Tree)) (name : String) : Option String :=
  match fields.lookup name with
  | some (.text s) => some s
  | _ => none

def numberField? (fields : List (String × Tree)) (name : String) : Option Nat :=
  match fields.lookup name with
  | some (.number s) => s.toNat?
  | _ => none

/-- An entry of message data whose value is a text. -/
def textEntry? : String × Tree → Option (String × Value)
  | (key, .text s) => some (key, .text s)
  | _ => none

def dataField? (fields : List (String × Tree)) (name : String) : Option (List (String × Value)) :=
  match fields.lookup name with
  | some (.object entries) => entries.mapM textEntry?
  | _ => none

namespace Diagnostic

/-- The diagnostic that a record shows. -/
def ofJson? : Tree → Option Diagnostic
  | .object fields => do
    let rule ← textField? fields "rule_id"
    let messageId ← textField? fields "message_id"
    let message ← textField? fields "message"
    let data ← dataField? fields "data"
    let file ← textField? fields "file"
    let line ← numberField? fields "line"
    let column ← numberField? fields "column"
    let severity ← (textField? fields "severity").bind Severity.ofText?
    return ⟨rule, messageId, message, data, file, ⟨line, column⟩, severity⟩
  | _ => none

/-- All values in the data of the message are texts. -/
def TextData (d : Diagnostic) : Prop := ∀ e ∈ d.data, ∃ s, e.2 = .text s

theorem mapM_textEntry? (h : ∀ e ∈ data, ∃ s, e.2 = .text s) :
    (data.map fun e => (e.1, e.2.toJson)).mapM textEntry? = some data := by
  induction data with
  | nil => rfl
  | cons e data ih =>
    obtain ⟨⟨s, hs⟩, hdata⟩ := List.forall_mem_cons.1 h
    obtain ⟨key, v⟩ := e
    obtain rfl : v = .text s := hs
    rw [List.map_cons, List.mapM_cons, ih hdata]
    rfl

theorem ofJson?_toJson (h : d.TextData) : ofJson? (toJson d) = some d := by
  have hseverity : Severity.ofText? d.severity.text = some d.severity := by
    cases d.severity <;> decide
  simp [ofJson?, toJson, textField?, numberField?, dataField?, List.lookup, -List.mapM_map,
    mapM_textEntry? h, hseverity]

theorem fieldsWritten_data (h : ∀ e ∈ data, ∃ s, e.2 = .text s) :
    Json.FieldsWritten (data.map fun e => (e.1, e.2.toJson)) := by
  induction data with
  | nil => trivial
  | cons e data ih =>
    obtain ⟨⟨s, hs⟩, hdata⟩ := List.forall_mem_cons.1 h
    refine ⟨?_, ih hdata⟩
    show e.2.toJson.Written
    rw [hs]
    trivial

theorem written_toJson (h : d.TextData) : (toJson d).Written :=
  ⟨trivial, trivial, trivial, fieldsWritten_data h, trivial, Json.isNumber_toString _,
    Json.isNumber_toString _, trivial, trivial⟩

theorem itemsWritten_toJson (h : ∀ d ∈ ds, d.TextData) : Json.ItemsWritten (ds.map toJson) := by
  induction ds with
  | nil => trivial
  | cons d ds ih =>
    obtain ⟨hd, hds⟩ := List.forall_mem_cons.1 h
    exact ⟨written_toJson hd, ih hds⟩

theorem mapM_ofJson? (h : ∀ d ∈ ds, d.TextData) : (ds.map toJson).mapM ofJson? = some ds := by
  induction ds with
  | nil => rfl
  | cons d ds ih =>
    obtain ⟨hd, hds⟩ := List.forall_mem_cons.1 h
    rw [List.map_cons, List.mapM_cons, ofJson?_toJson hd, ih hds]
    rfl

end Diagnostic

/-! ### Lines -/

theorem mem_renderMessage (h : x ∈ (renderMessage template data).toList) :
    x ∈ template.toList ∨ ∃ e ∈ data, x ∈ e.2.shown.toList := by
  unfold renderMessage at h
  rw [String.toList_ofList] at h
  generalize template.toList = s at h ⊢
  induction data generalizing s with
  | nil => exact .inl h
  | cons e data ih =>
    rcases ih _ h with h | ⟨e', he', h⟩
    · rcases Text.mem_replaceAll h with h | h
      · exact .inr ⟨e, List.mem_cons_self, h⟩
      · exact .inl h
    · exact .inr ⟨e', List.mem_cons_of_mem e he', h⟩

theorem mem_suggest {c : String} (h : (Policy.Utility.classify c).isViolation)
    (hx : x ∈ (Policy.Utility.suggest c).toList) : x ∈ c.toList ∨ x ∈ "-brand-".toList := by
  obtain ⟨u, hu, rest, rfl, -⟩ := Policy.Utility.exists_of_isViolation h
  rw [Policy.Utility.suggest_eq hu] at hx
  simp only [String.toList_append, List.mem_append] at hx ⊢
  rcases hx with (hx | hx) | hx
  · exact .inl (.inl (.inl hx))
  · exact .inr hx
  · exact .inl (.inr hx)

namespace Reported

theorem file_eq (h : Reported file d) : d.file = file := by cases h <;> rfl

theorem textData (h : Reported file d) : d.TextData := by
  cases h with
  | className hviolation hblank =>
    exact List.forall_mem_cons.2 ⟨⟨_, rfl⟩, List.forall_mem_cons.2 ⟨⟨_, rfl⟩, List.forall_mem_nil _⟩⟩
  | margins allowSection => exact List.forall_mem_cons.2 ⟨⟨_, rfl⟩, List.forall_mem_nil _⟩

theorem newline_not_mem_message (h : Reported file d) : '\n' ∉ d.message.toList := by
  intro hx
  cases h with
  | @className _ _ c hviolation hblank =>
    have hc : '\n' ∉ c.toList := fun hx => absurd (hblank _ hx) (by decide)
    rcases mem_renderMessage hx with hx | ⟨e, he, hx⟩
    · exact absurd hx (by decide +kernel)
    · rcases List.mem_cons.1 he with rfl | he
      · exact hc hx
      · obtain rfl := List.mem_singleton.1 he
        rcases mem_suggest hviolation hx with hx | hx
        · exact hc hx
        · exact absurd hx (by decide)
  | margins allowSection =>
    rcases mem_renderMessage hx with hx | ⟨e, he, hx⟩
    · exact absurd hx (by decide +kernel)
    · obtain rfl := List.mem_singleton.1 he
      cases allowSection <;> exact absurd hx (by decide)

theorem newline_not_mem_rule (h : Reported file d) : '\n' ∉ d.rule.toList := by
  have hid (r : Rule) : '\n' ∉ r.id.toList := by cases r <;> decide
  cases h <;> exact hid _

end Reported

theorem location_text (l : Location) : l.text = toString l.line ++ ":" ++ toString l.column := by
  simp [Location.text, toString]

/-- A reported line holds no line feed that the name of the file does not hold. -/
theorem newline_not_mem_line (h : Reported file d) (hfile : '\n' ∉ file.toList) :
    '\n' ∉ d.line.toList := by
  have hdigits (n : Nat) : '\n' ∉ Nat.toDigits 10 n := fun h =>
    absurd (Nat.isDigit_of_mem_toDigits (by decide) (by decide) h) (by decide)
  have hseverity : '\n' ∉ d.severity.text.toList := by cases d.severity <;> decide
  rw [← h.file_eq] at hfile
  simp [Diagnostic.line, location_text, hfile, hdigits, hseverity, h.newline_not_mem_message,
    h.newline_not_mem_rule]

theorem splitOn_formatHuman (h : ∀ d ∈ ds, '\n' ∉ d.line.toList) (hds : ds ≠ []) :
    Text.splitOn '\n' (Diagnostic.formatHuman ds).toList =
      (Diagnostic.sort ds).map (·.line.toList) := by
  have hperm := Diagnostic.sort_perm ds
  have hlines : ∀ l ∈ (Diagnostic.sort ds).map (·.line.toList), '\n' ∉ l :=
    List.forall_mem_map.2 fun d hd => h d (hperm.subset hd)
  have hne : (Diagnostic.sort ds).map (·.line.toList) ≠ [] := by
    rw [ne_eq, List.map_eq_nil_iff]
    exact fun hnil => hds (hnil ▸ hperm).nil_eq.symm
  rw [Text.splitOn_eq, Diagnostic.formatHuman, String.toList_intercalate, List.map_map]
  exact List.splitOn_intercalate '\n' hlines hne

/-! ### Both forms -/

open Diagnostic in
/-- What is printed of the diagnostics of a file. -/
structure Printed (file : String) (ds : List Diagnostic) : Prop where
  ascii : IsAscii (formatJson ds).toList
  decoded : Json.decode (formatJson ds) = some (.array ((sort ds).map toJson))
  records : ((sort ds).map toJson).mapM ofJson? = some (sort ds)
  /-- No diagnostics are no text. -/
  empty : ds = [] → formatHuman ds = ""
  lines : '\n' ∉ file.toList → ds ≠ [] →
    Text.splitOn '\n' (formatHuman ds).toList = (sort ds).map (·.line.toList)
  headed : ∀ d ∈ sort ds,
    (file ++ ":" ++ toString d.location.line ++ ":" ++ toString d.location.column ++ ": " ++
      d.severity.text).toList <+: d.line.toList

theorem printed_of_lintSource (h : lintSource source file rules = .ok ds) : Printed file ds := by
  have hreported : ∀ d ∈ Diagnostic.sort ds, Reported file d := fun d hd =>
    reported_of_lintSource h ((Diagnostic.sort_perm ds).subset hd)
  have hdata : ∀ d ∈ Diagnostic.sort ds, d.TextData := fun d hd => (hreported d hd).textData
  have hwritten : (Tree.array ((Diagnostic.sort ds).map Diagnostic.toJson)).Written :=
    Diagnostic.itemsWritten_toJson hdata
  refine ⟨Json.isAscii_render hwritten, Json.decode_render hwritten,
    Diagnostic.mapM_ofJson? hdata, fun hds => ?_, fun hfile hds => ?_, fun d hd => ?_⟩
  · simp [hds, Diagnostic.formatHuman, Diagnostic.sort]
  · exact splitOn_formatHuman (fun d hd => newline_not_mem_line (reported_of_lintSource h hd) hfile)
      hds
  · refine ⟨(": " ++ d.message ++ " [" ++ d.rule ++ "]").toList, ?_⟩
    simp [← (hreported d hd).file_eq, Diagnostic.line, location_text]

/-- A quote, a letter that is none of ASCII and a character written by two units. -/
theorem printed_of_lintSource_escaped :
    ∃ d, lintSource "<p className='p-\"é😀'/>".toList "ä.tsx" [⟨.brandClassnamesOnly, .error, []⟩] =
        .ok [d] ∧
      d.data = [("className", .text "p-\"é😀"), ("suggestion", .text "p-brand-\"é😀")] ∧
      Printed "ä.tsx" [d] ∧
      Text.splitOn '\n' (Diagnostic.formatHuman [d]).toList =
        (Diagnostic.sort [d]).map (·.line.toList) := by
  have hscan : Jsx.scan "<p className='p-\"é😀'/>".toList =
      .ok [⟨"p", 0, [⟨"className", 3, some (.string "p-\"é😀")⟩]⟩] := by cbv
  have h : lintSource "<p className='p-\"é😀'/>".toList "ä.tsx"
      [⟨.brandClassnamesOnly, .error, []⟩] =
      .ok [ActiveRule.report ⟨.brandClassnamesOnly, .error, ⟨[], false⟩⟩ "ä.tsx" ⟨1, 4⟩
        [("className", .text "p-\"é😀"), ("suggestion", .text "p-brand-\"é😀")]] := by
    unfold lintSource
    rw [hscan]
    exact congrArg Except.ok (List.mergeSort_singleton _)
  have hprinted := printed_of_lintSource h
  exact ⟨_, h, rfl, hprinted, hprinted.lines (by decide) (List.cons_ne_nil _ _)⟩

end DesignTokens.Lint
