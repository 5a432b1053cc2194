import DesignTokens.Proofs.Lint.Rule
import DesignTokens.Proofs.Text.Replace
import Mathlib

/-!
# Rendered messages

A message is rendered key by key, so what one value brings in is searched for the placeholders of
the keys after it. `filled` is the template with all placeholders replaced at once. Both agree where
the values before a key, filled in, make no placeholder of it (`Inert`), and then the order of the
keys does not matter. A class name of the checked text may make one: its message shows it as it is
exactly if the placeholder of the suggestion does not stand in it (`messages_verbatim`).
-/

namespace DesignTokens.Lint

open Policy Text

/-! ### Templates -/

/-- What stands in a template for the value of the key. -/
def placeholder (key : String) : List Char := '\x7b' :: (key.toList ++ ['\x7d'])

/-- The entry whose placeholder stands at the front of the text. -/
def hole? (data : List (String × Value)) (s : List Char) : Option (String × Value) :=
  data.find? fun e => (placeholder e.1).isPrefixOf s

/-- The template with the placeholder of each key replaced by the text of its value, and all else
as it is. -/
def filled (data : List (String × Value)) (s : List Char) : List Char :=
  match s with
  | [] => []
  | c :: s =>
    match hole? data (c :: s) with
    | some e => e.2.shown.toList ++ filled data (s.drop (e.1.length + 1))
    | none => c :: filled data s
termination_by s.length
decreasing_by all_goals (simp; try omega)

/-- The keys are different ones, without braces. -/
structure Keyed (data : List (String × Value)) : Prop where
  distinct : (data.map (·.1)).Nodup
  plain : ∀ e ∈ data, '\x7b' ∉ e.1.toList ∧ '\x7d' ∉ e.1.toList

/-- The values before an entry, filled in, leave no more placeholders of its key than the template
has. -/
def Inert (data : List (String × Value)) (s : List Char) : Prop :=
  ∀ done e rest, data = done ++ e :: rest →
    occurrences (placeholder e.1) (filled done s) ≤ occurrences (placeholder e.1) s

variable {c : Char} {data data' done rest : List (String × Value)} {e e' : String × Value}
  {k k' : String} {q s t x : List Char}

namespace Keyed

theorem of_sublist (h : Keyed data) (hs : data'.Sublist data) : Keyed data' :=
  ⟨h.distinct.sublist (hs.map _), fun e he => h.plain e (hs.subset he)⟩

theorem perm (h : Keyed data) (hp : data'.Perm data) : Keyed data' :=
  ⟨(hp.map _).nodup_iff.2 h.distinct, fun e he => h.plain e (hp.subset he)⟩

theorem eq_of_key (h : Keyed data) (he : e ∈ data) (he' : e' ∈ data) (hkey : e'.1 = e.1) :
    e' = e :=
  List.inj_on_of_nodup_map h.distinct he' he hkey

end Keyed

/-! ### Placeholders -/

theorem placeholder_ne_nil (k : String) : placeholder k ≠ [] := List.cons_ne_nil _ _

/-- No two placeholders of keys without braces stand at one place. -/
theorem placeholder_inj (hk : '\x7d' ∉ k.toList) (hk' : '\x7d' ∉ k'.toList)
    (h : placeholder k' <+: placeholder k ++ s) : k' = k := by
  obtain ⟨u, hu⟩ := h
  have hsplit : k'.toList ++ '\x7d' :: u = k.toList ++ '\x7d' :: s := by
    simpa [placeholder] using hu
  rcases append_cons_inj hk' hsplit with ⟨heq, -⟩ | ⟨middle, hmiddle, -⟩
  · exact (String.toList_inj.1 heq).symm
  · exact absurd (hmiddle ▸ by simp) hk

theorem not_mem_behind (hk : '\x7b' ∉ k.toList) : '\x7b' ∉ k.toList ++ ['\x7d'] := by
  simp [hk]

/-- No placeholder begins in a text without an opening brace. -/
theorem occurrences_text (hx : '\x7b' ∉ x) (k : String) (s : List Char) :
    occurrences (placeholder k) (x ++ s) = occurrences (placeholder k) s :=
  occurrences_append hx ..

theorem replaceAll_text (hx : '\x7b' ∉ x) (k : String) (q s : List Char) :
    replaceAll (placeholder k) q (x ++ s) = x ++ replaceAll (placeholder k) q s :=
  replaceAll_append (Nat.le_of_eq (occurrences_text hx k s)) q

theorem occurrences_self (hk : '\x7b' ∉ k.toList) (s : List Char) :
    occurrences (placeholder k) (placeholder k ++ s) = 1 + occurrences (placeholder k) s := by
  rw [placeholder, List.cons_append, occurrences_cons_pos (List.prefix_append _ s),
    occurrences_append (not_mem_behind hk)]

theorem occurrences_other (hk : '\x7d' ∉ k.toList)
    (hk' : '\x7b' ∉ k'.toList ∧ '\x7d' ∉ k'.toList) (hne : k ≠ k') (s : List Char) :
    occurrences (placeholder k) (placeholder k' ++ s) = occurrences (placeholder k) s := by
  have hprefix : ¬placeholder k <+: placeholder k' ++ s := fun h =>
    hne (placeholder_inj hk'.2 hk h)
  rw [placeholder, placeholder, List.cons_append] at *
  rw [occurrences_cons_neg hprefix, occurrences_append (not_mem_behind hk'.1)]

theorem hole?_eq_none : hole? data s = none ↔ ∀ e ∈ data, ¬placeholder e.1 <+: s := by
  simp [hole?, List.find?_eq_none, List.isPrefixOf_iff_prefix]

/-! ### Filling in all values at once -/

theorem filled_char (h : ∀ e ∈ data, ¬placeholder e.1 <+: c :: s) :
    filled data (c :: s) = c :: filled data s := by
  rw [filled, hole?_eq_none.2 h]

theorem filled_hole (h : Keyed data) (he : e ∈ data) (s : List Char) :
    filled data (placeholder e.1 ++ s) = e.2.shown.toList ++ filled data s := by
  have hprefix := List.prefix_append (placeholder e.1) s
  obtain ⟨e', he'⟩ : ∃ e', hole? data (placeholder e.1 ++ s) = some e' := by
    rw [← Option.isSome_iff_exists, ← Option.ne_none_iff_isSome]
    exact fun hnone => hole?_eq_none.1 hnone e he hprefix
  have hmem := List.mem_of_find?_eq_some he'
  have hfront : placeholder e'.1 <+: placeholder e.1 ++ s := by
    have hfound : (placeholder e'.1).isPrefixOf (placeholder e.1 ++ s) = true := by
      rw [hole?] at he'
      simpa using List.find?_some he'
    exact List.isPrefixOf_iff_prefix.1 hfound
  obtain rfl := h.eq_of_key he hmem (placeholder_inj (h.plain e he).2 (h.plain e' hmem).2 hfront)
  rw [placeholder, List.cons_append] at he' ⊢
  rw [filled, he']
  dsimp only
  rw [← String.length_toList, ← List.length_singleton (a := '\x7d'), ← List.length_append,
    List.drop_left]

theorem filled_append (hx : '\x7b' ∉ x) (data : List (String × Value)) (s : List Char) :
    filled data (x ++ s) = x ++ filled data s := by
  induction x with
  | nil => rfl
  | cons c x ih =>
    rw [List.mem_cons, not_or] at hx
    rw [List.cons_append, filled_char, ih hx.2, List.cons_append]
    exact fun e _ h => hx.1 (List.cons_prefix_cons.1 h).1

theorem filled_other (hk : '\x7b' ∉ k.toList ∧ '\x7d' ∉ k.toList)
    (h : ∀ e ∈ data, '\x7d' ∉ e.1.toList ∧ e.1 ≠ k) (s : List Char) :
    filled data (placeholder k ++ s) = placeholder k ++ filled data s := by
  have hnone : ∀ e ∈ data, ¬placeholder e.1 <+: placeholder k ++ s := fun e he hprefix =>
    (h e he).2 (placeholder_inj hk.2 (h e he).1 hprefix)
  rw [placeholder, List.cons_append] at *
  rw [filled_char hnone, filled_append (not_mem_behind hk.1), List.cons_append]

/-- A template is empty, begins with a placeholder, or with a character at which none begins. -/
@[elab_as_elim]
theorem holesInduction {motive : List Char → Prop} (data : List (String × Value))
    (nil : motive []) (hole : ∀ e s, e ∈ data → motive s → motive (placeholder e.1 ++ s))
    (char : ∀ c s, (∀ e ∈ data, ¬placeholder e.1 <+: c :: s) → motive s → motive (c :: s))
    (s : List Char) : motive s := by
  induction hn : s.length using Nat.strongRecOn generalizing s with
  | ind n ih =>
    subst hn
    cases s with
    | nil => exact nil
    | cons c s =>
      by_cases h : ∀ e ∈ data, ¬placeholder e.1 <+: c :: s
      · exact char c s h (ih _ (Nat.lt_succ_self _) s rfl)
      · simp only [Classical.not_forall, Classical.not_not] at h
        obtain ⟨e, he, r, hr⟩ := h
        rw [← hr]
        refine hole e r he (ih _ ?_ r rfl)
        rw [← hr, placeholder, List.length_append, List.length_cons]
        omega

theorem filled_nil (s : List Char) : filled [] s = s := by
  induction s with
  | nil => rw [filled]
  | cons c s ih => rw [filled_char (List.forall_mem_nil _), ih]

theorem filled_perm (h : Keyed data) (hp : data'.Perm data) (s : List Char) :
    filled data' s = filled data s := by
  induction s using holesInduction data with
  | nil => rw [filled, filled]
  | hole e s he ih => rw [filled_hole h he, filled_hole (h.perm hp) (hp.symm.subset he), ih]
  | char c s hnone ih =>
    rw [filled_char hnone, filled_char fun e he => hnone e (hp.subset he), ih]

/-! ### Filling in one value after another -/

section Step

variable (h : Keyed (done ++ [e]))
include h

theorem ne_of_mem_done (he' : e' ∈ done) : e.1 ≠ e'.1 := by
  have hdisjoint := (List.nodup_append.1 (List.map_append ▸ h.distinct)).2.2
  exact (hdisjoint _ (List.mem_map_of_mem he') _ (by simp)).symm

theorem keyed_done : Keyed done := h.of_sublist (List.sublist_append_left ..)

theorem filled_done (s : List Char) :
    filled done (placeholder e.1 ++ s) = placeholder e.1 ++ filled done s :=
  filled_other (h.plain e (by simp))
    (fun _ he' => ⟨(h.plain _ (List.mem_append_left _ he')).2, (ne_of_mem_done h he').symm⟩) s

theorem occurrences_done (he' : e' ∈ done) (s : List Char) :
    occurrences (placeholder e.1) (placeholder e'.1 ++ s) = occurrences (placeholder e.1) s :=
  occurrences_other (h.plain e (by simp)).2 (h.plain e' (List.mem_append_left _ he'))
    (ne_of_mem_done h he') s

/-- Placeholders of a key are never lost to the values of other keys. -/
theorem occurrences_le_filled (s : List Char) :
    occurrences (placeholder e.1) s ≤ occurrences (placeholder e.1) (filled done s) := by
  induction s using holesInduction (done ++ [e]) with
  | nil => exact Nat.zero_le _
  | hole e' s he' ih =>
    rcases List.mem_append.1 he' with he' | he'
    · rw [occurrences_done h he', filled_hole (keyed_done h) he']
      exact Nat.le_trans ih (occurrences_le_append ..)
    · obtain rfl := List.mem_singleton.1 he'
      have hplain := (h.plain e' (by simp)).1
      rw [filled_done h, occurrences_self hplain, occurrences_self hplain]
      omega
  | char c s hnone ih =>
    rw [filled_char fun e' he' => hnone e' (List.mem_append_left _ he'),
      occurrences_cons_neg (hnone e (by simp))]
    exact Nat.le_trans ih (occurrences_le_append _ [c] _)

/-- If no placeholder has come in, the next value takes the places that the template has for it. -/
theorem replaceAll_filled
    (hle : occurrences (placeholder e.1) (filled done s) ≤ occurrences (placeholder e.1) s) :
    replaceAll (placeholder e.1) e.2.shown.toList (filled done s) = filled (done ++ [e]) s := by
  have hmem : e ∈ done ++ [e] := by simp
  induction s using holesInduction (done ++ [e]) with
  | nil => rw [filled, filled, replaceAll]
  | hole e' s he' ih =>
    have hge := occurrences_le_filled h s
    rw [filled_hole h he']
    rcases List.mem_append.1 he' with he' | he'
    · rw [occurrences_done h he', filled_hole (keyed_done h) he'] at hle
      have hle' := Nat.le_trans (occurrences_le_append ..) hle
      rw [filled_hole (keyed_done h) he', replaceAll_append (Nat.le_trans hle hge), ih hle']
    · obtain rfl := List.mem_singleton.1 he'
      have hplain := (h.plain e' hmem).1
      rw [filled_done h, occurrences_self hplain, occurrences_self hplain] at hle
      rw [filled_done h, replaceAll_self_append (placeholder_ne_nil _), ih (by omega)]
  | char c s hnone ih =>
    have hge := occurrences_le_filled h s
    rw [filled_char fun e' he' => hnone e' (List.mem_append_left _ he')] at hle ⊢
    rw [occurrences_cons_neg (hnone e hmem)] at hle
    have hkeep := replaceAll_append (x := [c]) (Nat.le_trans hle hge) e.2.shown.toList
    rw [filled_char hnone, ← List.singleton_append, hkeep,
      ih (Nat.le_trans (occurrences_le_append _ [c] _) hle), List.singleton_append]

end Step

theorem foldl_replaceAll (h : Keyed data) (hs : Inert data s) (hdata : data = done ++ rest) :
    rest.foldl (fun s e => replaceAll (placeholder e.1) e.2.shown.toList s) (filled done s) =
      filled data s := by
  induction rest generalizing done with
  | nil => rw [List.foldl_nil, hdata, List.append_nil]
  | cons e rest ih =>
    have hassoc : data = done ++ [e] ++ rest := by simpa using hdata
    have hkeyed : Keyed (done ++ [e]) := h.of_sublist (hassoc ▸ List.sublist_append_left ..)
    rw [List.foldl_cons, replaceAll_filled hkeyed (hs done e rest hdata), ih hassoc]

theorem renderMessage_eq {template : String} (h : Keyed data) (hs : Inert data template.toList) :
    renderMessage template data = String.ofList (filled data template.toList) := by
  have hfold := foldl_replaceAll h hs (List.nil_append data).symm
  rw [filled_nil] at hfold
  exact congrArg String.ofList hfold

/-- Values without an opening brace make no placeholder in a template that has opening braces only
where a placeholder begins, of whatever key. -/
theorem inert_of_plain (h : Keyed data) (hvalues : ∀ e ∈ data, '\x7b' ∉ e.2.shown.toList)
    (hs : ∀ r, '\x7b' :: r <:+ s →
      ∃ k, ('\x7b' ∉ k.toList ∧ '\x7d' ∉ k.toList) ∧ placeholder k <+: '\x7b' :: r) :
    Inert data s := by
  rintro done e rest rfl
  have hkeyed : Keyed (done ++ [e]) := h.of_sublist (by simp)
  have hplain := h.plain e (by simp)
  have hmem : ∀ e' ∈ done, e' ∈ done ++ [e] := fun e' => List.mem_append_left _
  induction s using holesInduction (done ++ [e]) with
  | nil => rw [filled]
  | hole e' s he' ih =>
    have hle := ih fun r hr => hs r (hr.trans (List.suffix_append ..))
    rcases List.mem_append.1 he' with he' | he'
    · rw [occurrences_done hkeyed he', filled_hole (keyed_done hkeyed) he',
        occurrences_text (hvalues e' (List.mem_append_left _ he'))]
      exact hle
    · obtain rfl := List.mem_singleton.1 he'
      rw [filled_done hkeyed, occurrences_self hplain.1, occurrences_self hplain.1]
      omega
  | char c s hnone ih =>
    have hle := ih fun r hr => hs r (hr.trans (List.suffix_cons c s))
    rw [filled_char fun e' he' => hnone e' (hmem e' he'),
      occurrences_cons_neg (hnone e (by simp)), occurrences_cons_neg]
    · exact hle
    · -- what begins here in the filled text begins here in the template
      intro hprefix
      obtain rfl := (List.cons_prefix_cons.1 hprefix).1
      obtain ⟨k, hk, behind, hbehind⟩ := hs s (List.suffix_refl _)
      obtain rfl : k.toList ++ ['\x7d'] ++ behind = s := (List.cons.inj hbehind).2
      rw [filled_append (not_mem_behind hk.1), ← List.cons_append] at hprefix
      obtain rfl := placeholder_inj hk.2 hplain.2 hprefix
      exact hnone e (by simp) (List.prefix_append ..)

/-! ### Forbidden classes -/

section Forbidden

/-- The parts of the message about a forbidden class. -/
def beforeClass : String := "Non-brand utility \""

def beforeSuggestion : String :=
  "\" is not allowed. Use brand-prefixed utilities (e.g., "

def behindSuggestion : String := ") or layout utilities only."

/-- The message about a class name and its suggestion. -/
def forbiddenText (c suggestion : String) : String :=
  beforeClass ++ c ++ beforeSuggestion ++ suggestion ++ behindSuggestion

/-- What is reported with a forbidden class. -/
def forbiddenData (c suggestion : String) : List (String × Value) :=
  [("className", .text c), ("suggestion", .text suggestion)]

variable (c suggestion : String)

theorem keyed_forbiddenData : Keyed (forbiddenData c suggestion) where
  distinct := by simp [forbiddenData]
  plain := by simp [forbiddenData]

theorem keyed_className : Keyed [("className", Value.text c)] :=
  (keyed_forbiddenData c "").of_sublist (by simp [forbiddenData])

theorem template_eq : Rule.brandClassnamesOnly.messageTemplate.toList =
    beforeClass.toList ++ (placeholder "className" ++ (beforeSuggestion.toList ++
      (placeholder "suggestion" ++ behindSuggestion.toList))) := by
  decide +kernel

theorem brace_not_mem : '\x7b' ∉ beforeClass.toList ∧ '\x7b' ∉ beforeSuggestion.toList ∧
    '\x7b' ∉ behindSuggestion.toList := by
  decide +kernel

theorem filled_className (h : Keyed data) (hc : ("className", .text c) ∈ data) :
    filled data Rule.brandClassnamesOnly.messageTemplate.toList =
      beforeClass.toList ++ (c.toList ++ (beforeSuggestion.toList ++
        filled data (placeholder "suggestion" ++ behindSuggestion.toList))) := by
  rw [template_eq, filled_append brace_not_mem.1, filled_hole h hc,
    filled_append brace_not_mem.2.1]
  rfl

theorem filled_behind (data : List (String × Value)) :
    filled data behindSuggestion.toList = behindSuggestion.toList := by
  have hkeep := filled_append brace_not_mem.2.2 data []
  rwa [filled, List.append_nil] at hkeep

theorem filled_forbidden :
    filled (forbiddenData c suggestion) Rule.brandClassnamesOnly.messageTemplate.toList =
      (forbiddenText c suggestion).toList := by
  have h := keyed_forbiddenData c suggestion
  have hmem : ("suggestion", .text suggestion) ∈ forbiddenData c suggestion := by
    simp [forbiddenData]
  rw [filled_className c h List.mem_cons_self, filled_hole h hmem, filled_behind]
  simp [forbiddenText, Value.shown]

theorem filled_first :
    filled [("className", .text c)] Rule.brandClassnamesOnly.messageTemplate.toList =
      beforeClass.toList ++ (c.toList ++ (beforeSuggestion.toList ++
        (placeholder "suggestion" ++ behindSuggestion.toList))) := by
  rw [filled_className c (keyed_className c) List.mem_cons_self, filled_other (by decide) (by simp), filled_behind]

theorem renderMessage_forbiddenData :
    renderMessage Rule.brandClassnamesOnly.messageTemplate (forbiddenData c suggestion) =
      String.ofList (beforeClass.toList ++ replaceAll (placeholder "suggestion") suggestion.toList
        (c.toList ++ (beforeSuggestion.toList ++
          (placeholder "suggestion" ++ behindSuggestion.toList)))) := by
  have h : Keyed ([] ++ [("className", Value.text c)]) := keyed_className c
  have hfirst := replaceAll_filled h (s := Rule.brandClassnamesOnly.messageTemplate.toList)
    (by rw [filled_nil])
  rw [filled_nil, List.nil_append, filled_first] at hfirst
  rw [← replaceAll_text brace_not_mem.1, ← hfirst]
  rfl

variable {c suggestion} {d : Char}

theorem inert_forbiddenData (hc : ¬placeholder "suggestion" <:+: c.toList) :
    Inert (forbiddenData c suggestion) Rule.brandClassnamesOnly.messageTemplate.toList := by
  intro done e rest hdata
  match done with
  | [] => rw [filled_nil]
  | [first] =>
    obtain ⟨hfirst, hdata⟩ := List.cons.inj hdata
    obtain ⟨he, -⟩ := List.cons.inj hdata
    obtain ⟨behind, hbehind⟩ : ∃ s, beforeSuggestion.toList = '"' :: s := ⟨_, rfl⟩
    have hquote : '"' ∉ placeholder "suggestion" := by decide
    have hother (s : List Char) : occurrences (placeholder "suggestion")
        (placeholder "className" ++ s) = occurrences (placeholder "suggestion") s :=
      occurrences_other (by decide) (by decide) (by decide) s
    rw [← hfirst, ← he, filled_first, template_eq, occurrences_text brace_not_mem.1,
      occurrences_text brace_not_mem.1, hother, hbehind, List.cons_append,
      occurrences_append_cons hquote hc]
  | _ :: _ :: _ => simpa [forbiddenData] using congrArg List.length hdata

/-- The suggestion does not begin with a brace, so where it is put into the class name the message
differs. -/
theorem renderMessage_forbidden (hs : suggestion.toList.head? = some d) (hd : d ≠ '\x7b') :
    renderMessage Rule.brandClassnamesOnly.messageTemplate (forbiddenData c suggestion) =
      forbiddenText c suggestion ↔ ¬placeholder "suggestion" <:+: c.toList := by
  constructor
  · intro hmessage hinfix
    obtain ⟨u, w, z, hc, hreplace⟩ := exists_replaceAll_of_infix (placeholder_ne_nil _) hinfix
      suggestion.toList
      (beforeSuggestion.toList ++ (placeholder "suggestion" ++ behindSuggestion.toList))
    rw [renderMessage_forbiddenData, hreplace, ← String.toList_inj] at hmessage
    have hsplit : u ++ (suggestion.toList ++ z) = u ++ (placeholder "suggestion" ++
        (w ++ (beforeSuggestion ++ suggestion ++ behindSuggestion).toList)) := by
      simpa [forbiddenText, hc] using hmessage
    have hhead := congrArg List.head? (List.append_cancel_left hsplit)
    rw [List.head?_append, hs, placeholder] at hhead
    exact hd (Option.some.inj hhead)
  · intro hc
    rw [renderMessage_eq (keyed_forbiddenData ..) (inert_forbiddenData hc), filled_forbidden,
      String.ofList_toList]

theorem head_of_mem_criticalUtilities :
    ∀ u ∈ Utility.criticalUtilities, ∃ d, u.toList.head? = some d ∧ d ≠ '\x7b' := by
  have hall : (Utility.criticalUtilities.all fun u =>
      u.toList.head?.any fun d => d != '\x7b') = true := by decide
  simpa [Option.any_eq_true] using hall

theorem message_of_isViolation (h : (Utility.classify c).isViolation) :
    renderMessage Rule.brandClassnamesOnly.messageTemplate
        (forbiddenData c (Utility.suggest c)) = forbiddenText c (Utility.suggest c) ↔
      ¬placeholder "suggestion" <:+: c.toList := by
  obtain ⟨u, hu, rest, rfl, -⟩ := Utility.exists_of_isViolation h
  obtain ⟨d, hhead, hd⟩ := head_of_mem_criticalUtilities u hu
  refine renderMessage_forbidden ?_ hd
  rw [Utility.suggest_eq hu, String.toList_append, String.toList_append, List.head?_append,
    List.head?_append, hhead]
  rfl

end Forbidden

/-- A message shows each value as it is, in any order of the keys, where the values make no
placeholders. For a forbidden class just the placeholder of the suggestion matters. -/
theorem messages_verbatim (h : Keyed data) (hp : data'.Perm data) (template : String)
    (r : ActiveRule) (file tag : String) (contexts : List Jsx.Context) :
    (Inert data' template.toList →
      renderMessage template data' = String.ofList (filled data template.toList)) ∧
    ∀ d ∈ r.check file tag contexts, d.messageId = Utility.forbiddenClass →
      ∃ c, (Utility.classify c).isViolation ∧ d.data = forbiddenData c (Utility.suggest c) ∧
        (d.message = forbiddenText c (Utility.suggest c) ↔
          ¬placeholder "suggestion" <:+: c.toList) := by
  refine ⟨fun hs => ?_, fun d hd hid => ?_⟩
  · rw [renderMessage_eq (h.perm hp) hs, filled_perm h hp]
  · obtain ⟨rule, severity, options⟩ := r
    cases rule with
    | brandClassnamesOnly =>
      obtain ⟨context, -, hd⟩ := List.mem_flatMap.1 hd
      rw [ActiveRule.filterMap_checkClass] at hd
      obtain ⟨c, hc, rfl⟩ := List.mem_map.1 hd
      have hviolation := (List.mem_filter.1 hc).2
      exact ⟨c, hviolation, rfl, message_of_isViolation hviolation⟩
    | brandMarginPolicy =>
      dsimp only [ActiveRule.check] at hd
      split at hd
      · cases hd
      · split at hd
        · rw [List.mem_singleton.1 hd] at hid
          have hid : Margin.marginOnNonSemanticElement = Utility.forbiddenClass := hid
          exact absurd hid (by decide)
        · cases hd

/-- Closing braces in a value do no harm, nor do placeholders of other keys in a class name. -/
theorem messages_verbatim_braces :
    (∀ data', data'.Perm [("a", .text "x\x7d"), ("b", .bool true)] →
      renderMessage "\x7ba\x7d-\x7bb\x7d\x7bc\x7d" data' = "x\x7d-True\x7bc\x7d") ∧
    ∃ d, ActiveRule.check ⟨.brandClassnamesOnly, .error, ⟨[], false⟩⟩ "a.tsx" "p"
        [⟨"p", "className", ⟨1, 4⟩, some (.string "p-\x7bx\x7d")⟩] = [d] ∧
      d.message = forbiddenText "p-\x7bx\x7d" "p-brand-\x7bx\x7d" := by
  have hkeyed : Keyed [("a", Value.text "x\x7d"), ("b", .bool true)] := ⟨by decide, by decide⟩
  have hmain (data' : List (String × Value))
      (hp : data'.Perm [("a", .text "x\x7d"), ("b", .bool true)]) :=
    messages_verbatim hkeyed hp "\x7ba\x7d-\x7bb\x7d\x7bc\x7d"
      ⟨.brandClassnamesOnly, .error, ⟨[], false⟩⟩ "a.tsx" "p"
      [⟨"p", "className", ⟨1, 4⟩, some (.string "p-\x7bx\x7d")⟩]
  constructor
  · intro data' hp
    have hinert : Inert data' "\x7ba\x7d-\x7bb\x7d\x7bc\x7d".toList := by
      refine inert_of_plain (hkeyed.perm hp) (fun e he => ?_) fun r hr => ?_
      · have hplain : ∀ e ∈ [("a", Value.text "x\x7d"), ("b", .bool true)],
            '\x7b' ∉ e.2.shown.toList := by decide
        exact hplain e (hp.subset he)
      · have hopen : ∀ s ∈ "\x7ba\x7d-\x7bb\x7d\x7bc\x7d".toList.tails, s.head? = some '\x7b' →
            ∃ k ∈ ["a", "b", "c"], placeholder k = s.take 3 := by decide
        obtain ⟨k, hk, hs⟩ := hopen _ ((List.mem_tails _ _).2 hr) rfl
        have hplain : ∀ k ∈ ["a", "b", "c"], '\x7b' ∉ k.toList ∧ '\x7d' ∉ k.toList := by decide
        exact ⟨k, hplain k hk, hs ▸ List.take_prefix ..⟩
    have hfilled : filled [("a", Value.text "x\x7d"), ("b", .bool true)]
        "\x7ba\x7d-\x7bb\x7d\x7bc\x7d".toList = "x\x7d-True\x7bc\x7d".toList := by
      cbv
    rw [(hmain data' hp).1 hinert, hfilled, String.ofList_toList]
  · have hcheck : ActiveRule.check ⟨.brandClassnamesOnly, .error, ⟨[], false⟩⟩ "a.tsx" "p"
        [⟨"p", "className", ⟨1, 4⟩, some (.string "p-\x7bx\x7d")⟩] =
        [ActiveRule.report ⟨.brandClassnamesOnly, .error, ⟨[], false⟩⟩ "a.tsx" ⟨1, 4⟩
          (forbiddenData "p-\x7bx\x7d" "p-brand-\x7bx\x7d")] := by rfl
    obtain ⟨c, -, hdata, hmessage⟩ := (hmain _ (.refl _)).2 _ (hcheck ▸ List.mem_cons_self) rfl
    obtain rfl : "p-\x7bx\x7d" = c :=
      Value.text.inj (Prod.mk.inj (List.cons.inj hdata).1).2
    exact ⟨_, hcheck, hmessage.2 (by decide)⟩

/-- The suggestion is put into a class name that has its placeholder. -/
theorem not_messages_verbatim :
    ¬∀ (template : String) (data : List (String × Value)), Keyed data →
      renderMessage template data = String.ofList (filled data template.toList) := by
  intro h
  have hmessage := h Rule.brandClassnamesOnly.messageTemplate _
    (keyed_forbiddenData "p-\x7bsuggestion\x7d" "p-brand-\x7bsuggestion\x7d")
  rw [filled_forbidden, String.ofList_toList] at hmessage
  exact (renderMessage_forbidden (d := 'p') (by decide) (by decide)).1 hmessage
    ⟨['p', '-'], [], by decide⟩

end DesignTokens.Lint
