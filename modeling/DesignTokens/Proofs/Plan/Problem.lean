import DesignTokens.Plan.Define
import DesignTokens.Proofs.Text.Reading

/-!
# Problems of a plan

The check of a plan stops at the first problem it meets. Here all problems are listed: unknown keys,
groups that are missing, and then what is wrong in each group, entry after entry. The check accepts
exactly if the list is empty, and reports its first member otherwise (`define_problems`).
-/

namespace DesignTokens.Plan

variable {es : Entries} {v : Value}

/-! ### All problems in their order -/

def lacking (es : Entries) (key : String) (problem : PlanError) : List PlanError :=
  match Entries.getText? es key with
  | some _ => []
  | none => [problem]

/-- The problems of the value under a key; a key that is lacking has its own. -/
def under (es : Entries) (key : String) (problems : Value → List PlanError) : List PlanError :=
  match Entries.getText? es key with
  | some v => problems v
  | none => []

/-- The problems of what a key names, or of a key without a text. -/
def named (problems : String → List PlanError) (k : Value) : List PlanError :=
  match keyText k with
  | .ok key => problems key
  | .error e => [e]

def entryProblems (problems : String → Value → List PlanError) (es : Entries) : List PlanError :=
  es.flatMap fun e => named (fun key => problems key e.2) e.1

def lengthProblems (group : String) (v : Value) : List PlanError :=
  match v with
  | .map es => entryProblems (fun key w => errorsOf (checkLength w (group ++ "." ++ key))) es
  | _ => [.field group .notATokenTable]

def colorPairProblems (path : String) (v : Value) : List PlanError :=
  match v with
  | .map es =>
    lacking es "dark" (.field path (.missingSide "dark")) ++
      (lacking es "light" (.field path (.missingSide "light")) ++
        (under es "dark" (fun w => errorsOf (checkHexColor w (path ++ ".dark"))) ++
          under es "light" (fun w => errorsOf (checkHexColor w (path ++ ".light")))))
  | _ => [.field path .notAColorPair]

def colorTokenProblems (path : String) (v : Value) : List PlanError :=
  match v with
  | .map es => entryProblems (fun key w => colorPairProblems (path ++ "." ++ key) w) es
  | _ => [.field path .notATokenTable]

def colorProblems (v : Value) : List PlanError :=
  match v with
  | .map es => entryProblems (fun group w => colorTokenProblems ("color." ++ group) w) es
  | _ => [.field "color" .notAColorTable]

def unknownProblems (es : Entries) : List PlanError :=
  (es.filter fun e => !isGroup e.1).flatMap fun e =>
    named (fun key => [.group key (.unknownGroup key)]) e.1

def missingGroup (es : Entries) (group : String) : List PlanError :=
  lacking es group (.group group (.missingGroup group))

def problems (v : Value) : List PlanError :=
  match v with
  | .map es =>
    unknownProblems es ++
      (missingGroup es "space" ++ (missingGroup es "radius" ++ (missingGroup es "color" ++
        (under es "space" (lengthProblems "space") ++
          (under es "radius" (lengthProblems "radius") ++ under es "color" colorProblems)))))
  | _ => [.plan .notAPlan]

/-! ### Problems of keys -/

/-- An integer has a text unless it has too many digits. Other keys always have one. -/
def HasText (k : Value) : Prop := ∀ n, k = .int n → n.natAbs < Decimal.digitBound

/-- The keys of a map and of the maps in it, down to a depth. -/
def keys : Nat → Value → List Value
  | n + 1, .map es => es.flatMap fun e => e.1 :: keys n e.2
  | _, _ => []

theorem keyText_of_hasText {k : Value} (h : HasText k) : keyText k = .ok k.shown := by
  cases k with
  | int n =>
    unfold keyText
    dsimp only
    rw [if_neg (Nat.not_le_of_lt (h n rfl))]
  | _ => rfl

theorem keyText_of_le_natAbs {n : Int} (h : Decimal.digitBound ≤ n.natAbs) :
    keyText (.int n) = .error (.key .tooLong) := by
  unfold keyText
  dsimp only
  rw [if_pos h]

theorem forall_keys_map {p : Value → Prop} {n : Nat} :
    (∀ k ∈ keys (n + 1) (.map es), p k) ↔ ∀ e ∈ es, p e.1 ∧ ∀ k ∈ keys n e.2, p k := by
  simp only [keys, List.mem_flatMap, List.mem_cons]
  constructor
  · intro h e he
    exact ⟨h _ ⟨e, he, .inl rfl⟩, fun k hk => h k ⟨e, he, .inr hk⟩⟩
  · rintro h k ⟨e, he, rfl | hk⟩
    · exact (h e he).1
    · exact (h e he).2 k hk

theorem mem_keys_succ {v k : Value} {n : Nat} (h : k ∈ keys n v) : k ∈ keys (n + 1) v := by
  induction n generalizing v with
  | zero => simp [keys] at h
  | succ n ih =>
    cases v with
    | map es =>
      obtain ⟨e, he, hk⟩ := List.mem_flatMap.1 h
      refine List.mem_flatMap.2 ⟨e, he, ?_⟩
      rcases List.mem_cons.1 hk with rfl | hk
      · exact List.mem_cons_self
      · exact List.mem_cons_of_mem _ (ih hk)
    | _ => simp [keys] at h

/-! ### Problems that are reported -/

/-- The error names what is wrong in the plan; it is not a key without a text. -/
def IsReported : PlanError → Prop
  | .key _ => False
  | _ => True

variable {n : Nat} {e : PlanError} {p : PlanError → Prop} {path key : String}

/-! Every error of a length or a color names the field that is checked. -/

theorem field_of_checkText (h : checkText v path = .error e) :
    ∃ problem, e = .field path problem := by
  unfold checkText at h
  split at h
  · split at h
    · cases h
      exact ⟨_, rfl⟩
    · cases h
  · cases h
    exact ⟨_, rfl⟩

theorem field_of_checkLength (h : checkLength v path = .error e) :
    ∃ problem, e = .field path problem := by
  rcases error_of_bind h with h | ⟨s, -, h⟩
  · exact field_of_checkText h
  · split at h
    · cases h
      exact ⟨_, rfl⟩
    · split at h
      · cases h
      · cases h
        exact ⟨_, rfl⟩

theorem field_of_checkHexColor (h : checkHexColor v path = .error e) :
    ∃ problem, e = .field path problem := by
  rcases error_of_bind h with h | ⟨s, -, h⟩
  · exact field_of_checkText h
  · split at h
    · cases h
    · cases h
      exact ⟨_, rfl⟩

theorem forall_isReported_errorsOf {α : Type} {x : Except PlanError α}
    (h : ∀ e, x = .error e → ∃ problem, e = .field path problem) :
    ∀ e ∈ errorsOf x, IsReported e := by
  cases x with
  | ok a => exact List.forall_mem_nil _
  | error e =>
    obtain ⟨problem, rfl⟩ := h e rfl
    exact List.forall_mem_singleton.2 trivial

theorem forall_mem_lacking (h : p e) : ∀ e' ∈ lacking es key e, p e' := by
  unfold lacking
  split
  · exact List.forall_mem_nil p
  · exact List.forall_mem_singleton.2 h

theorem forall_mem_under {problems : Value → List PlanError}
    (h : ∀ entry ∈ es, ∀ e ∈ problems entry.2, p e) : ∀ e ∈ under es key problems, p e := by
  unfold under
  split
  · rename_i w hw
    obtain ⟨entry, hentry, rfl⟩ := Option.map_eq_some_iff.1 hw
    exact h entry (List.mem_of_find?_eq_some hentry)
  · exact List.forall_mem_nil p

theorem forall_isReported_entryProblems {problems : String → Value → List PlanError}
    (h : ∀ k ∈ keys (n + 1) (.map es), HasText k)
    (hproblems : ∀ key w, (∀ k ∈ keys n w, HasText k) → ∀ e ∈ problems key w, IsReported e) :
    ∀ e ∈ entryProblems problems es, IsReported e := by
  intro e hmem
  obtain ⟨entry, hentry, hmem⟩ := List.mem_flatMap.1 hmem
  obtain ⟨hkey, hkeys⟩ := forall_keys_map.1 h entry hentry
  rw [named, keyText_of_hasText hkey] at hmem
  exact hproblems _ _ hkeys e hmem

theorem forall_isReported_lengthProblems (h : ∀ k ∈ keys 1 v, HasText k) :
    ∀ e ∈ lengthProblems key v, IsReported e := by
  cases v with
  | map es =>
    rw [lengthProblems]
    refine forall_isReported_entryProblems h fun _ _ _ => ?_
    exact forall_isReported_errorsOf fun _ => field_of_checkLength
  | _ => exact List.forall_mem_singleton.2 trivial

theorem forall_isReported_colorPairProblems (path : String) (v : Value) :
    ∀ e ∈ colorPairProblems path v, IsReported e := by
  cases v with
  | map es =>
    have hside (path : String) : ∀ entry ∈ es,
        ∀ e ∈ errorsOf (checkHexColor entry.2 path), IsReported e :=
      fun _ _ => forall_isReported_errorsOf fun _ => field_of_checkHexColor
    rw [colorPairProblems]
    simp only [List.forall_mem_append]
    exact ⟨forall_mem_lacking trivial, forall_mem_lacking trivial,
      forall_mem_under (hside _), forall_mem_under (hside _)⟩
  | _ => exact List.forall_mem_singleton.2 trivial

theorem forall_isReported_colorTokenProblems (h : ∀ k ∈ keys 1 v, HasText k) :
    ∀ e ∈ colorTokenProblems path v, IsReported e := by
  cases v with
  | map es =>
    refine forall_isReported_entryProblems h fun _ _ _ => ?_
    exact forall_isReported_colorPairProblems _ _
  | _ => exact List.forall_mem_singleton.2 trivial

theorem forall_isReported_colorProblems (h : ∀ k ∈ keys 2 v, HasText k) :
    ∀ e ∈ colorProblems v, IsReported e := by
  cases v with
  | map es =>
    refine forall_isReported_entryProblems h fun _ _ hkeys => ?_
    exact forall_isReported_colorTokenProblems hkeys
  | _ => exact List.forall_mem_singleton.2 trivial

/-- Keys with texts are never what stops the check. -/
theorem forall_isReported_problems (h : ∀ k ∈ keys 3 v, HasText k) :
    ∀ e ∈ problems v, IsReported e := by
  cases v with
  | map es =>
    have hmap := forall_keys_map.1 h
    have hmissing (group : String) : ∀ e ∈ missingGroup es group, IsReported e :=
      forall_mem_lacking trivial
    rw [problems]
    simp only [List.forall_mem_append]
    refine ⟨?_, hmissing _, hmissing _, hmissing _, ?_, ?_, ?_⟩
    · intro e hmem
      obtain ⟨entry, hentry, hmem⟩ := List.mem_flatMap.1 hmem
      have hkey := (hmap entry (List.mem_filter.1 hentry).1).1
      rw [named, keyText_of_hasText hkey] at hmem
      cases List.mem_singleton.1 hmem
      trivial
    · exact forall_mem_under fun entry hentry =>
        forall_isReported_lengthProblems fun k hk => (hmap entry hentry).2 k (mem_keys_succ hk)
    · exact forall_mem_under fun entry hentry =>
        forall_isReported_lengthProblems fun k hk => (hmap entry hentry).2 k (mem_keys_succ hk)
    · exact forall_mem_under fun entry hentry =>
        forall_isReported_colorProblems (hmap entry hentry).2
  | _ => exact List.forall_mem_singleton.2 trivial

/-! ### The check reports the first of them -/

theorem keyText_problems {α : Type} {g : String → Except PlanError α}
    {problems : String → List PlanError} {rest : List PlanError}
    (h : ∀ key, Reports (g key) (problems key ++ rest)) (k : Value) :
    Reports (keyText k >>= g) (named problems k ++ rest) := by
  unfold named
  cases keyText k with
  | ok key => exact h key
  | error e => rfl

theorem checkEntries_problems {α : Type} {check : String → Value → Except PlanError α}
    {problems : String → Value → List PlanError}
    (h : ∀ key w, Reports (check key w) (problems key w)) (es : Entries) :
    Reports (checkEntries check es) (entryProblems problems es) := by
  refine (Reports.mapM (fun e => ?_) es).map Table.ofList
  rw [← List.append_nil (named _ _)]
  refine keyText_problems (fun key => ?_) e.1
  rw [List.append_nil]
  exact (h key e.2).map (key, ·)

theorem checkLengths_problems (group : String) (v : Value) :
    Reports (checkLengths group v) (lengthProblems group v) := by
  cases v with
  | map es =>
    exact checkEntries_problems (fun key w => .errorsOf (checkLength w (group ++ "." ++ key))) es
  | _ => rfl

theorem checkColorPair_problems (path : String) (v : Value) :
    Reports (checkColorPair path v) (colorPairProblems path v) := by
  cases v with
  | map es =>
    unfold checkColorPair colorPairProblems lacking under
    dsimp only
    cases Entries.getText? es "dark" with
    | none => rfl
    | some dark =>
      cases Entries.getText? es "light" with
      | none => rfl
      | some light =>
        exact (Reports.errorsOf _).bind fun d _ => (Reports.errorsOf _).map (ColorPair.mk d)
  | _ => rfl

theorem checkColorTokens_problems (path : String) (v : Value) :
    Reports (checkColorTokens path v) (colorTokenProblems path v) := by
  cases v with
  | map es =>
    exact checkEntries_problems (fun key w => checkColorPair_problems (path ++ "." ++ key) w) es
  | _ => rfl

theorem checkColors_problems (v : Value) : Reports (checkColors v) (colorProblems v) := by
  cases v with
  | map es =>
    exact checkEntries_problems (fun group w => checkColorTokens_problems ("color." ++ group) w) es
  | _ => rfl

theorem requireGroup_problems (es : Entries) (group : String) :
    Reports (requireGroup es group) (missingGroup es group) := by
  unfold requireGroup missingGroup lacking
  cases Entries.getText? es group <;> rfl

theorem requireGroup_eq_ok_iff {group : String} :
    requireGroup es group = .ok v ↔ Entries.getText? es group = some v := by
  unfold requireGroup
  cases Entries.getText? es group with
  | some w => simp
  | none => simp

theorem under_of_requireGroup {group : String} (h : requireGroup es group = .ok v)
    (problems : Value → List PlanError) : under es group problems = problems v := by
  rw [under, requireGroup_eq_ok_iff.1 h]

/-- The check accepts a plan without problems, and otherwise reports the first of its problems. -/
theorem define_problems (v : Value) : Reports (define v) (problems v) := by
  cases v with
  | map es =>
    unfold define problems
    dsimp only
    cases hunknown : es.find? fun e => !isGroup e.1 with
    | some e =>
      -- The rest of the check is not reached, so nothing is known of the problems after these.
      obtain ⟨rest, hrest⟩ : ∃ rest, unknownProblems es =
          named (fun key => [.group key (.unknownGroup key)]) e.1 ++ rest := by
        rw [← List.head?_filter, List.head?_eq_some_iff] at hunknown
        obtain ⟨es', hfilter⟩ := hunknown
        rw [unknownProblems, hfilter, List.flatMap_cons]
        exact ⟨_, rfl⟩
      rw [hrest, List.append_assoc]
      refine keyText_problems (fun key => ?_) e.1
      rfl
    | none =>
      have hnone : unknownProblems es = [] := by
        rw [← List.head?_filter, List.head?_eq_none_iff] at hunknown
        rw [unknownProblems, hunknown, List.flatMap_nil]
      rw [hnone, List.nil_append]
      refine (requireGroup_problems es "space").bind fun space hspace => ?_
      refine (requireGroup_problems es "radius").bind fun radius hradius => ?_
      refine (requireGroup_problems es "color").bind fun color hcolor => ?_
      rw [under_of_requireGroup hspace, under_of_requireGroup hradius, under_of_requireGroup hcolor]
      refine (checkLengths_problems "space" space).bind fun s _ => ?_
      exact (checkLengths_problems "radius" radius).bind fun r _ =>
        (checkColors_problems color).map (Plan.mk s r)
  | _ => rfl

end DesignTokens.Plan
