import DesignTokens.Proofs.ClassName.Template
import Mathlib.Data.List.ReduceOption
import Mathlib.Logic.Relation

/-!
# Class names in normal form

What is extracted are whole words (`IsClassName`), so joined with spaces they split into the same
list. A call or an array has the class names of its members, one member after the other
(`argumentClassNames_eq`, `memberClassNames_eq`). So each step of flattening (`Flattens`) keeps
them, and with it any number of steps (`classNames_normal`).
-/

namespace DesignTokens.Script

variable {c s : String} {names : List String} {e e' : Expr} {es : List (Option Expr)}

/-! ### Class names are words -/

/-- A text that is one word: it is not empty, and no blank stands in it. -/
structure IsClassName (c : String) : Prop where
  ne_empty : c ≠ ""
  notBlank : ∀ x ∈ c.toList, Text.isBlank x = false

theorem isClassName_of_mem_classWords (h : c ∈ classWords s) : IsClassName c := by
  obtain ⟨front, back, -, hword⟩ := Text.mem_words.1 (mem_classWords.1 h)
  refine ⟨?_, hword.notBlank⟩
  rintro rfl
  exact hword.ne_nil rfl

mutual

theorem isClassName_of_mem_classNames : (e : Expr) → ∀ c ∈ e.classNames, IsClassName c
  | .string v => fun c hc => isClassName_of_mem_classWords hc
  | .template qs _ => fun c hc => by
    obtain ⟨q, -, hc⟩ := List.mem_flatMap.1 hc
    exact isClassName_of_mem_classWords hc
  | .call _ args => isClassName_of_mem_argumentClassNames args
  | .array es => isClassName_of_mem_memberClassNames es
  | .logical _ l r => fun c hc => (List.mem_append.1 hc).elim
    (isClassName_of_mem_classNames r c) (isClassName_of_mem_classNames l c)
  | .conditional _ t f => fun c hc => (List.mem_append.1 hc).elim
    (isClassName_of_mem_classNames t c) (isClassName_of_mem_classNames f c)
  | .other _ _ => nofun

theorem isClassName_of_mem_argumentClassNames : (es : List Expr) →
    ∀ c ∈ argumentClassNames es, IsClassName c
  | [] => nofun
  | e :: es => fun c hc => (List.mem_append.1 hc).elim
    (isClassName_of_mem_classNames e c) (isClassName_of_mem_argumentClassNames es c)

theorem isClassName_of_mem_memberClassNames : (es : List (Option Expr)) →
    ∀ c ∈ memberClassNames es, IsClassName c
  | [] => nofun
  | e :: es => fun c hc => (List.mem_append.1 hc).elim
    (isClassName_of_mem_valueClassNames e c) (isClassName_of_mem_memberClassNames es c)

theorem isClassName_of_mem_valueClassNames : (e : Option Expr) →
    ∀ c ∈ valueClassNames e, IsClassName c
  | none => nofun
  | some e => isClassName_of_mem_classNames e

end

/-! ### Joined class names -/

theorem IsClassName.classWords_eq (h : IsClassName c) : classWords c = [c] := by
  have hne : c.toList ≠ [] := fun hnil => h.ne_empty (String.toList_eq_nil_iff.1 hnil)
  have hwords : Text.words (c.toList ++ []) = [c.toList] :=
    Text.words_run hne h.notBlank rfl
  rw [List.append_nil] at hwords
  rw [classWords, hwords, List.map_singleton, String.ofList_toList]

/-- Class names are split at the spaces they are joined with, and nowhere else. -/
theorem classWords_joinedNames (h : ∀ c ∈ names, IsClassName c) :
    classWords (" ".intercalate names) = names := by
  calc classWords (" ".intercalate names)
    _ = names.flatMap classWords := classWords_intercalate names
    _ = names.flatMap ([·]) := List.flatMap_congr fun c hc => (h c hc).classWords_eq
    _ = names := List.flatMap_singleton' names

/-! ### Members one after the other -/

theorem argumentClassNames_eq (args : List Expr) :
    argumentClassNames args = args.flatMap Expr.classNames := by
  induction args with
  | nil => rfl
  | cons e args ih => rw [argumentClassNames, ih, List.flatMap_cons]

/-- Holes have no class names. -/
theorem memberClassNames_eq (es : List (Option Expr)) :
    memberClassNames es = es.reduceOption.flatMap Expr.classNames := by
  induction es with
  | nil => rfl
  | cons m es ih =>
    cases m with
    | none => rw [memberClassNames, ih, List.reduceOption_cons_of_none]; rfl
    | some e => rw [memberClassNames, ih, List.reduceOption_cons_of_some, List.flatMap_cons]; rfl

theorem argumentClassNames_reduceOption (es : List (Option Expr)) :
    argumentClassNames es.reduceOption = memberClassNames es := by
  rw [argumentClassNames_eq, memberClassNames_eq]

theorem argumentClassNames_append (args args' : List Expr) :
    argumentClassNames (args ++ args') = argumentClassNames args ++ argumentClassNames args' := by
  rw [argumentClassNames_eq, argumentClassNames_eq, argumentClassNames_eq, List.flatMap_append]

theorem memberClassNames_append (es es' : List (Option Expr)) :
    memberClassNames (es ++ es') = memberClassNames es ++ memberClassNames es' := by
  rw [memberClassNames_eq, memberClassNames_eq, memberClassNames_eq, List.reduceOption_append,
    List.flatMap_append]

/-- The arguments of a call or the members of an array. -/
def Expr.members? : Expr → Option (List (Option Expr))
  | .call _ args => some (args.map some)
  | .array es => some es
  | _ => none

theorem memberClassNames_of_members? (h : e.members? = some es) :
    memberClassNames es = e.classNames := by
  cases e with
  | call callee args =>
    obtain rfl : args.map some = es := Option.some.inj h
    rw [← argumentClassNames_reduceOption, List.reduceOption, List.filterMap_map,
      Function.id_comp, List.filterMap_some]
    rfl
  | array es' =>
    obtain rfl : es' = es := Option.some.inj h
    rfl
  | _ => cases h

/-! ### Flattening -/

/-- One step of flattening, at any depth: a hole is gone, or a call or an array among the members
of another one has given its place to its own members. -/
inductive Flattens : Expr → Expr → Prop
  | hole (before after : List (Option Expr)) :
    Flattens (.array (before ++ none :: after)) (.array (before ++ after))
  /-- The holes of an array do not come into a call. -/
  | inCall (callee : String) (before after : List Expr) {e : Expr} {es : List (Option Expr)}
    (hes : e.members? = some es) :
    Flattens (.call callee (before ++ e :: after))
      (.call callee (before ++ (es.reduceOption ++ after)))
  | inArray (before after : List (Option Expr)) {e : Expr} {es : List (Option Expr)}
    (hes : e.members? = some es) :
    Flattens (.array (before ++ some e :: after)) (.array (before ++ (es ++ after)))
  | argument (callee : String) (before after : List Expr) {e e' : Expr} (h : Flattens e e') :
    Flattens (.call callee (before ++ e :: after)) (.call callee (before ++ e' :: after))
  | member (before after : List (Option Expr)) {e e' : Expr} (h : Flattens e e') :
    Flattens (.array (before ++ some e :: after)) (.array (before ++ some e' :: after))
  | interpolation (qs : List String) (before after : List Expr) {e e' : Expr} (h : Flattens e e') :
    Flattens (.template qs (before ++ e :: after)) (.template qs (before ++ e' :: after))
  | left (op : LogicalOp) {l l' : Expr} (r : Expr) (h : Flattens l l') :
    Flattens (.logical op l r) (.logical op l' r)
  | right (op : LogicalOp) (l : Expr) {r r' : Expr} (h : Flattens r r') :
    Flattens (.logical op l r) (.logical op l r')
  | test {t t' : Expr} (c a : Expr) (h : Flattens t t') :
    Flattens (.conditional t c a) (.conditional t' c a)
  | consequent (t : Expr) {c c' : Expr} (a : Expr) (h : Flattens c c') :
    Flattens (.conditional t c a) (.conditional t c' a)
  | alternate (t c : Expr) {a a' : Expr} (h : Flattens a a') :
    Flattens (.conditional t c a) (.conditional t c a')

theorem Flattens.classNames_eq (h : Flattens e e') : e'.classNames = e.classNames := by
  induction h with
  | hole before after =>
    rw [Expr.classNames, Expr.classNames, memberClassNames_append, memberClassNames_append]
    rfl
  | inCall callee before after hes =>
    rw [Expr.classNames, Expr.classNames, argumentClassNames_append, argumentClassNames_append,
      argumentClassNames_append, argumentClassNames_reduceOption, memberClassNames_of_members? hes]
    rfl
  | inArray before after hes =>
    rw [Expr.classNames, Expr.classNames, memberClassNames_append, memberClassNames_append,
      memberClassNames_append, memberClassNames_of_members? hes]
    rfl
  | argument callee before after _ ih =>
    rw [Expr.classNames, Expr.classNames, argumentClassNames_append, argumentClassNames_append,
      argumentClassNames, argumentClassNames, ih]
  | member before after _ ih =>
    rw [Expr.classNames, Expr.classNames, memberClassNames_append, memberClassNames_append,
      memberClassNames, memberClassNames, valueClassNames, valueClassNames, ih]
  | interpolation | test => rfl
  | left op r _ ih => exact congrArg (r.classNames ++ ·) ih
  | right op l _ ih => exact congrArg (· ++ l.classNames) ih
  | consequent t a _ ih => exact congrArg (· ++ a.classNames) ih
  | alternate t c _ ih => exact congrArg (c.classNames ++ ·) ih

theorem classNames_of_flattened (h : Relation.ReflTransGen Flattens e e') :
    e'.classNames = e.classNames := by
  induction h with
  | refl => rfl
  | tail _ hstep ih => exact hstep.classNames_eq.trans ih

/-- Extracted class names are words, and joined with spaces they split into the same list. Those of
a call or an array are the ones of its members, in order, so flattening does not change them. -/
theorem classNames_normal :
    (∀ v : Option Expr, (∀ c ∈ valueClassNames v, IsClassName c) ∧
      classWords (" ".intercalate (valueClassNames v)) = valueClassNames v) ∧
    (∀ callee args, (Expr.call callee args).classNames = args.flatMap Expr.classNames) ∧
    (∀ es, (Expr.array es).classNames = es.reduceOption.flatMap Expr.classNames) ∧
    ∀ e e', Relation.ReflTransGen Flattens e e' → e'.classNames = e.classNames := by
  refine ⟨fun v => ?_, fun _ => argumentClassNames_eq, memberClassNames_eq, fun e e' h => ?_⟩
  · have hnames := isClassName_of_mem_valueClassNames v
    exact ⟨hnames, classWords_joinedNames hnames⟩
  · exact classNames_of_flattened h

/-- A call with a conditional array in it. -/
def conditionalArray (e : Expr) (es : List (Option Expr)) : Expr :=
  .call "cn" [e, .conditional (.other "identifier" "on") (.array es) (.string "")]

/-- A call in a call, and an array behind a hole; an em space stands between the margins. -/
def nestedLists : Expr :=
  conditionalArray (.call "clsx" [.string " flex  p-2\n"])
    [none, some (.array [some (.string "m-1\u2003m-2")])]

def flatLists : Expr :=
  conditionalArray (.string " flex  p-2\n") [some (.string "m-1\u2003m-2")]

theorem classNames_normal_nested :
    ("m-2" ∈ nestedLists.classNames ∧ IsClassName "m-2") ∧
    classWords (" ".intercalate ["flex", "p-2", "m-1", "m-2"]) = ["flex", "p-2", "m-1", "m-2"] ∧
    Relation.ReflTransGen Flattens nestedLists flatLists ∧
    flatLists.classNames = nestedLists.classNames := by
  obtain ⟨hvalue, -, -, hflat⟩ := classNames_normal
  obtain ⟨hwords, hjoined⟩ := hvalue (some nestedLists)
  have hmem : "m-2" ∈ nestedLists.classNames := by decide
  have hnames : valueClassNames (some nestedLists) = ["flex", "p-2", "m-1", "m-2"] := by decide
  rw [hnames] at hjoined
  have hcall (e : Expr) (es : List (Option Expr)) :
      Flattens (conditionalArray (.call "clsx" [e]) es) (conditionalArray e es) :=
    have hargs : (Expr.call "clsx" [e]).members? = some [some e] := rfl
    .inCall "cn" [] [_] hargs
  have hmembers {es es' : List (Option Expr)} (h : Flattens (.array es) (.array es')) (e : Expr) :
      Flattens (conditionalArray e es) (conditionalArray e es') :=
    .argument "cn" [e] [] (.consequent _ _ h)
  have hhole (es : List (Option Expr)) : Flattens (.array (none :: es)) (.array es) := .hole [] es
  have harray (m : Option Expr) : Flattens (.array [some (.array [m])]) (.array [m]) :=
    have hes : (Expr.array [m]).members? = some [m] := rfl
    .inArray [] [] hes
  have hsteps : Relation.ReflTransGen Flattens nestedLists flatLists :=
    .head (hcall _ _) (.head (hmembers (hhole _) _) (.single (hmembers (harray _) _)))
  exact ⟨⟨hmem, hwords _ hmem⟩, hjoined, hsteps, hflat _ _ hsteps⟩

end DesignTokens.Script
