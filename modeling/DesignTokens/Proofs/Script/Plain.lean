import DesignTokens.Script.Expr
import DesignTokens.Script.Parse
import DesignTokens.Proofs.Script.Lexed

/-!
# Plain expressions

`Expr.Plain` singles out the expressions that can be written without loss: names are ASCII and no
keywords, texts hold nothing that would end or escape them, and an array does not end with a hole.
Written plain expressions are balanced (`Expr.balanced`), so those interpolated in a template are
cut out of it as they were written (`Expr.interpolated_templated`).
-/

namespace DesignTokens.Script

/-- A name that stands for a variable. -/
def isVariable (n : List Char) : Bool :=
  isName n && String.ofList n != "async" &&
    !(literalKeywords ++ unaryKeywords ++ binaryKeywords).contains (String.ofList n)

/-- A variable, and names of members behind it. -/
def IsCallee (f : List Char) : Prop :=
  ∃ (n : List Char) (ms : List (List Char)),
    f = n ++ ms.flatMap ('.' :: ·) ∧ isVariable n ∧ ∀ m ∈ ms, isName m

/-- Static text of a template in which nothing begins. -/
structure IsStatic (q : List Char) : Prop where
  noTick : '`' ∉ q
  noEscape : '\\' ∉ q
  noHole : ¬['$', '\x7b'] <:+: q

namespace Expr

mutual

/-- The expression can be written and read back. -/
def Plain : Expr → Prop
  | string v => ∀ c ∈ v.toList, c ≠ '"' ∧ c ≠ '\\' ∧ c ≠ '\n'
  | template qs es =>
    qs.length = es.length + 1 ∧ (∀ q ∈ qs, IsStatic q.toList) ∧ ArgumentsPlain es
  | call f args => IsCallee f.toList ∧ ArgumentsPlain args
  | array es => es.getLast? ≠ some none ∧ MembersPlain es
  | logical _ l r => l.Plain ∧ r.Plain
  | conditional t c a => t.Plain ∧ c.Plain ∧ a.Plain
  | other kind source =>
    kind = "identifier" ∧ isVariable source.toList ∨
      kind = "literal" ∧ literalKeywords.contains source
termination_by structural e => e

def ArgumentsPlain : List Expr → Prop
  | [] => True
  | e :: es => e.Plain ∧ ArgumentsPlain es
termination_by structural es => es

def MembersPlain : List (Option Expr) → Prop
  | [] => True
  | e :: es => HolePlain e ∧ MembersPlain es
termination_by structural es => es

def HolePlain : Option Expr → Prop
  | none => True
  | some e => e.Plain
termination_by structural e => e

end

/-- Interpolations as written, each with the static text after it. -/
def parts : List Expr → List String → List (List Char × List Char)
  | e :: es, q :: qs => (e.chars, q.toList) :: parts es qs
  | _, _ => []

end Expr

namespace Expr

variable {es : List Expr} {qs : List String}

theorem plain_of_mem {e : Expr} (hes : ArgumentsPlain es) (he : e ∈ es) : e.Plain := by
  induction es with
  | nil => cases he
  | cons e' es ih =>
    rcases List.mem_cons.1 he with rfl | he
    · exact hes.1
    · exact ih hes.2 he

theorem map_parts (h : qs.length = es.length) :
    (parts es qs).map (·.1) = es.map chars ∧ (parts es qs).map (·.2) = qs.map String.toList := by
  induction es generalizing qs with
  | nil =>
    obtain rfl := List.eq_nil_of_length_eq_zero h
    exact ⟨rfl, rfl⟩
  | cons e es ih =>
    cases qs with
    | nil => cases h
    | cons q qs =>
      obtain ⟨hfst, hsnd⟩ := ih (Nat.succ.inj h)
      exact ⟨congrArg (_ :: ·) hfst, congrArg (_ :: ·) hsnd⟩

end Expr

/-! ### Names and keywords -/

section

variable {closers f n w : List Char} {source : String}

/-- What a name that is read as such is like. -/
structure IsWord (source : String) : Prop where
  name : isName source.toList
  noAsync : source ≠ "async"
  noUnary : unaryKeywords.contains source = false

theorem IsWord.of_variable (h : isVariable source.toList) :
    IsWord source ∧ literalKeywords.contains source = false := by
  simp only [isVariable, String.ofList_toList, Bool.and_eq_true, bne_iff_ne, Bool.not_eq_true',
    List.contains_eq_mem, List.mem_append, decide_eq_false_iff_not, not_or] at h
  obtain ⟨⟨hname, hasync⟩, ⟨hliteral, hunary⟩, -⟩ := h
  exact ⟨⟨hname, hasync, by simp [hunary]⟩, by simp [hliteral]⟩

theorem IsWord.of_literal (h : literalKeywords.contains source) : IsWord source := by
  have hall : ∀ k ∈ literalKeywords,
      isName k.toList ∧ k ≠ "async" ∧ unaryKeywords.contains k = false := by decide
  obtain ⟨hname, hasync, hunary⟩ := hall source (by simpa using h)
  exact ⟨hname, hasync, hunary⟩

theorem IsWord.of_other {kind : String} (h : (Expr.other kind source).Plain) : IsWord source := by
  rcases h with ⟨-, hsource⟩ | ⟨-, hsource⟩
  · exact (IsWord.of_variable hsource).1
  · exact .of_literal hsource

theorem IsWord.chars (h : IsWord source) (kind : String) :
    (Expr.other kind source).chars = source.toList := by
  have hempty : source.isEmpty = false := by
    rw [Bool.eq_false_iff]
    intro hempty
    have hname := h.name
    rw [String.isEmpty_iff.1 hempty] at hname
    cases hname
  simp [Expr.chars, hempty]

theorem name_of_variable (h : isVariable n) : isName n := by
  simp only [isVariable, Bool.and_eq_true] at h
  exact h.1.1

/-- A character of a callee is a point, or one of a name. -/
theorem mem_callee (h : IsCallee f) {c : Char} (hc : c ∈ f) :
    c = '.' ∨ ∃ m, isName m ∧ c ∈ m := by
  obtain ⟨n, ms, rfl, hn, hms⟩ := h
  rcases List.mem_append.1 hc with hc | hc
  · exact .inr ⟨n, name_of_variable hn, hc⟩
  · obtain ⟨m, hm, hc⟩ := List.mem_flatMap.1 hc
    rcases List.mem_cons.1 hc with rfl | hc
    · exact .inl rfl
    · exact .inr ⟨m, hms m hm, hc⟩

theorem not_mark_of_callee (h : IsCallee f) : ∀ c ∈ f, c ∉ marks := by
  intro c hc
  rcases mem_callee h hc with rfl | ⟨m, hm, hc⟩
  · decide
  · exact not_mark_of_name hm c hc

theorem not_blank_of_callee (h : IsCallee f) : ∀ c ∈ f, Text.isBlank c = false := by
  intro c hc
  rcases mem_callee h hc with rfl | ⟨m, hm, hc⟩
  · decide
  · exact not_blank_of_name hm c hc

end

/-! ### Written expressions are balanced -/

theorem joinWith_cons (sep x : List Char) (xs : List (List Char)) :
    Text.joinWith sep (x :: xs) = x ++ if xs = [] then [] else sep ++ Text.joinWith sep xs := by
  cases xs with
  | nil => simp [Text.joinWith]
  | cons y ys => simp [Text.joinWith, List.intersperse]

namespace Balanced

variable {closers n s w : List Char}

theorem quoted {v : List Char} (hv : ∀ c ∈ v, c ≠ '"' ∧ c ≠ '\\' ∧ c ≠ '\n')
    (h : Balanced closers w) : Balanced closers ('"' :: v ++ ['"'] ++ w) := by
  obtain ⟨a, ha, -, hrest⟩ := readString_plain (.inl rfl) hv w
  rw [List.append_assoc, List.cons_append]
  exact .string (.inl rfl) ha (hrest.symm ▸ h)

theorem paren (h : Balanced (')' :: closers) s) : Balanced closers ('(' :: s) := .opened rfl h

theorem closeParen (h : Balanced closers w) : Balanced (')' :: closers) (')' :: w) :=
  .closed (.inl rfl) h

theorem listed {x : List Char} {xs : List (List Char)}
    (hx : ∀ {w}, Balanced closers w → Balanced closers (x ++ w))
    (hxs : Balanced closers (Text.joinWith [',', ' '] xs ++ w)) (h : Balanced closers w) :
    Balanced closers (Text.joinWith [',', ' '] (x :: xs) ++ w) := by
  have hcomma : ∀ c ∈ [',', ' '], c ∉ marks := List.all_iff_forall_prop.1 (by decide)
  rw [joinWith_cons, List.append_assoc]
  refine hx ?_
  split
  · exact h
  · rw [List.append_assoc]
    exact .plains hcomma hxs

end Balanced

namespace Expr

mutual

theorem balanced : (e : Expr) → e.Plain → ∀ {closers w : List Char}, Balanced closers w →
    Balanced closers (e.chars ++ w)
  | string v, hv, closers, w, h => .quoted hv h
  | template qs es, ⟨hlength, hqs, hes⟩, closers, w, h => by
    cases qs with
    | nil => cases hlength
    | cons q qs =>
      obtain ⟨hq, hqs⟩ := List.forall_mem_cons.1 hqs
      have htemplate := interpolated_templated es qs (Nat.succ.inj hlength) hqs hes q.toList w hq
      simpa [chars] using Balanced.template htemplate h
  | call f args, ⟨hf, hargs⟩, closers, w, h => by
    have hrest := arguments_balanced args hargs (Balanced.closeParen h)
    have hall := Balanced.plains (not_mark_of_callee hf) (.paren hrest)
    simpa [chars] using hall
  | array es, ⟨_, hes⟩, closers, w, h => by
    have hrest := members_balanced es hes (.closed (.inr (.inl rfl)) h)
    have hall : Balanced closers ('[' :: _) := .opened rfl hrest
    simpa [chars] using hall
  | logical op l r, ⟨hl, hr⟩, closers, w, h => by
    have hop : ∀ c ∈ ' ' :: op.text.toList ++ [' '], c ∉ marks := by
      refine List.all_iff_forall_prop.1 ?_
      cases op <;> decide
    have hrest := balanced l hl (.plains hop (balanced r hr (Balanced.closeParen h)))
    simpa [chars] using hrest.paren
  | conditional t c a, ⟨ht, hc, ha⟩, closers, w, h => by
    have hquestion : ∀ c ∈ [' ', '?', ' '], c ∉ marks := List.all_iff_forall_prop.1 (by decide)
    have hcolon : ∀ c ∈ [' ', ':', ' '], c ∉ marks := List.all_iff_forall_prop.1 (by decide)
    have halternate := balanced a ha (Balanced.closeParen h)
    have hconsequent := balanced c hc (.plains hcolon halternate)
    have hrest := balanced t ht (.plains hquestion hconsequent)
    simpa [chars] using hrest.paren
  | other kind source, hsource, closers, w, h => by
    have hword := IsWord.of_other hsource
    rw [hword.chars]
    exact .plains (not_mark_of_name hword.name) h
termination_by structural e => e

theorem arguments_balanced : (es : List Expr) → ArgumentsPlain es → ∀ {closers w : List Char},
    Balanced closers w → Balanced closers (Text.joinWith [',', ' '] (argumentChars es) ++ w)
  | [], _, closers, w, h => h
  | e :: es, ⟨he, hes⟩, closers, w, h => by
    exact .listed (balanced e he) (arguments_balanced es hes h) h
termination_by structural es => es

theorem members_balanced : (es : List (Option Expr)) → MembersPlain es →
    ∀ {closers w : List Char}, Balanced closers w →
      Balanced closers (Text.joinWith [',', ' '] (memberChars es) ++ w)
  | [], _, closers, w, h => h
  | e :: es, ⟨he, hes⟩, closers, w, h => by
    exact .listed (hole_balanced e he) (members_balanced es hes h) h
termination_by structural es => es

theorem hole_balanced : (e : Option Expr) → HolePlain e → ∀ {closers w : List Char},
    Balanced closers w → Balanced closers (holeChars e ++ w)
  | none, _, _, _, h => h
  | some e, he, _, _, h => balanced e he h
termination_by structural e => e

theorem interpolated_templated : (es : List Expr) → (qs : List String) → qs.length = es.length →
    (∀ q ∈ qs, IsStatic q.toList) → ArgumentsPlain es → ∀ (first w : List Char), IsStatic first →
      Templated ⟨first, parts es qs⟩ (first ++ (interpolated es qs ++ '`' :: w)) w
  | [], [], _, _, _, first, w, hfirst => by
    have hplain := Templated.plain hfirst.noTick hfirst.noEscape hfirst.noHole (by simp) (.close w)
    simpa [Template.prepend, parts, interpolated] using hplain
  | e :: es, q :: qs, hlength, hqs, ⟨he, hes⟩, first, w, hfirst => by
    obtain ⟨hq, hqs⟩ := List.forall_mem_cons.1 hqs
    have hrest := interpolated_templated es qs (Nat.succ.inj hlength) hqs hes q.toList w hq
    have hhole := Templated.hole (balanced e he .nil) hrest
    have hplain := Templated.plain hfirst.noTick hfirst.noEscape hfirst.noHole (by simp) hhole
    simpa [Template.prepend, parts, interpolated] using hplain
  | [], _ :: _, hlength, _, _, _, _, _ => by cases hlength
  | _ :: _, [], hlength, _, _, _, _, _ => by cases hlength
termination_by structural es => es

end

end Expr

end DesignTokens.Script
