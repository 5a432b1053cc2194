import Mathlib
import DesignTokens.Proofs.Jsx.Walk

/-!
# The scanner stays in its text

The walks over script, templates, elements and children call each other, each time on a shorter
text. By offsets into the text as a whole: a walk that ends has moved forward and stays in the text,
one that looks for a closer stops at it, and an attempt at an element finds nothing at all, or
elements between its `<` and where it ended (`walks_bounded`). A walk fails where the text is not
what it looks for, or at a digit that is no decimal digit.
-/

namespace DesignTokens.Jsx

/-- A walk in the source ends as `P` says, or it fails, perhaps at a digit of the source. -/
def Walk.Ends {α : Type} (source : List Char) (P : α → Prop) (w : Walk α) : Prop :=
  match w.outcome with
  | .ok a => P a
  | .error .malformed => True
  | .error (.symbolicDigit d) => d.Occurs source

/-- How an attempt at an element ends that opens at the offset `i`. An attempt adds what it finds to
the elements found before. -/
inductive Attempted (source : List Char) (i : Nat) {s : List Char}
    (w : Walk (Option { r : List Char // Tail r s })) : Prop
  /-- There is no element, and nothing is added. -/
  | dropped : w.outcome = .ok none → w.found = [] → Attempted source i w
  /-- There is one that ends at `r`, and what is added begins in it. A walk counts the characters
  that are left. -/
  | element {rest : { r : List Char // Tail r s }} {r : Nat} : w.outcome = .ok (some rest) →
    rest.1 = source.drop r → i < r → r ≤ source.length →
    (∀ e ∈ w.found, ∃ o, e.offset = source.length - o ∧ i ≤ o ∧ o < r) → Attempted source i w
  | digit {d : Script.SymbolicDigit} : w.outcome = .error (.symbolicDigit d) → d.Occurs source →
    Attempted source i w

/-- The walks that begin at an offset of the source end at a later one in it. -/
structure WalksBounded (source : List Char) : Prop where
  /-- With a closer, script is walked over up to this closer. -/
  toCloser : ∀ (i : Nat) (c : Char) depth operand,
    (walkScript (some c) depth operand (source.drop i)).Ends source fun stop =>
      ∃ r, stop.rest = source.drop r ∧ i ≤ r ∧ r < source.length ∧ source[r]? = some c
  /-- Without one, script is walked over up to the end. -/
  toEnd : ∀ (i : Nat) depth operand,
    (walkScript none depth operand (source.drop i)).Ends source fun stop =>
      stop.rest = source.drop source.length
  template : ∀ i, source[i]? = some '`' →
    (walkTemplate (source.drop (i + 1))).Ends source fun rest =>
      ∃ r, rest.1 = source.drop r ∧ i < r ∧ r ≤ source.length
  children : ∀ i, i ≤ source.length →
    (walkChildren (source.drop i)).Ends source fun rest =>
      ∃ r, rest.1 = source.drop r ∧ i ≤ r ∧ r ≤ source.length
  attempt : ∀ i, source[i]? = some '<' → Attempted source i (tryElement (source.drop i))

section

variable {source r s : List Char} {i : Nat} {c : Char}

theorem exists_drop_of_suffix (h : r <:+ source.drop i) (hi : i ≤ source.length) :
    ∃ k, r = source.drop k ∧ i ≤ k ∧ k ≤ source.length := by
  have hlength := h.length_le
  rw [List.length_drop] at hlength
  refine ⟨source.length - r.length, List.suffix_iff_eq_drop.1 (h.trans (List.drop_suffix i _)), ?_,
    Nat.sub_le ..⟩
  omega

namespace Walk

variable {α : Type} {left : α → List Char} {held : α → List Attribute} {w : Walk α} {P : α → Prop}

theorem Places.ends (h : w.Places (source.drop i) left held)
    (hP : ∀ a, w.outcome = .ok a → P a) : w.Ends source P := by
  unfold Ends
  split
  · exact hP _ ‹_›
  · trivial
  · exact (h.digit _ ‹_›).mono (List.drop_suffix i source).isInfix

end Walk

/-- Behind a `<` that opens no tag the attempt is dropped. -/
theorem walkElement_of_not_opensTag (h : opensTag ('<' :: r) = false) :
    walkElement ('<' :: r) = .halt .malformed := by
  have hname : name? isTagNamePart r = none := by
    cases r with
    | nil => rfl
    | cons c r =>
      simp only [opensTag, Bool.or_eq_false_iff] at h
      rw [name?, if_neg (by simp [h.1])]
  rw [walkElement]
  · rw [hname]
  · rintro t - rfl
    simp [opensTag] at h

theorem tryElement_of_not_opensTag (h : opensTag ('<' :: r) = false) :
    tryElement ('<' :: r) = ⟨[], .ok none⟩ := by
  rw [tryElement, walkElement_of_not_opensTag h]
  rfl

/-- An attempt that is not dropped ends behind its `<`, and what it finds stands before its end. -/
theorem attempted_of_leaves {w : Walk (Option { r : List Char // Tail r (source.drop i) })}
    (hi : i < source.length)
    (hleaves : w.Leaves (source.drop i) fun o => o.elim (source.drop i) (·.1))
    (hdropped : w.outcome = .ok none → w.found = []) (hmalformed : w.outcome ≠ .error .malformed) :
    Attempted source i w := by
  cases houtcome : w.outcome with
  | ok o =>
    cases o with
    | none => exact .dropped houtcome (hdropped houtcome)
    | some rest =>
      obtain ⟨r, hr, -, hrn⟩ := exists_drop_of_suffix rest.2.suffix (Nat.le_of_lt hi)
      have hlt := rest.2.length_lt
      rw [hr, List.length_drop, List.length_drop] at hlt
      refine .element houtcome hr (by omega) hrn fun e he => ?_
      have hplace : e.offset ∈ places [] w.found :=
        List.mem_flatMap.2 ⟨e, he, List.mem_cons_self⟩
      have hrange := (hleaves.ok _ houtcome).range _ hplace
      dsimp only [Option.elim] at hrange
      rw [hr, List.length_drop, List.length_drop] at hrange
      exact ⟨source.length - e.offset, by omega, by omega, by omega⟩
  | error h =>
    cases h with
    | malformed => exact absurd houtcome hmalformed
    | symbolicDigit d =>
      exact .digit houtcome ((hleaves.digit d houtcome).mono (List.drop_suffix i source).isInfix)

theorem attempt_not_malformed {α : Type} (w : Walk α) : w.attempt.outcome ≠ .error .malformed := by
  unfold Walk.attempt
  split <;> exact nofun

theorem attempt_dropped {α : Type} {w : Walk α} (h : w.attempt.outcome = .ok none) :
    w.attempt.found = [] := by
  unfold Walk.attempt at h ⊢
  split at h
  · cases h
  · rfl
  · cases h

theorem attempted (hi : source[i]? = some '<') :
    Attempted source i (tryElement (source.drop i)) := by
  obtain ⟨hlt, hchar⟩ := List.getElem?_eq_some_iff.1 hi
  cases hopens : opensTag (source.drop i) with
  | false =>
    have hdrop : source.drop i = '<' :: source.drop (i + 1) := by
      rw [← hchar]
      exact List.drop_eq_getElem_cons hlt
    rw [hdrop] at hopens ⊢
    rw [tryElement_of_not_opensTag hopens]
    exact .dropped rfl rfl
  | true =>
    refine attempted_of_leaves hlt (tryElement_leaves (fun r _ => walks r) hopens) ?_ ?_
    · rw [tryElement]
      exact attempt_dropped
    · rw [tryElement]
      exact attempt_not_malformed _

theorem walks_bounded (source : List Char) : WalksBounded source where
  toCloser i c depth operand := by
    refine ((walks _).script (some c) depth operand).ends fun stop _ => ?_
    have hcloser := stop.atCloser
    have hpos : 0 < stop.rest.length := by
      rw [← stop.cons_next]
      exact Nat.succ_pos _
    have hlength := stop.suffix.length_le
    rw [List.length_drop] at hlength
    obtain ⟨r, hr, hir, -⟩ := exists_drop_of_suffix stop.suffix (by omega)
    rw [hr, List.head?_drop] at hcloser
    exact ⟨r, hr, hir, (List.getElem?_eq_some_iff.1 hcloser).1, hcloser⟩
  toEnd i depth operand := by
    refine ((walks _).script none depth operand).ends fun stop _ => ?_
    rw [List.drop_length]
    exact List.head?_eq_none_iff.1 stop.atCloser
  template i hi := by
    have hlt := (List.getElem?_eq_some_iff.1 hi).1
    exact (walks _).template.ends fun rest _ => exists_drop_of_suffix rest.2 hlt
  children i hi := (walks _).children.ends fun rest _ => exists_drop_of_suffix rest.2 hi
  attempt i hi := attempted hi

/-- The text `<a><b/>{`, in which a brace is not closed. -/
def openBrace : List Char := ['<', 'a', '>', '<', 'b', '/', '>', '\x7b']

/-- The attempt at `a` finds both elements before it fails, and keeps none; a later one finds `b`
for good. -/
theorem walks_bounded_dropped :
    (walkElement openBrace).found = [⟨"a", 8, []⟩, ⟨"b", 5, []⟩] ∧
      (tryElement openBrace).found = [] ∧ Attempted openBrace 0 (tryElement openBrace) ∧
      (tryElement (openBrace.drop 3)).found = [⟨"b", 5, []⟩] ∧
      Attempted openBrace 3 (tryElement (openBrace.drop 3)) := by
  have hbounded := walks_bounded openBrace
  have hfound : (walkElement openBrace).found = [⟨"a", 8, []⟩, ⟨"b", 5, []⟩] := by cbv
  have hdropped : (tryElement openBrace).found = [] := by cbv
  have hlater : (tryElement (openBrace.drop 3)).found = [⟨"b", 5, []⟩] := by cbv
  exact ⟨hfound, hdropped, hbounded.attempt 0 rfl, hlater, hbounded.attempt 3 rfl⟩

end

end DesignTokens.Jsx
