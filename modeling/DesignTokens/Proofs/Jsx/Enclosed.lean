import DesignTokens.Proofs.Jsx.Passing
import DesignTokens.Proofs.Jsx.Scan

/-!
# Text that is no code

A literal, a comment or the text between tags may hold anything that does not end it. Whatever it
holds, a scan finds nothing in it and reads what follows as if it stood alone: `scan_enclosed`. The
walk forgets such text (`Enclosed.walked`), and offsets are shifted by its length
(`mapOffset_add`), which the sort by offset does not see.
-/

namespace DesignTokens.Jsx

open Script (Templated afterBlock?_plain afterLine_append marks readString_plain)

/-- Text that encloses what is not read as code, and nothing that would end it. -/
inductive Enclosed
  | string (q : Char) (s : List Char) (isQuote : q = '"' ∨ q = '\'')
    (closed : ∀ c ∈ s, c ≠ q ∧ c ≠ '\\' ∧ c ≠ '\n')
  | block (s : List Char) (closed : ¬['*', '/'] <:+: s)
  | line (s : List Char) (closed : '\n' ∉ s)
  | template (s : List Char) (closed : '`' ∉ s) (plain : '\\' ∉ s) (noHole : ¬['$', '\x7b'] <:+: s)
  | regex (s : List Char) (nonempty : s ≠ []) (noComment : s.head? ≠ some '*')
    (closed : ∀ c ∈ s, c ∉ ['/', '\\', '[', ']', '\n'])
  | paragraph (t : PlainText)

namespace Enclosed

/-- The written text; a literal is followed by a semicolon. -/
def chars : Enclosed → List Char
  | string q s _ _ => q :: s ++ [q, ';']
  | block s _ => '/' :: '*' :: s ++ ['*', '/']
  | line s _ => '/' :: '/' :: s ++ ['\n']
  | template s _ _ _ => '`' :: s ++ ['`', ';']
  | regex s _ _ _ => '/' :: s ++ ['/', ';']
  | paragraph t => '<' :: 'p' :: '>' :: t.chars ++ ['<', '/', 'p', '>']

/-- The elements of the text. -/
def elements : Enclosed → List Element
  | paragraph _ => [⟨"p", 0, []⟩]
  | _ => []

end Enclosed

/-! ### Walking -/

section

variable {closer : Option Char} {depth : Nat} {operand : Bool} {r s t u : List Char}

theorem scriptWalk_semicolon :
    scriptWalk closer depth operand (';' :: t) = scriptWalk closer depth true t :=
  scriptWalk_mark (by decide) (by decide) (by decide)

theorem skipRegex?_plain (hs : ∀ c ∈ s, c ∉ ['/', '\\', '[', ']', '\n']) (t : List Char) :
    ∃ rest, skipRegex? false (s ++ '/' :: ';' :: t) = some rest ∧ rest.1 = ';' :: t := by
  induction s with
  | nil => exact ⟨_, rfl, rfl⟩
  | cons c s ih =>
    obtain ⟨hc, hs⟩ := List.forall_mem_cons.1 hs
    obtain ⟨rest, hrest, hleft⟩ := ih hs
    simp only [List.mem_cons, List.not_mem_nil, or_false, not_or] at hc
    obtain ⟨hslash, hescape, hopen, hclose, hline⟩ := hc
    rw [List.cons_append, skipRegex?]
    · rw [if_neg hline, if_neg (by simp [hslash])]
      have hclass : (c == '[' || (false && c != ']')) = false := by simp [hopen]
      rw [hclass, hrest]
      exact ⟨_, rfl, hleft⟩
    · exact fun h _ => hescape h
    · exact fun _ _ h _ => hescape h

theorem scriptWalk_regex {rest : { u : List Char // u <:+ r }} (hr : atComment ('/' :: r) = false)
    (h : skipRegex? false r = some rest) :
    scriptWalk closer depth true ('/' :: r) = scriptWalk closer depth false rest.1 := by
  rw [scriptWalk, walkScript, if_neg (by decide), if_neg (by simp [hr]), if_neg (by decide),
    if_neg (by decide), if_neg (by decide), if_pos ⟨rfl, rfl⟩, h]
  exact Walk.map_result

theorem scriptWalk_element {size : Nat} {es : List Element} (hr : opensTag ('<' :: r))
    (h : ElementFinds size u ('<' :: r) es) :
    ∃ found, scriptWalk closer depth true ('<' :: r) =
        ⟨found ++ (scriptWalk closer depth true u).found,
          (scriptWalk closer depth true u).outcome⟩ ∧
      (found.map (·.mapOffset (size - ·))).Perm es := by
  obtain ⟨a, hw, rfl, hfound⟩ := h
  have hattempt : (walkElement ('<' :: r)).attempt =
      ⟨(walkElement ('<' :: r)).found, .ok (some a)⟩ := by rw [Walk.attempt, hw]
  refine ⟨(walkElement ('<' :: r)).found, ?_, hfound⟩
  rw [scriptWalk, walkScript, if_neg (by decide), if_neg (by simp [atComment_of_ne]),
    if_neg (by decide), if_neg (by decide), if_neg (by decide), if_neg (by decide),
    if_pos ⟨rfl, hr⟩, tryElement, hattempt, Walk.map_eq, Walk.bind_assoc, Walk.bind_of_ok rfl]
  dsimp only
  rw [← Walk.map_eq, Walk.map_result]
  rfl

theorem paragraph_finds (t : PlainText) (u : List Char) :
    ElementFinds ((Enclosed.paragraph t).chars ++ u).length u ((Enclosed.paragraph t).chars ++ u)
      [⟨"p", 0, []⟩] := by
  obtain ⟨tag, htag⟩ : ∃ tag : Name isTagNamePart, tag.chars = ['p'] :=
    ⟨⟨'p', [], rfl, List.all_eq_true.1 rfl⟩, rfl⟩
  have hchars : (Enclosed.paragraph t).chars ++ u = '<' :: (tag.chars ++ (tagEnd false ++
      (t.chars ++ '<' :: '/' :: (['p'] ++ '>' :: u)))) := by
    simp [Enclosed.chars, htag, tagEnd]
  rw [hchars]
  generalize hsize : List.length _ = size
  have hhead : HeadFinds size false (t.chars ++ '<' :: '/' :: (['p'] ++ '>' :: u))
      (tagEnd false ++ (t.chars ++ '<' :: '/' :: (['p'] ++ '>' :: u))) [] [] := head_end
  have hchildren : ChildrenFinds size u (t.chars ++ '<' :: '/' :: (['p'] ++ '>' :: u)) [] := by
    refine children_plain (fun c hc => ?_) (children_end (by decide))
    exact ⟨ne_of_mem_of_not_mem hc t.noTag, ne_of_mem_of_not_mem hc t.noBrace⟩
  have helement := element_finds tag rfl (.inr (.inr rfl))
    (Nat.sub_eq_zero_of_le (Nat.le_of_eq hsize.symm)) hhead hchildren
  have htext : tag.text = "p" := congrArg String.ofList htag
  rw [htext] at helement
  exact helement

namespace Enclosed

/-- The walk is the one over what follows, and finds the elements of the text besides. -/
theorem walked (p : Enclosed) (t : List Char) :
    ∃ found, scriptWalk none 0 true (p.chars ++ t) =
        ⟨found ++ (scriptWalk none 0 true t).found, (scriptWalk none 0 true t).outcome⟩ ∧
      found.map (·.mapOffset ((p.chars ++ t).length - ·)) = p.elements := by
  have hnone (h : scriptWalk none 0 true (p.chars ++ t) = scriptWalk none 0 true t) :
      ∃ found, scriptWalk none 0 true (p.chars ++ t) =
          ⟨found ++ (scriptWalk none 0 true t).found, (scriptWalk none 0 true t).outcome⟩ ∧
        found.map (·.mapOffset ((p.chars ++ t).length - ·)) = [] :=
    ⟨[], h, rfl⟩
  cases p with
  | string q s hq hs =>
    have hchars : (string q s hq hs).chars ++ t = q :: (s ++ q :: ';' :: t) := by simp [chars]
    obtain ⟨v, hv, -, hrest⟩ := readString_plain hq hs (';' :: t)
    have hskip := skipString_of_readStringBody hv []
    rw [List.append_nil, List.append_nil, hrest] at hskip
    refine hnone ?_
    rw [hchars, scriptWalk_string hq hskip]
    exact scriptWalk_semicolon
  | block s hs =>
    have hchars : (block s hs).chars ++ t = '/' :: '*' :: (s ++ '*' :: '/' :: t) := by simp [chars]
    refine hnone ?_
    rw [hchars]
    exact scriptWalk_block (afterBlock?_plain hs t)
  | line s hs =>
    have hchars : (line s hs).chars ++ t = '/' :: '/' :: (s ++ '\n' :: t) := by simp [chars]
    refine hnone ?_
    rw [hchars, scriptWalk_line, afterLine_append hs]
  | template s htick hescape hhole =>
    have hchars : (template s htick hescape hhole).chars ++ t =
        '`' :: (s ++ ['`'] ++ ';' :: t) := by simp [chars]
    have htemplate := Templated.plain htick hescape hhole (by simp) (.close [])
    refine hnone ?_
    rw [hchars, scriptWalk_template, walk_templated htemplate]
    exact scriptWalk_semicolon
  | regex s hne hstar hs =>
    have hchars : (regex s hne hstar hs).chars ++ t = '/' :: (s ++ '/' :: ';' :: t) := by
      simp [chars]
    obtain ⟨rest, hrest, hleft⟩ := skipRegex?_plain hs t
    have hcomment : atComment ('/' :: (s ++ '/' :: ';' :: t)) = false := by
      cases s with
      | nil => exact absurd rfl hne
      | cons c s =>
        have hslash : c ≠ '/' := by
          rintro rfl
          exact hs '/' List.mem_cons_self (by decide)
        have hblock : c ≠ '*' := fun h => hstar (congrArg some h)
        simp [atComment, hslash, hblock]
    refine hnone ?_
    rw [hchars, scriptWalk_regex hcomment hrest, hleft]
    exact scriptWalk_semicolon
  | paragraph v =>
    obtain ⟨found, hwalk, hfound⟩ := scriptWalk_element rfl (paragraph_finds v t)
    exact ⟨found, hwalk, List.perm_singleton.1 hfound⟩

end Enclosed

/-! ### Shifted offsets -/

theorem found_scriptWalk : (scriptWalk closer depth operand s).found =
    (walkScript closer depth operand s).found := by
  rw [scriptWalk, Walk.map_eq]
  cases hw : (walkScript closer depth operand s).outcome with
  | ok a =>
    rw [Walk.bind_of_ok hw]
    exact List.append_nil _
  | error h => rw [Walk.bind_of_error hw]

/-- What is found in a text has its offsets there. -/
theorem offsets_le {e : Element} {o : Nat} (he : e ∈ (scriptWalk closer depth operand s).found)
    (ho : o ∈ e.places) : o ≤ s.length := by
  have hplaced : Placed s [] (walkScript closer depth operand s).found [] := by
    have hwalk := (walks s).script closer depth operand
    cases hw : (walkScript closer depth operand s).outcome with
    | ok stop => exact (hwalk.ok stop hw).forget
    | error h => exact hwalk.error h hw
  rw [found_scriptWalk] at he
  exact (hplaced.range o (List.mem_flatMap.2 ⟨e, he, ho⟩)).2

/-- Counted from the start, offsets are shifted by the length of what stands before. -/
theorem mapOffset_add {e : Element} {k n : Nat} (h : ∀ o ∈ e.places, o ≤ n) :
    e.mapOffset (k + n - ·) = (e.mapOffset (n - ·)).mapOffset (k + ·) := by
  obtain ⟨tag, offset, attributes⟩ := e
  obtain ⟨hoffset, hattributes⟩ := List.forall_mem_cons.1 h
  simp only [Element.mapOffset, Element.mk.injEq, List.map_map, true_and]
  refine ⟨Nat.add_sub_assoc hoffset k, List.map_congr_left fun a ha => ?_⟩
  have ha := hattributes _ (List.mem_map_of_mem ha)
  simp only [Function.comp, Nat.add_sub_assoc ha k]

/-- The tag of `a` does not open behind that of `b`. -/
def opensBefore (a b : Element) : Bool := a.offset ≤ b.offset

theorem opensBefore_trans (a b c : Element) (h : opensBefore a b) (h' : opensBefore b c) :
    opensBefore a c := by
  simp only [opensBefore, decide_eq_true_eq] at *
  omega

theorem opensBefore_total (a b : Element) : opensBefore a b || opensBefore b a := by
  simp only [opensBefore, Bool.or_eq_true, decide_eq_true_eq]
  omega

/-- The elements in the order of their tags. -/
def inOrder (es : List Element) : List Element := es.mergeSort opensBefore

theorem inOrder_shift (k : Nat) (es : List Element) :
    inOrder (es.map (·.mapOffset (k + ·))) = (inOrder es).map (·.mapOffset (k + ·)) := by
  refine (List.map_mergeSort fun a _ b _ => ?_).symm
  simp [opensBefore, Element.mapOffset]

theorem inOrder_cons {e : Element} {es : List Element} (h : ∀ a ∈ es, e.offset ≤ a.offset) :
    inOrder (e :: es) = e :: inOrder es := by
  obtain ⟨front, back, hcons, hrest, hfront⟩ :=
    List.mergeSort_cons opensBefore_trans opensBefore_total e es
  have hnil : front = [] := by
    rw [List.eq_nil_iff_forall_not_mem]
    intro a ha
    have hmem : a ∈ es.mergeSort opensBefore := hrest ▸ List.mem_append_left back ha
    have hle : opensBefore e a := decide_eq_true (h a (List.mem_mergeSort.1 hmem))
    exact absurd (hfront a ha) (by simp [hle])
  rw [inOrder, inOrder, hcons, hrest, hnil]
  rfl

theorem Enclosed.inOrder_append (p : Enclosed) (es : List Element) :
    inOrder (p.elements ++ es) = p.elements ++ inOrder es := by
  cases p with
  | paragraph => exact inOrder_cons fun _ _ => Nat.zero_le _
  | string | block | line | template | regex => rfl

theorem scan_eq (source : List Char) : scan source =
    match (scriptWalk none 0 true source).outcome with
    | .error (.symbolicDigit d) => .error d
    | _ => .ok (inOrder ((scriptWalk none 0 true source).found.map
        (·.mapOffset (source.length - ·)))) := by
  rw [found_scriptWalk, scan, scriptWalk, Walk.map_eq]
  cases hw : (walkScript none 0 true source).outcome with
  | ok stop =>
    rw [Walk.bind_of_ok hw]
    rfl
  | error h =>
    rw [Walk.bind_of_error hw]
    cases h <;> rfl

/-- Text that is no code is passed over: it contributes its own elements, and what follows is
scanned as if it stood alone. -/
theorem scan_enclosed (p : Enclosed) :
    scan p.chars = .ok p.elements ∧ ∀ t, scan (p.chars ++ t) =
      (scan t).map fun es => p.elements ++ es.map (·.mapOffset (p.chars.length + ·)) := by
  have hshift (t : List Char) : scan (p.chars ++ t) =
      (scan t).map fun es => p.elements ++ es.map (·.mapOffset (p.chars.length + ·)) := by
    obtain ⟨found, hwalk, hfound⟩ := p.walked t
    have hlater : (scriptWalk none 0 true t).found.map
          (·.mapOffset ((p.chars ++ t).length - ·)) =
        ((scriptWalk none 0 true t).found.map (·.mapOffset (t.length - ·))).map
          (·.mapOffset (p.chars.length + ·)) := by
      rw [List.map_map, List.length_append]
      exact List.map_congr_left fun e he => mapOffset_add fun o ho => offsets_le he ho
    have hsorted : inOrder ((found ++ (scriptWalk none 0 true t).found).map
          (·.mapOffset ((p.chars ++ t).length - ·))) =
        p.elements ++ (inOrder ((scriptWalk none 0 true t).found.map
          (·.mapOffset (t.length - ·)))).map (·.mapOffset (p.chars.length + ·)) := by
      rw [List.map_append, hfound, hlater, p.inOrder_append, inOrder_shift]
    rw [scan_eq, scan_eq, hwalk]
    dsimp only
    rw [hsorted]
    cases hw : (scriptWalk none 0 true t).outcome with
    | ok rest => rfl
    | error h => cases h <;> rfl
  have hnil : scan [] = .ok [] := by cbv
  have h := hshift []
  rw [List.append_nil, hnil] at h
  exact ⟨h.trans (congrArg Except.ok (List.append_nil _)), hshift⟩

end

end DesignTokens.Jsx
