import DesignTokens.Proofs.Jsx.Finds
import Mathlib

/-!
# Scanning undoes writing

`scan_chars`: scanning a written tree gives its elements, in the order of their tags. The walks
read the same characters by different rules, so the induction over the tree (`Markup.finds` and
what goes with it) has one statement for each place where a node may stand: as an element, among
children, behind a guard, and in an attribute. Text behind a guard is read as script; what the
tree must not hold there is shown by `scan_guardedChar`.
-/

namespace DesignTokens.Jsx

open Script (Expr)

section

variable {r s u : List Char} {size depth : Nat} {closer : Option Char}
  {operand selfClosing : Bool} {q : List Char → Prop} {attrs : List Attribute}
  {es es' : List Element}

/-! ### Written trees -/

/-- Every digit of the text is a decimal digit. -/
def Decimal (s : List Char) : Prop := ∀ c ∈ s, Text.isDigit c → Text.isDecimalDigit c

instance (s : List Char) : Decidable (Decimal s) :=
  decidable_of_iff (s.all fun c => !Text.isDigit c || Text.isDecimalDigit c)
    (by simp [Decimal, ← Bool.not_eq_true, Decidable.imp_iff_not_or])

theorem Decimal.mono (h : Decimal s) (hr : r ⊆ s) : Decimal r := fun c hc => h c (hr hc)

theorem Markup.leaf_chars (tag : Name isTagNamePart) (as : List MarkupAttribute) (u : List Char) :
    (Markup.leaf tag as).chars ++ u =
      '<' :: (tag.chars ++ (attributesChars as ++ (tagEnd true ++ u))) := by
  simp [Markup.chars, tagEnd]

theorem Markup.element_chars (tag : Name isTagNamePart) (as : List MarkupAttribute)
    (ns : List Node) (u : List Char) :
    (Markup.element tag as ns).chars ++ u =
      '<' :: (tag.chars ++ (attributesChars as ++ (tagEnd false ++
        (nodesChars ns ++ '<' :: '/' :: (tag.chars ++ '>' :: u))))) := by
  simp [Markup.chars, tagEnd]

theorem Markup.fragment_chars (ns : List Node) (u : List Char) :
    (Markup.fragment ns).chars ++ u =
      '<' :: '>' :: (nodesChars ns ++ '<' :: '/' :: ([] ++ '>' :: u)) := by
  simp [Markup.chars]

theorem Markup.trim_chars (m : Markup) : Text.trim m.chars = m.chars := by
  have hlast : ∃ r, m.chars = r ++ ['>'] := by
    cases m with
    | leaf tag as => exact ⟨'<' :: tag.chars ++ attributesChars as ++ ['/'], by simp [chars]⟩
    | element tag as ns => exact ⟨_, rfl⟩
    | fragment ns => exact ⟨'<' :: '>' :: nodesChars ns ++ ['<', '/'], by simp [chars]⟩
  have hends (d : Char) (r : List Char) (hd : Text.isBlank d = false) :
      Text.trimLeft (d :: r) = d :: r := List.dropWhile_cons_of_neg (by simp [hd])
  obtain ⟨r, hr, -⟩ := m.chars_opens
  obtain ⟨r', hr'⟩ := hlast
  rw [Text.trim, hr, hends '<' r (by decide), ← hr, hr', List.reverse_append]
  show (Text.trimLeft ('>' :: r'.reverse)).reverse = _
  rw [hends '>' _ (by decide)]
  simp

theorem Markup.parse_chars (m : Markup) (h : Decimal m.chars) :
    Script.parseLeniently m.chars = .ok (.other "unparsed" (String.ofList m.chars)) := by
  have htrim := m.trim_chars
  obtain ⟨r, hr, -⟩ := m.chars_opens
  rw [hr] at h htrim ⊢
  rw [Script.parseLeniently_angle h, Expr.unparsed, htrim]

theorem Markup.in_script (m : Markup) (h : ElementFinds size u (m.chars ++ u) es)
    (hu : ScriptFinds size closer depth true q u []) :
    ScriptFinds size closer depth true q (m.chars ++ u) es := by
  obtain ⟨r, hr, hopens⟩ := m.chars_opens
  rw [hr, List.cons_append] at h ⊢
  have hboth := script_element (hopens u) h hu
  rwa [List.append_nil] at hboth

theorem Name.not_mem_chars (tag : Name isTagNamePart) : '>' ∉ tag.chars := by
  intro h
  rcases List.mem_cons.1 h with h | h
  · exact ne_of_isNameStart tag.starts (by decide) h.symm
  · exact absurd (tag.parts _ h) (by decide)

theorem Node.guarded_chars (guard : Name isIdentifierPart) (n : Node) (u : List Char) :
    (Node.guarded guard n).chars ++ u =
      '\x7b' :: (guard.chars ++ ' ' :: '&' :: '&' :: ' ' :: (n.chars ++ '\x7d' :: u)) := by
  simp [Node.chars]

/-- A closing brace stands here, and text without markup before `u`. -/
def Closed (u r : List Char) : Prop :=
  ∃ z, (∀ c ∈ z, c ≠ '<' ∧ c ≠ '\x7b') ∧ r = '\x7d' :: (z ++ u)

/-- Text and enough closing braces end the script, and leave nothing but text. -/
theorem script_closed {t : List Char} (ht : '<' ∉ t) (hbrace : '\x7b' ∉ t)
    (hpass : ∀ c ∈ t, c ∉ scriptOpeners) (u : List Char) :
    ScriptFinds size (some '\x7d') depth operand (Closed u)
      (t ++ (List.replicate (depth + 1) '\x7d' ++ u)) [] := by
  have hs (c : Char) (hc : c ∈ t ++ List.replicate (depth + 1) '\x7d') :
      c ≠ '<' ∧ c ≠ '\x7b' ∧ c ∉ scriptOpeners := by
    rcases List.mem_append.1 hc with hc | hc
    · exact ⟨ne_of_mem_of_not_mem hc ht, ne_of_mem_of_not_mem hc hbrace, hpass c hc⟩
    · rw [List.eq_of_mem_replicate hc]
      decide
  have hcount : depth < (t ++ List.replicate (depth + 1) '\x7d').count '\x7d' := by
    rw [List.count_append, List.count_replicate_self]
    omega
  rw [← List.append_assoc]
  refine Walk.Finds.imp (script_plain u hs hcount) ?_
  rintro stop ⟨z, hz, hstop⟩
  exact ⟨z, fun c hc => ⟨(hs c (hz.subset hc)).1, (hs c (hz.subset hc)).2.1⟩, hstop⟩

mutual

/-- Markup is read with the elements in it, and what follows it is left. -/
theorem Markup.finds : (m : Markup) → ∀ (o : Nat) (u : List Char), Passable m.guardedTexts →
    Decimal m.chars → size = o + (m.chars ++ u).length →
      ElementFinds size u (m.chars ++ u) (m.elementsAt o)
  | .leaf tag as, o, u, hpass, hdec, hsize => by
    rw [Markup.leaf_chars] at hsize ⊢
    obtain ⟨c, r, hc, hcs⟩ := attributes_head as true u
    have has := attributes_find as true (o + 1 + tag.chars.length) u hpass
      (hdec.mono fun c hc => by simp [Markup.chars, hc])
      (by simp only [List.length_append, List.length_cons] at hsize ⊢; omega)
    have h := element_finds tag hc hcs (o := o) (by omega) (head_of_trimLeft has) ⟨rfl, rfl⟩
    rw [List.append_nil] at h
    exact h
  | .element tag as ns, o, u, hpass, hdec, hsize => by
    rw [Markup.element_chars] at hsize ⊢
    obtain ⟨c, r, hc, hcs⟩ := attributes_head as false
      (nodesChars ns ++ '<' :: '/' :: (tag.chars ++ '>' :: u))
    obtain ⟨hpass, hpass'⟩ := List.forall_mem_append.1 hpass
    have has := attributes_find as false (o + 1 + tag.chars.length)
      (nodesChars ns ++ '<' :: '/' :: (tag.chars ++ '>' :: u)) hpass
      (hdec.mono fun c hc => by simp [Markup.chars, hc])
      (by simp only [List.length_append, List.length_cons] at hsize ⊢; omega)
    have hend : (tagEnd false).length = 1 := rfl
    have hns := nodes_find ns (o + 1 + tag.chars.length + (attributesChars as).length + 1)
      ('<' :: '/' :: (tag.chars ++ '>' :: u)) u [] hpass'
      (hdec.mono fun c hc => by simp [Markup.chars, hc])
      (by simp only [List.length_append, List.length_cons] at hsize ⊢; omega)
      (children_end tag.not_mem_chars)
    rw [List.append_nil] at hns
    exact element_finds tag hc hcs (by omega) (head_of_trimLeft has) hns
  | .fragment ns, o, u, hpass, hdec, hsize => by
    rw [Markup.fragment_chars] at hsize ⊢
    have hns := nodes_find ns (o + 2) ('<' :: '/' :: ([] ++ '>' :: u)) u [] hpass
      (hdec.mono fun c hc => by simp [Markup.chars, hc])
      (by simp only [List.length_append, List.length_cons] at hsize ⊢; omega)
      (children_end List.not_mem_nil)
    rw [List.append_nil] at hns
    rw [ElementFinds, walkElement]
    exact Walk.Finds.result hns fun _ ha => ha
termination_by structural m => m

theorem attributes_find : (as : List MarkupAttribute) → ∀ (selfClosing : Bool) (o : Nat)
    (u : List Char), Passable (attributeGuardedTexts as) → Decimal (attributesChars as) →
      size = o + (attributesChars as ++ (tagEnd selfClosing ++ u)).length →
        HeadFinds size selfClosing u
          (Text.trimLeft (attributesChars as ++ (tagEnd selfClosing ++ u))) (attributesAt o as)
          (attributeElementsAt o as)
  | [], selfClosing, o, u, _, _, _ => by
    have htrim : Text.trimLeft (tagEnd selfClosing ++ u) = tagEnd selfClosing ++ u := by
      cases selfClosing <;> rfl
    show HeadFinds size selfClosing u (Text.trimLeft (tagEnd selfClosing ++ u)) [] []
    rw [htrim]
    exact head_end
  | a :: as, selfClosing, o, u, hpass, hdec, hsize => by
    rw [trimLeft_attributes]
    obtain ⟨c, r, hc, hcs⟩ := attributes_head as selfClosing u
    obtain ⟨hpass, hpass'⟩ := List.forall_mem_append.1 hpass
    rw [attributesChars] at hdec hsize
    have has := attributes_find as selfClosing (o + 1 + a.chars.length) u hpass'
      (hdec.mono (List.subset_append_right _ _))
      (by simp only [List.length_append, List.length_cons] at hsize ⊢; omega)
    exact a.finds selfClosing (o + 1) u _ _ _ hpass
      (hdec.mono fun c hc => List.mem_append_left _ (List.mem_cons_of_mem _ hc))
      (by simp only [List.length_append, List.length_cons] at hsize ⊢; omega)
      (by simp [hc, hcs.not_attributeNamePart]) (attributes_sign as selfClosing u) has
termination_by structural as => as

theorem MarkupAttribute.finds : (a : MarkupAttribute) → ∀ (selfClosing : Bool) (o : Nat)
    (u s : List Char) (attrs : List Attribute) (es : List Element),
    Passable a.guardedTexts → Decimal a.chars → size = o + (a.chars ++ s).length →
      s.head?.all (!isAttributeNamePart ·) → (Text.trimLeft s).head? ≠ some '=' →
        HeadFinds size selfClosing u (Text.trimLeft s) attrs es →
          HeadFinds size selfClosing u (a.chars ++ s) (⟨a.name, o, a.value⟩ :: attrs)
            (a.elementsAt o ++ es)
  | .bare name, selfClosing, o, u, s, attrs, es, _, _, hsize, hs, hsign, h => by
    have ho : size - (name.chars ++ s).length = o := Nat.sub_eq_of_eq_add hsize
    exact ho ▸ head_attribute name hs (.bare hsign) h
  | .quoted name v, selfClosing, o, u, s, attrs, es, _, _, hsize, _, _, h => by
    have hchars : (MarkupAttribute.quoted name v).chars ++ s =
        name.chars ++ '=' :: v.quote :: (v.chars ++ v.quote :: s) := by
      simp [MarkupAttribute.chars]
    rw [hchars] at hsize ⊢
    have ho := Nat.sub_eq_of_eq_add hsize
    exact ho ▸ head_attribute name rfl (.quoted v s) (head_of_trimLeft h)
  | .braced name m, selfClosing, o, u, s, attrs, es, hpass, hdec, hsize, _, _, h => by
    have hchars : (MarkupAttribute.braced name m).chars ++ s =
        name.chars ++ '=' :: '\x7b' :: (m.chars ++ '\x7d' :: s) := by
      simp [MarkupAttribute.chars]
    rw [hchars] at hsize ⊢
    have ho := Nat.sub_eq_of_eq_add hsize
    have hdec : Decimal m.chars := hdec.mono fun c hc => by simp [MarkupAttribute.chars, hc]
    have hm := m.finds (o + name.chars.length + 2) ('\x7d' :: s) hpass hdec
      (by simp only [List.length_append, List.length_cons] at hsize ⊢; omega)
    have hbody := m.in_script hm script_end
    have hparse := m.parse_chars hdec
    have hhead := head_attribute name rfl (.braced hbody hparse) (head_of_trimLeft h)
    rwa [ho] at hhead
termination_by structural a => a

theorem nodes_find : (ns : List Node) → ∀ (o : Nat) (s u : List Char) (es : List Element),
    Passable (nodesGuardedTexts ns) → Decimal (nodesChars ns) →
      size = o + (nodesChars ns ++ s).length → ChildrenFinds size u s es →
        ChildrenFinds size u (nodesChars ns ++ s) (nodesElementsAt o ns ++ es)
  | [], o, s, u, es, _, _, _, h => h
  | n :: ns, o, s, u, es, hpass, hdec, hsize, h => by
    obtain ⟨hpass, hpass'⟩ := List.forall_mem_append.1 hpass
    rw [nodesChars] at hdec hsize
    have hns := nodes_find ns (o + n.chars.length) s u es hpass'
      (hdec.mono (List.subset_append_right _ _))
      (by simp only [List.length_append] at hsize ⊢; omega) h
    have hn := n.finds o (nodesChars ns ++ s) u _ hpass (hdec.mono (List.subset_append_left _ _))
      (by simp only [List.length_append] at hsize ⊢; omega) hns
    rwa [← List.append_assoc, ← List.append_assoc] at hn
termination_by structural ns => ns

theorem Node.finds : (n : Node) → ∀ (o : Nat) (s u : List Char) (es : List Element),
    Passable (n.guardedTexts false) → Decimal n.chars → size = o + (n.chars ++ s).length →
      ChildrenFinds size u s es → ChildrenFinds size u (n.chars ++ s) (n.elementsAt o ++ es)
  | .markup m, o, s, u, es, hpass, hdec, hsize, h => by
    have hm := m.finds o s hpass hdec hsize
    obtain ⟨r, hr, hopens⟩ := m.chars_opens
    show ChildrenFinds size u (m.chars ++ s) (m.elementsAt o ++ es)
    rw [hr, List.cons_append] at hm ⊢
    exact children_element (hopens s) hm h
  | .text v, o, s, u, es, _, _, _, h =>
    children_plain
      (fun c hc => ⟨ne_of_mem_of_not_mem hc v.noTag, ne_of_mem_of_not_mem hc v.noBrace⟩) h
  | .guarded guard n, o, s, u, es, hpass, hdec, hsize, h => by
    rw [Node.guarded_chars] at hsize ⊢
    have hn := n.script_finds 0 (o + 1 + guard.chars.length + 4) s hpass
      (hdec.mono fun c hc => by simp [Node.chars, hc])
      (by simp only [List.length_append, List.length_cons, List.length_replicate] at hsize ⊢; omega)
    refine children_braces (script_guard guard hn) ?_
    rintro r ⟨z, hz, rfl⟩
    exact children_plain hz h
termination_by structural n => n

/-- Behind a guard, inside of `depth` further guards. -/
theorem Node.script_finds : (n : Node) → ∀ (depth o : Nat) (u : List Char),
    Passable (n.guardedTexts true) → Decimal n.chars →
      size = o + (n.chars ++ (List.replicate (depth + 1) '\x7d' ++ u)).length →
        ScriptFinds size (some '\x7d') depth true (Closed u)
          (n.chars ++ (List.replicate (depth + 1) '\x7d' ++ u)) (n.elementsAt o)
  | .markup m, depth, o, u, hpass, hdec, hsize => by
    exact m.in_script (m.finds o _ hpass hdec hsize)
      (script_closed List.not_mem_nil List.not_mem_nil (by simp) u)
  | .text v, depth, o, u, hpass, _, _ =>
    script_closed v.noTag v.noBrace (hpass v List.mem_cons_self) u
  | .guarded guard n, depth, o, u, hpass, hdec, hsize => by
    rw [Node.guarded_chars] at hsize ⊢
    have hn := n.script_finds (depth + 1) (o + 1 + guard.chars.length + 4) u hpass
      (hdec.mono fun c hc => by simp [Node.chars, hc])
      (by simp only [List.length_append, List.length_cons, List.length_replicate] at hsize ⊢; omega)
    rw [ScriptFinds, walkScript_punctuation punctuation_brace, if_pos (by decide)]
    exact Walk.Finds.result (script_guard guard hn) fun _ ha => ha
termination_by structural n => n

end

/-! ### Scanning -/

/-- In a text that is only the markup. -/
theorem Markup.script_finds (m : Markup) (hpass : Passable m.guardedTexts)
    (hdec : Decimal m.chars) :
    ScriptFinds m.chars.length none 0 true (fun _ => True) m.chars (m.elementsAt 0) := by
  have hsize : m.chars.length = 0 + (m.chars ++ []).length := by simp
  have hend : ScriptFinds m.chars.length none 0 true (fun _ => True) [] [] := by
    rw [ScriptFinds, walkScript.eq_def]
    exact .pure trivial
  have hscript := m.in_script (m.finds 0 [] hpass hdec hsize) hend
  rwa [List.append_nil] at hscript

/-- Scanning undoes writing: a tree is found with its elements in the order of their tags, each at
its place and with its attributes. -/
theorem scan_chars (m : Markup) (hpass : Passable m.guardedTexts) (hdec : Decimal m.chars) :
    scan m.chars = .ok (m.elementsAt 0) :=
  scan_of_finds (m.script_finds hpass hdec) (m.ordered 0)

end

/-- Markup in an attribute, behind two guards, and text that a guard leaves to its closing brace. -/
def nestedMarkup : Markup :=
  .element ⟨'p', [], rfl, nofun⟩
    [.braced ⟨'a', [], rfl, nofun⟩
      (.leaf ⟨'b', [], rfl, nofun⟩
        [.quoted ⟨'c', [], rfl, nofun⟩ ⟨'"', "\x7d'".toList, .inl rfl, by decide⟩]),
      .bare ⟨'d', [], rfl, nofun⟩]
    [.text ⟨"it's /".toList, by decide, by decide⟩,
      .guarded ⟨'x', [], rfl, nofun⟩
        (.guarded ⟨'y', [], rfl, nofun⟩
          (.markup (.fragment [.markup (.leaf ⟨'i', [], rfl, nofun⟩ [])]))),
      .guarded ⟨'z', [], rfl, nofun⟩ (.text ⟨"\x7d)".toList, by decide, by decide⟩)]

theorem scan_chars_nested :
    Passable nestedMarkup.guardedTexts ∧ Decimal nestedMarkup.chars ∧
      nestedMarkup.chars = ("<p a=\x7b<b c=\"\x7d'\"/>\x7d d>it's /" ++
        "\x7bx && \x7by && <><i/></>\x7d\x7d\x7bz && \x7d)\x7d</p>").toList ∧
      scan nestedMarkup.chars = .ok (nestedMarkup.elementsAt 0) ∧
      (nestedMarkup.elementsAt 0).map (fun e => (e.tag, e.offset)) =
        [("p", 0), ("b", 6), ("i", 41)] := by
  have hpass : Passable nestedMarkup.guardedTexts := by decide
  have hdec : Decimal nestedMarkup.chars := by decide
  exact ⟨hpass, hdec, by decide, scan_chars nestedMarkup hpass hdec, rfl⟩

/-! ### Text behind a guard is script

Each of the characters that `Passable` excludes keeps the brace behind it from closing the guard,
and no other character does. -/

/-- The tree of `<p>{a && c}</p>`, whose text is one character. -/
def guardedChar (c : Char) (htag : c ≠ '<') (hbrace : c ≠ '\x7b') : Markup :=
  .element ⟨'p', [], rfl, nofun⟩ []
    [.guarded ⟨'a', [], rfl, nofun⟩
      (.text ⟨[c], by simpa using htag.symm, by simpa using hbrace.symm⟩)]

section

variable {c : Char} {htag : c ≠ '<'} {hbrace : c ≠ '\x7b'}

theorem scan_guardedChar (hc : c ∈ scriptOpeners) :
    scan (guardedChar c htag hbrace).chars = .ok [] := by
  show scan ("<p>\x7ba && ".toList ++ c :: "\x7d</p>".toList) = .ok []
  simp only [scriptOpeners, List.mem_cons, List.not_mem_nil, or_false] at hc
  rcases hc with rfl | rfl | rfl | rfl | rfl | rfl
  · cbv
  · cbv
  · cbv
  · cbv
  · cbv
  · cbv

theorem decimal_guardedChar (h : Decimal [c]) : Decimal (guardedChar c htag hbrace).chars := by
  have hrest : Decimal ("<p>\x7ba && ".toList ++ "\x7d</p>".toList) := by decide
  intro d hd
  have hd : d ∈ "<p>\x7ba && ".toList ++ c :: "\x7d</p>".toList := hd
  rcases List.mem_append.1 hd with hd | hd
  · exact hrest d (List.mem_append_left _ hd)
  rcases List.mem_cons.1 hd with rfl | hd
  · exact h d List.mem_cons_self
  · exact hrest d (List.mem_append_right _ hd)

theorem scan_guardedChar_iff (h : Decimal [c]) :
    scan (guardedChar c htag hbrace).chars = .ok ((guardedChar c htag hbrace).elementsAt 0) ↔
      c ∉ scriptOpeners := by
  constructor
  · intro hscan hc
    cases hscan.symm.trans (scan_guardedChar hc)
  · intro hc
    have hpass : Passable (guardedChar c htag hbrace).guardedTexts := by
      intro t ht d hd
      rw [List.mem_singleton.1 ht, List.mem_singleton] at hd
      exact hd ▸ hc
    exact scan_of_finds (Markup.script_finds _ hpass (decimal_guardedChar h)) (Markup.ordered 0 _)

end

/-- Not every tree is found: in `<p>{a && "}</p>` the quote begins a string. -/
theorem not_scan_chars : ¬ ∀ m : Markup, Decimal m.chars → scan m.chars = .ok (m.elementsAt 0) := by
  intro h
  have hdec : Decimal ['"'] := by decide
  have hscan := h (guardedChar '"' (by decide) (by decide)) (decimal_guardedChar hdec)
  exact (scan_guardedChar_iff hdec).1 hscan (by decide)

end DesignTokens.Jsx
