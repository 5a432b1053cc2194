import DesignTokens.Proofs.Jsx.Markup
import DesignTokens.Proofs.Jsx.Walk

/-!
# How the parts of written markup are read

`Walk.Finds`: a walk succeeds and finds given elements, in any order, since an element is found
after those among its attributes. Each part that can stand in written markup is read in one step,
and what the rest finds is found too: plain script (`script_plain`), guards (`script_guard`), text
and elements among children, attributes (`head_attribute`) and tags (`element_finds`). What is found
in the whole text are the elements of its scan (`scan_of_finds`).
-/

namespace DesignTokens.Jsx

open Script (Expr SymbolicDigit)

namespace Walk

variable {α β : Type} {size : Nat} {p : α → Prop} {p' : β → Prop} {es es' : List Element}
  {w : Walk α} {f : α → Walk β}

/-- The walk succeeds with a result that satisfies `p`, and finds the elements `es` in some order;
their offsets are counted from the start of a text of length `size`. -/
def Finds (size : Nat) (p : α → Prop) (es : List Element) (w : Walk α) : Prop :=
  ∃ a, w.outcome = .ok a ∧ p a ∧ (w.found.map (·.mapOffset (size - ·))).Perm es

namespace Finds

theorem pure {a : α} (h : p a) : (Pure.pure a : Walk α).Finds size p [] := ⟨a, rfl, h, .nil⟩

theorem bind (h : w.Finds size p es) (hf : ∀ a, p a → (f a).Finds size p' es') :
    (w >>= f).Finds size p' (es ++ es') := by
  obtain ⟨a, hw, ha, hfound⟩ := h
  obtain ⟨b, hb, hpb, hfound'⟩ := hf a ha
  rw [bind_of_ok hw]
  refine ⟨b, hb, hpb, ?_⟩
  rw [List.map_append]
  exact hfound.append hfound'

theorem result {g : α → β} (h : w.Finds size p es) (hg : ∀ a, p a → p' (g a)) :
    (w >>= fun a => Pure.pure (g a)).Finds size p' es := by
  have hboth := h.bind (f := fun a => Pure.pure (g a)) fun a ha => Finds.pure (hg a ha)
  rwa [List.append_nil] at hboth

theorem attempt (h : w.Finds size p es) :
    w.attempt.Finds size (fun o => ∃ a, o = some a ∧ p a) es := by
  obtain ⟨a, hw, ha, hfound⟩ := h
  rw [Walk.attempt, hw]
  exact ⟨some a, rfl, ⟨a, rfl, ha⟩, hfound⟩

theorem imp {p' : α → Prop} (h : w.Finds size p es) (hp : ∀ a, p a → p' a) :
    w.Finds size p' es := by
  obtain ⟨a, hw, ha, hfound⟩ := h
  exact ⟨a, hw, hp a ha, hfound⟩

theorem perm (h : w.Finds size p es) (hes : es.Perm es') : w.Finds size p es' := by
  obtain ⟨a, hw, ha, hfound⟩ := h
  exact ⟨a, hw, ha, hfound.trans hes⟩

end Finds

end Walk

/-! ### Characters -/

section

variable {c d : Char} {p : Char → Bool} {r s : List Char}

theorem toNat_of_isNameStart (h : isNameStart c) :
    65 ≤ c.toNat ∧ c.toNat ≤ 90 ∨ 97 ≤ c.toNat ∧ c.toNat ≤ 122 ∨ c.toNat = 95 ∨ c.toNat = 36 := by
  simp only [isNameStart, Text.isAsciiLetter, Bool.or_eq_true, Bool.and_eq_true, decide_eq_true_eq,
    beq_iff_eq] at h
  rcases h with ((h | h) | rfl) | rfl
  · exact .inr (.inl h)
  · exact .inl h
  · exact .inr (.inr (.inl rfl))
  · exact .inr (.inr (.inr rfl))

theorem isBlank_of_isNameStart (h : isNameStart c) : Text.isBlank c = false := by
  have hc := toNat_of_isNameStart h
  simp only [Text.isBlank, Text.inRanges, Text.blanks, List.any_cons, List.any_nil, Bool.or_false,
    Bool.or_eq_false_iff, Bool.and_eq_false_iff, decide_eq_false_iff_not]
  omega

theorem ne_of_isNameStart (h : isNameStart c) (hd : isNameStart d = false) : c ≠ d := by
  rintro rfl
  rw [h] at hd
  cases hd

theorem isScriptWordPart_of_isNameStart (h : isNameStart c) : isScriptWordPart c := by
  have hc : c.toNat < 0x80 := by
    have := toNat_of_isNameStart h
    omega
  simp only [isNameStart, Bool.or_eq_true] at h
  simp only [isScriptWordPart, Text.isWordChar, if_pos hc, Bool.or_eq_true]
  rcases h with (h | h) | h
  · exact .inl (.inl (.inl (.inl h)))
  · exact .inl (.inl (.inr h))
  · exact .inl (.inr h)

theorem atComment_of_ne (h : c ≠ '/') : atComment (c :: r) = false := by
  unfold atComment
  split
  · rename_i heq
    cases heq
    exact absurd rfl h
  · rfl

theorem opensTag_of_ne (h : c ≠ '<') : opensTag (c :: r) = false := by
  unfold opensTag
  split
  · rename_i heq
    cases heq
    exact absurd rfl h
  · rfl

theorem Name.read (n : Name p) (hs : s.head?.all (!p ·)) :
    ∃ m : Read String (n.chars ++ s), name? p (n.chars ++ s) = some m ∧ m.value = n.text ∧
      m.rest = s := by
  obtain ⟨htake, hdrop⟩ := takeWhile_append_of_head n.parts hs
  refine ⟨_, if_pos n.starts, ?_, hdrop⟩
  exact congrArg (fun r => String.ofList (n.first :: r)) htake

/-! ### Script -/

/-- A character that is one token of script, and no quote. -/
structure Punctuation (c : Char) : Prop where
  blank : Text.isBlank c = false
  slash : c ≠ '/'
  quote : ¬(c = '"' ∨ c = '\'')
  tick : c ≠ '`'
  word : isScriptWordPart c = false
  tag : c ≠ '<'

theorem walkScript_punctuation (hc : Punctuation c) (closer : Option Char) (depth : Nat)
    (operand : Bool) (r : List Char) :
    walkScript closer depth operand (c :: r) =
      if c = '(' ∨ c = '[' ∨ c = '\x7b' then
        walkScript closer (depth + 1) (operandPunctuation.contains c) r >>= fun stop =>
          pure (stop.after (List.suffix_cons c r))
      else if c = ')' ∨ c = ']' ∨ c = '\x7d' then
        if h : closer = some c ∧ depth = 0 then pure ⟨c :: r, List.suffix_refl _, h.1.symm⟩
        else walkScript closer (depth - 1) (operandPunctuation.contains c) r >>= fun stop =>
          pure (stop.after (List.suffix_cons c r))
      else walkScript closer depth (operandPunctuation.contains c) r >>= fun stop =>
        pure (stop.after (List.suffix_cons c r)) := by
  rw [walkScript, if_neg (by simp [hc.blank]), if_neg (by simp [atComment_of_ne hc.slash]),
    if_neg hc.quote, if_neg hc.tick, if_neg (by simp [hc.word])]
  rw [if_neg (fun h => hc.slash h.1)]
  rw [if_neg (fun h => by simp [opensTag_of_ne hc.tag] at h)]
  rfl

variable {size depth : Nat} {closer : Option Char} {operand : Bool} {q : List Char → Prop}
  {es es' : List Element}

/-- Walking over the script `s` finds `es` and stops where `q` holds of what is left. -/
def ScriptFinds (size : Nat) (closer : Option Char) (depth : Nat) (operand : Bool)
    (q : List Char → Prop) (s : List Char) (es : List Element) : Prop :=
  (walkScript closer depth operand s).Finds size (fun stop => q stop.rest) es

theorem script_blank (hc : Text.isBlank c)
    (h : ScriptFinds size closer depth operand q r es) :
    ScriptFinds size closer depth operand q (c :: r) es := by
  rw [ScriptFinds, walkScript, if_pos hc]
  exact Walk.Finds.result h fun _ ha => ha

theorem script_word (hblank : Text.isBlank c = false) (hslash : c ≠ '/')
    (hquote : ¬(c = '"' ∨ c = '\'')) (htick : c ≠ '`') (hword : isScriptWordPart c)
    (h : ∀ operand, ScriptFinds size closer depth operand q (r.dropWhile isScriptWordPart) es) :
    ScriptFinds size closer depth operand q (c :: r) es := by
  rw [ScriptFinds, walkScript, if_neg (by simp [hblank]),
    if_neg (by simp [atComment_of_ne hslash]), if_neg hquote, if_neg htick, if_pos hword]
  exact Walk.Finds.result (h _) fun _ ha => ha

theorem count_dropWhile_word (r : List Char) :
    (r.dropWhile isScriptWordPart).count '\x7d' = r.count '\x7d' := by
  have hword : (r.takeWhile isScriptWordPart).count '\x7d' = 0 := by
    refine List.count_eq_zero.2 fun hmem => ?_
    exact absurd (List.all_eq_true.1 List.all_takeWhile _ hmem) (by decide)
  have hsplit : r.takeWhile isScriptWordPart ++ r.dropWhile isScriptWordPart = r :=
    List.takeWhile_append_dropWhile
  have hcount := congrArg (List.count '\x7d') hsplit
  rwa [List.count_append, hword, Nat.zero_add] at hcount

theorem dropWhile_word_append (h : '\x7d' ∈ r) (u : List Char) :
    (r ++ u).dropWhile isScriptWordPart = r.dropWhile isScriptWordPart ++ u := by
  rw [List.dropWhile_append, if_neg]
  intro hempty
  rw [← List.count_pos_iff, ← count_dropWhile_word, List.isEmpty_iff.1 hempty] at h
  cases h

/-- Text in which nothing begins is passed over, up to a brace that closes more than it opens. -/
theorem script_plain (u : List Char) {s : List Char}
    (hs : ∀ c ∈ s, c ≠ '<' ∧ c ≠ '\x7b' ∧ c ∉ scriptOpeners) (hdepth : depth < s.count '\x7d') :
    ScriptFinds size (some '\x7d') depth operand
      (fun rest => ∃ z, z <:+ s ∧ rest = '\x7d' :: (z ++ u)) (s ++ u) [] := by
  induction hn : s.length using Nat.strongRecOn generalizing s depth operand with
  | ind n ih =>
    subst hn
    cases s with
    | nil => simp at hdepth
    | cons c r =>
      obtain ⟨⟨htag, hbrace, hopener⟩, hr⟩ := List.forall_mem_cons.1 hs
      simp only [scriptOpeners, List.mem_cons, List.not_mem_nil, or_false, not_or] at hopener
      obtain ⟨hdouble, hsingle, htick, hslash, hparen, hbracket⟩ := hopener
      have hquote : ¬(c = '"' ∨ c = '\'') := by
        rintro (h | h)
        · exact hdouble h
        · exact hsingle h
      -- what the rest finds is found here too
      have hback (r' : List Char) (depth' : Nat) (operand' : Bool) (hsuffix : r' <:+ r)
          (hcount : depth' < r'.count '\x7d') :
          ScriptFinds size (some '\x7d') depth' operand'
            (fun rest => ∃ z, z <:+ c :: r ∧ rest = '\x7d' :: (z ++ u)) (r' ++ u) [] := by
        refine Walk.Finds.imp (ih _ (Nat.lt_succ_of_le hsuffix.length_le)
          (fun d hd => hr d (hsuffix.subset hd)) hcount rfl) ?_
        rintro stop ⟨z, hz, hstop⟩
        exact ⟨z, (hz.trans hsuffix).trans (List.suffix_cons c r), hstop⟩
      rw [List.cons_append]
      by_cases hblank : Text.isBlank c
      · have hne : c ≠ '\x7d' := by
          rintro rfl
          exact absurd hblank (by decide)
        rw [List.count_cons_of_ne hne] at hdepth
        exact script_blank hblank (hback r depth operand (List.suffix_refl r) hdepth)
      rw [Bool.not_eq_true] at hblank
      by_cases hword : isScriptWordPart c
      · have hne : c ≠ '\x7d' := by
          rintro rfl
          exact absurd hword (by decide)
        rw [List.count_cons_of_ne hne] at hdepth
        have hmem : '\x7d' ∈ r := List.count_pos_iff.1 (Nat.zero_lt_of_lt hdepth)
        rw [← count_dropWhile_word] at hdepth
        refine script_word hblank hslash hquote htick hword fun operand' => ?_
        rw [dropWhile_word_append hmem]
        exact hback _ depth operand' (List.dropWhile_suffix _) hdepth
      rw [Bool.not_eq_true] at hword
      rw [ScriptFinds, walkScript_punctuation ⟨hblank, hslash, hquote, htick, hword, htag⟩,
        if_neg (by simp [hparen, hbracket, hbrace])]
      split
      · split
        · rename_i hcloses
          obtain ⟨hc, rfl⟩ := hcloses
          cases hc
          exact .pure ⟨r, List.suffix_cons _ r, rfl⟩
        · rename_i hcloses
          have hcount : depth - 1 < r.count '\x7d' := by
            by_cases hc : c = '\x7d'
            · subst hc
              rw [List.count_cons_self] at hdepth
              have hpos : depth ≠ 0 := fun h => hcloses ⟨rfl, h⟩
              omega
            · rw [List.count_cons_of_ne hc] at hdepth
              omega
          exact Walk.Finds.result (hback r _ _ (List.suffix_refl r) hcount) fun _ ha => ha
      · rename_i hcloses
        have hne : c ≠ '\x7d' := fun h => hcloses (.inr (.inr h))
        rw [List.count_cons_of_ne hne] at hdepth
        exact Walk.Finds.result (hback r _ _ (List.suffix_refl r) hdepth) fun _ ha => ha

variable {u : List Char}

/-- The element or fragment that starts with `s` holds `es` and is followed by `u`. -/
def ElementFinds (size : Nat) (u s : List Char) (es : List Element) : Prop :=
  (walkElement s).Finds size (·.1 = u) es

/-- An element is read where an operand may begin, and another one may follow it. -/
theorem script_element (hr : opensTag ('<' :: r)) (h : ElementFinds size u ('<' :: r) es)
    (hu : ScriptFinds size closer depth true q u es') :
    ScriptFinds size closer depth true q ('<' :: r) (es ++ es') := by
  rw [ScriptFinds, walkScript, if_neg (by decide), if_neg (by simp [atComment_of_ne]),
    if_neg (by decide), if_neg (by decide), if_neg (by decide), if_neg (by decide),
    if_pos ⟨rfl, hr⟩, tryElement]
  refine (Walk.Finds.attempt h).bind fun o ho => ?_
  obtain ⟨a, rfl, rfl⟩ := ho
  exact Walk.Finds.result hu fun _ ha => ha

theorem punctuation_amp : Punctuation '&' :=
  ⟨by decide, by decide, by decide, by decide, by decide, by decide⟩

theorem punctuation_brace : Punctuation '\x7b' :=
  ⟨by decide, by decide, by decide, by decide, by decide, by decide⟩

theorem script_end :
    ScriptFinds size (some '\x7d') 0 operand (· = '\x7d' :: s) ('\x7d' :: s) [] := by
  rw [ScriptFinds, walkScript_punctuation
    ⟨by decide, by decide, by decide, by decide, by decide, by decide⟩, if_neg (by decide),
    if_pos (by decide), dif_pos ⟨rfl, rfl⟩]
  exact .pure rfl

theorem script_amp (h : ScriptFinds size closer depth true q s es) :
    ScriptFinds size closer depth operand q ('&' :: s) es := by
  rw [ScriptFinds, walkScript_punctuation punctuation_amp, if_neg (by decide), if_neg (by decide)]
  exact Walk.Finds.result h fun _ ha => ha

theorem script_guard (guard : Name isIdentifierPart)
    (h : ScriptFinds size closer depth true q s es) :
    ScriptFinds size closer depth operand q (guard.chars ++ ' ' :: '&' :: '&' :: ' ' :: s) es := by
  have hstart := guard.starts
  have hblank : Text.isBlank ' ' := by decide
  have hmore (c : Char) (hc : c ∈ guard.more) : isScriptWordPart c := by
    have hpart := guard.parts c hc
    simp only [isIdentifierPart, Bool.or_eq_true] at hpart
    simp only [isScriptWordPart, Bool.or_eq_true]
    exact .inl hpart
  rw [Name.chars, List.cons_append]
  refine script_word (isBlank_of_isNameStart hstart) (ne_of_isNameStart hstart (by decide)) ?_
    (ne_of_isNameStart hstart (by decide)) (isScriptWordPart_of_isNameStart hstart)
    fun operand => ?_
  · rintro (h | h)
    · exact ne_of_isNameStart hstart (by decide) h
    · exact ne_of_isNameStart hstart (by decide) h
  · rw [(takeWhile_append_of_head hmore (by rfl)).2]
    refine script_blank hblank (script_amp (script_amp ?_))
    exact script_blank hblank h

/-! ### Children -/

/-- The children at the front of `s` hold `es`; behind their closing tag `u` is left. -/
def ChildrenFinds (size : Nat) (u s : List Char) (es : List Element) : Prop :=
  (walkChildren s).Finds size (·.1 = u) es

theorem children_plain {z : List Char} (hz : ∀ c ∈ z, c ≠ '<' ∧ c ≠ '\x7b')
    (h : ChildrenFinds size u s es) : ChildrenFinds size u (z ++ s) es := by
  induction z with
  | nil => exact h
  | cons c z ih =>
    obtain ⟨⟨htag, hbrace⟩, hz⟩ := List.forall_mem_cons.1 hz
    rw [List.cons_append, ChildrenFinds, walkChildren]
    · rw [if_neg (by simp [opensTag_of_ne htag])]
      exact Walk.Finds.result (ih hz) fun _ ha => ha
    · exact fun hc => absurd hc hbrace
    · exact fun _ hc => absurd hc htag

theorem children_element (hr : opensTag ('<' :: r)) (h : ElementFinds size s ('<' :: r) es)
    (hs : ChildrenFinds size u s es') : ChildrenFinds size u ('<' :: r) (es ++ es') := by
  rw [ChildrenFinds, walkChildren]
  · rw [if_pos hr, tryElement]
    refine (Walk.Finds.attempt h).bind fun o ho => ?_
    obtain ⟨a, rfl, rfl⟩ := ho
    exact Walk.Finds.result hs fun _ ha => ha
  · exact fun hc => absurd hc (by decide)
  · rintro r' - rfl
    cases hr

theorem children_braces (h : ScriptFinds size (some '\x7d') 0 true q r es)
    (hs : ∀ s, q s → ChildrenFinds size u s.tail es') :
    ChildrenFinds size u ('\x7b' :: r) (es ++ es') := by
  rw [ChildrenFinds, walkChildren]
  exact Walk.Finds.bind h fun stop hstop => Walk.Finds.result (hs _ hstop) fun _ ha => ha

theorem children_end {name : List Char} (hname : '>' ∉ name) :
    ChildrenFinds size u ('<' :: '/' :: (name ++ '>' :: u)) [] := by
  have hdrop : (name ++ '>' :: u).dropWhile (· != '>') = '>' :: u :=
    (takeWhile_append_of_head (fun c hc => bne_iff_ne.2 (ne_of_mem_of_not_mem hc hname))
      (by rfl)).2
  rw [ChildrenFinds, walkChildren]
  refine .pure ?_
  dsimp only
  rw [hdrop]
  rfl

/-! ### Heads -/

def tagEnd (selfClosing : Bool) : List Char := if selfClosing then ['/', '>'] else ['>']

/-- The head that is read from `s` has the attributes `attrs`, with offsets counted from the start
of a text of length `size`; it leaves `u`. -/
def HeadFinds (size : Nat) (selfClosing : Bool) (u s : List Char) (attrs : List Attribute)
    (es : List Element) : Prop :=
  (walkHead s).Finds size (fun head => head.rest = u ∧ head.value.selfClosing = selfClosing ∧
    head.value.attributes.map (fun a => { a with offset := size - a.offset }) = attrs) es

variable {selfClosing : Bool} {attrs : List Attribute}

theorem head_end : HeadFinds size selfClosing u (tagEnd selfClosing ++ u) [] [] := by
  cases selfClosing with
  | false =>
    show HeadFinds size false u ('>' :: u) [] []
    rw [HeadFinds, walkHead, if_neg (by decide), if_neg (by simp [atComment_of_ne]),
      if_pos (by decide)]
    exact .pure ⟨rfl, rfl, rfl⟩
  | true =>
    show HeadFinds size true u ('/' :: '>' :: u) [] []
    rw [HeadFinds, walkHead, if_neg (by decide), if_neg (by simp [atComment]),
      if_neg (by decide), if_pos ⟨rfl, rfl⟩]
    exact .pure ⟨rfl, rfl, rfl⟩

theorem head_of_trimLeft (h : HeadFinds size selfClosing u (Text.trimLeft s) attrs es) :
    HeadFinds size selfClosing u s attrs es := by
  induction s with
  | nil => exact h
  | cons c s ih =>
    by_cases hc : Text.isBlank c
    · rw [Text.trimLeft, List.dropWhile_cons_of_pos hc] at h
      rw [HeadFinds, walkHead, if_pos hc]
      exact Walk.Finds.result (ih h) fun _ ha => ha
    · rwa [Text.trimLeft, List.dropWhile_cons_of_neg hc] at h

/-- What stands behind the name of an attribute gives its value, and the elements in it. -/
inductive ValueFinds (size : Nat) :
    List Char → Option Expr → List Char → List Element → Prop
  | bare {s : List Char} :
    (Text.trimLeft s).head? ≠ some '=' → ValueFinds size s none (Text.trimLeft s) []
  | quoted (v : QuotedText) (rest : List Char) :
    ValueFinds size ('=' :: v.quote :: (v.chars ++ v.quote :: rest))
      (some (.string (String.ofList v.chars))) rest []
  | braced {body rest : List Char} {e : Expr} {es : List Element} :
    ScriptFinds size (some '\x7d') 0 true (· = '\x7d' :: rest) (body ++ '\x7d' :: rest) es →
      Script.parseLeniently body = .ok e →
      ValueFinds size ('=' :: '\x7b' :: (body ++ '\x7d' :: rest)) (some e) rest es

namespace QuotedText

variable (v : QuotedText)

theorem ne_of_isQuote : v.quote ≠ '\x7b' := by
  rcases v.isQuote with h | h <;> rw [h] <;> decide

theorem trimLeft_append (s : List Char) :
    Text.trimLeft (v.quote :: (v.chars ++ v.quote :: s)) =
      v.quote :: (v.chars ++ v.quote :: s) := by
  refine List.dropWhile_cons_of_neg ?_
  rcases v.isQuote with h | h <;> rw [h] <;> decide

theorem takeWhile_append (s : List Char) :
    (v.chars ++ v.quote :: s).takeWhile (· != v.quote) = v.chars ∧
      (v.chars ++ v.quote :: s).dropWhile (· != v.quote) = v.quote :: s :=
  takeWhile_append_of_head (fun _ hc => bne_iff_ne.2 (ne_of_mem_of_not_mem hc v.closed))
    (by simp)

end QuotedText

def Head.hold (a : Attribute) (h : Head) : Head := { h with attributes := a :: h.attributes }

/-- The walk over a head that starts with the name `m`, for each way to write the value. -/
structure NamedHead {s : List Char} (m : Read String s) : Prop where
  bare : (Text.trimLeft m.rest).head? ≠ some '=' → ∃ tail, walkHead s =
    walkHead (Text.trimLeft m.rest) >>= fun h =>
      pure ((h.map (.hold ⟨m.value, s.length, none⟩)).after tail)
  quoted : ∀ (v : QuotedText) (rest : List Char),
    m.rest = '=' :: v.quote :: (v.chars ++ v.quote :: rest) → ∃ tail, walkHead s =
      walkHead rest >>= fun h => pure
        ((h.map (.hold ⟨m.value, s.length, some (.string (String.ofList v.chars))⟩)).after tail)
  braced : ∀ w : List Char, m.rest = '=' :: '\x7b' :: w →
    ∃ tail : ∀ stop : Stop (some '\x7d') w, Tail stop.next s, walkHead s =
      walkScript (some '\x7d') 0 true w >>= fun stop =>
        match Script.parseLeniently (before w stop.rest) with
        | .error d => .halt (.symbolicDigit d)
        | .ok e => walkHead stop.next >>= fun h =>
          pure ((h.map (.hold ⟨m.value, s.length, some e⟩)).after (tail stop))

theorem namedHead (hc : isNameStart c) {m : Read String (c :: r)}
    (hm : name? isAttributeNamePart (c :: r) = some m) : NamedHead m := by
  have hstep := walkHead.eq_2 c r
  rw [if_neg (by simp [isBlank_of_isNameStart hc]),
    if_neg (by simp [atComment_of_ne (ne_of_isNameStart hc (by decide))]),
    if_neg (ne_of_isNameStart hc (by decide)),
    if_neg (fun h => ne_of_isNameStart hc (by decide) h.1),
    if_neg (ne_of_isNameStart hc (by decide))] at hstep
  split at hstep
  · rename_i hnone
    cases hnone.symm.trans hm
  rename_i m' hm'
  obtain rfl : m' = m := Option.some.inj (hm'.symm.trans hm)
  dsimp only at hstep
  refine ⟨fun hsign => ?_, fun v rest hrest => ?_, fun w hrest => ?_⟩
  · split at hstep
    · rename_i v hv
      rw [hv] at hsign
      exact absurd rfl hsign
    · exact ⟨_, hstep⟩
  · have htrim : Text.trimLeft m'.rest = '=' :: v.quote :: (v.chars ++ v.quote :: rest) := by
      rw [hrest]
      rfl
    have hquoted := v.trimLeft_append rest
    obtain ⟨htake, hdrop⟩ := v.takeWhile_append rest
    split at hstep
    · rename_i v' hv'
      cases htrim.symm.trans hv'
      split at hstep
      · rename_i w hw
        exact absurd hquoted (by simp [hw, v.ne_of_isQuote.symm])
      · rename_i q w _ hw
        cases hquoted.symm.trans hw
        rw [if_pos v.isQuote] at hstep
        split at hstep
        · rename_i hnil
          cases hdrop.symm.trans hnil
        · rename_i x rest' hrest'
          cases hdrop.symm.trans hrest'
          rw [htake] at hstep
          exact ⟨_, hstep⟩
      · rename_i hnil
        cases hquoted.symm.trans hnil
    · rename_i hne
      exact absurd htrim (hne _)
  · have htrim : Text.trimLeft m'.rest = '=' :: '\x7b' :: w := by
      rw [hrest]
      rfl
    split at hstep
    · rename_i v hv
      cases htrim.symm.trans hv
      split at hstep
      · rename_i w' hw'
        cases (show '\x7b' :: w = _ from hw')
        exact ⟨_, hstep⟩
      · rename_i hne hw'
        cases hw'
        exact absurd rfl hne
      · rename_i hnil
        cases hnil
    · rename_i hne
      exact absurd htrim (hne _)

/-- What is found behind an attribute is found from its name on. -/
theorem head_hold {a : Attribute} {t : List Char} (tail : Tail r t)
    (h : HeadFinds size selfClosing u r attrs es) :
    (walkHead r >>= fun head => Pure.pure ((head.map (Head.hold a)).after tail)).Finds size
      (fun head : Read Head t => head.rest = u ∧ head.value.selfClosing = selfClosing ∧
        head.value.attributes.map (fun a => { a with offset := size - a.offset }) =
          { a with offset := size - a.offset } :: attrs) es := by
  refine Walk.Finds.result h ?_
  rintro head ⟨rfl, rfl, rfl⟩
  exact ⟨rfl, rfl, rfl⟩

theorem head_attribute (name : Name isAttributeNamePart) {value : Option Expr}
    (hs : s.head?.all (!isAttributeNamePart ·)) (hvalue : ValueFinds size s value r es)
    (h : HeadFinds size selfClosing u r attrs es') :
    HeadFinds size selfClosing u (name.chars ++ s)
      (⟨name.text, size - (name.chars ++ s).length, value⟩ :: attrs) (es ++ es') := by
  obtain ⟨m, hm, htext, hrest⟩ := name.read hs
  have hnamed : NamedHead m := namedHead name.starts hm
  rw [HeadFinds, ← htext]
  cases hvalue with
  | bare hsign =>
    obtain ⟨tail, hstep⟩ := hnamed.bare (hrest.symm ▸ hsign)
    rw [hstep]
    exact head_hold tail (hrest.symm ▸ h)
  | quoted v rest =>
    obtain ⟨tail, hstep⟩ := hnamed.quoted v r hrest
    rw [hstep]
    exact head_hold tail h
  | @braced body rest e es hbody hparse =>
    obtain ⟨tail, hstep⟩ := hnamed.braced _ hrest
    rw [hstep]
    refine Walk.Finds.bind hbody fun stop hstop => ?_
    have hnext : stop.next = r := by
      rw [Stop.next, hstop, List.tail_cons]
    have h : HeadFinds size selfClosing u stop.next attrs es' := hnext.symm ▸ h
    rw [hstop, before_append_left, hparse]
    exact head_hold (tail stop) h

/-! ### Elements -/

def EndsName (c : Char) : Prop := c = ' ' ∨ c = '/' ∨ c = '>'

theorem EndsName.not_tagNamePart (h : EndsName c) : isTagNamePart c = false := by
  rcases h with rfl | rfl | rfl <;> decide

theorem EndsName.not_attributeNamePart (h : EndsName c) : isAttributeNamePart c = false := by
  rcases h with rfl | rfl | rfl <;> decide

theorem attributes_head (as : List MarkupAttribute) (selfClosing : Bool) (u : List Char) :
    ∃ c r, attributesChars as ++ (tagEnd selfClosing ++ u) = c :: r ∧ EndsName c := by
  cases as with
  | nil =>
    cases selfClosing
    · exact ⟨'>', u, rfl, .inr (.inr rfl)⟩
    · exact ⟨'/', '>' :: u, rfl, .inr (.inl rfl)⟩
  | cons a as => exact ⟨' ', _, rfl, .inl rfl⟩

theorem MarkupAttribute.chars_starts (a : MarkupAttribute) :
    ∃ c r, a.chars = c :: r ∧ isNameStart c := by
  cases a with
  | bare name => exact ⟨name.first, _, rfl, name.starts⟩
  | quoted name => exact ⟨name.first, _, rfl, name.starts⟩
  | braced name => exact ⟨name.first, _, rfl, name.starts⟩

theorem trimLeft_of_isNameStart (hc : isNameStart c) : Text.trimLeft (c :: r) = c :: r :=
  List.dropWhile_cons_of_neg (by simp [isBlank_of_isNameStart hc])

theorem trimLeft_attributes (a : MarkupAttribute) (as : List MarkupAttribute) (s : List Char) :
    Text.trimLeft (attributesChars (a :: as) ++ s) = a.chars ++ (attributesChars as ++ s) := by
  obtain ⟨c, r, hchars, hc⟩ := a.chars_starts
  rw [attributesChars, hchars]
  simp only [List.cons_append, List.append_assoc]
  exact trimLeft_of_isNameStart hc

theorem attributes_sign (as : List MarkupAttribute) (selfClosing : Bool) (u : List Char) :
    (Text.trimLeft (attributesChars as ++ (tagEnd selfClosing ++ u))).head? ≠ some '=' := by
  cases as with
  | nil =>
    cases selfClosing
    · exact fun h => absurd (Option.some.inj h) (by decide)
    · exact fun h => absurd (Option.some.inj h) (by decide)
  | cons a as =>
    obtain ⟨c, r, hchars, hc⟩ := a.chars_starts
    rw [trimLeft_attributes, hchars]
    exact fun h => ne_of_isNameStart hc (by decide) (Option.some.inj h)

theorem Markup.chars_opens (m : Markup) :
    ∃ r, m.chars = '<' :: r ∧ ∀ u, opensTag ('<' :: (r ++ u)) := by
  cases m with
  | leaf tag as => exact ⟨_, rfl, fun u => by simp [Name.chars, opensTag, tag.starts]⟩
  | element tag as ns => exact ⟨_, rfl, fun u => by simp [Name.chars, opensTag, tag.starts]⟩
  | fragment ns => exact ⟨_, rfl, fun u => rfl⟩

/-- A tag is read with its attributes, and with its children unless it closes itself. -/
theorem element_finds (tag : Name isTagNamePart) {o : Nat} {s t : List Char} {c : Char}
    (hs : s = c :: r) (hc : EndsName c)
    (ho : size - ('<' :: (tag.chars ++ s)).length = o)
    (hhead : HeadFinds size selfClosing t s attrs es)
    (hchildren : if selfClosing then t = u ∧ es' = []
      else ChildrenFinds size u t es') :
    ElementFinds size u ('<' :: (tag.chars ++ s)) (⟨tag.text, o, attrs⟩ :: (es ++ es')) := by
  have hend : Text.isBlank c || c == '/' || c == '>' || c == '\x7b' := by
    rcases hc with rfl | rfl | rfl <;> decide
  obtain ⟨m, hm, htext, hrest⟩ := tag.read (s := s) (by simp [hs, hc.not_tagNamePart])
  rw [ElementFinds, walkElement]
  · split
    · rename_i hnone
      cases hnone.symm.trans hm
    rename_i m' hm'
    obtain rfl : m' = m := Option.some.inj (hm'.symm.trans hm)
    rw [if_pos (by simp only [hrest, hs, List.head?_cons, Option.all_some, hend])]
    have hhead : HeadFinds size selfClosing t m'.rest attrs es := hrest.symm ▸ hhead
    -- the element is found after the elements among its attributes
    have hperm (e : Element) : (es ++ ([e] ++ es')).Perm (e :: (es ++ es')) := List.perm_middle
    refine Walk.Finds.perm (Walk.Finds.bind hhead fun head hfound => ?_) (hperm _)
    obtain ⟨rfl, hself, hattrs⟩ := hfound
    have hemit :
        (Walk.emit ⟨m'.value, ('<' :: (tag.chars ++ s)).length, head.value.attributes⟩).Finds size
          (fun _ => True) [⟨tag.text, o, attrs⟩] := by
      refine ⟨(), rfl, trivial, ?_⟩
      simp only [Walk.emit, List.map_cons, List.map_nil, Element.mapOffset, htext, ho, hattrs]
      exact .refl _
    refine hemit.bind fun _ _ => ?_
    rw [hself]
    cases selfClosing with
    | true =>
      obtain ⟨ht, rfl⟩ := hchildren
      exact .pure ht
    | false => exact Walk.Finds.result hchildren fun _ ha => ha
  · intro r' _ htag
    rw [Name.chars, List.cons_append, List.cons.injEq] at htag
    exact ne_of_isNameStart tag.starts (by decide) htag.1

/-! ### Scanning -/

/-- The elements of a scan that finds `es` in any order, if `es` is in order. -/
theorem scan_of_finds {source : List Char} {hi : Nat}
    (h : ScriptFinds source.length none 0 true q source es) (hes : Ordered 0 hi es) :
    scan source = .ok es := by
  obtain ⟨stop, hstop, -, hfound⟩ := h
  unfold scan
  dsimp only
  rw [hstop]
  refine congrArg Except.ok ?_
  have hle : es.Pairwise fun a b => decide (a.offset ≤ b.offset) :=
    hes.sorted.imp fun h => decide_eq_true (Nat.le_of_lt h)
  have hperm :=
    (List.mergeSort_perm _ fun a b : Element => decide (a.offset ≤ b.offset)).trans hfound
  refine List.Perm.eq_of_pairwise ?_ (List.pairwise_mergeSort ?_ ?_ _) hle hperm
  · intro a b ha hb hab hba
    rw [decide_eq_true_eq] at hab hba
    exact hes.eq_of_offset (hperm.subset ha) hb (Nat.le_antisymm hab hba)
  · intro a b c hab hbc
    rw [decide_eq_true_eq] at *
    omega
  · intro a b
    rw [Bool.or_eq_true, decide_eq_true_eq, decide_eq_true_eq]
    omega

/-- Nothing is left to be found at the end of the text. -/
theorem script_done : ScriptFinds size none depth operand (· = []) [] [] := by
  rw [ScriptFinds, walkScript.eq_def]
  exact .pure rfl

end

end DesignTokens.Jsx
