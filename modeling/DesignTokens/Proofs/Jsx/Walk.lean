import DesignTokens.Jsx.Scan
import DesignTokens.Proofs.Script.Parse

/-!
# What a walk finds stands in the text

`Placed s r found held`: between `s` and what is left of it, `r`, stand the elements `found` and
the attributes `held` by a tag that is not finished, all at places of their own. Consecutive parts
of a text can be put together (`Placed.append`), so a walk keeps this if its parts do
(`Walk.Placed.bind`); `walks` is the induction over all walks. A symbolic digit that stops
a walk stands in the text too.
-/

namespace DesignTokens.Jsx

open Script (Expr SymbolicDigit tail_afterLine tail_afterBlock)

/-! ### Elements and attributes in a text -/

/-- How the value of an attribute is written after its name. -/
inductive ValueStands : List Char → Option Expr → Prop
  | absent {s : List Char} : (Text.trimLeft s).head? ≠ some '=' → ValueStands s none
  | quoted {s v w : List Char} {q : Char} :
    Text.trimLeft s = '=' :: v → Text.trimLeft v = q :: w → q = '"' ∨ q = '\'' → q ∈ w →
      ValueStands s (some (.string (String.ofList (w.takeWhile (· != q)))))
  | braced {s v w body rest : List Char} {e : Expr} :
    Text.trimLeft s = '=' :: v → Text.trimLeft v = '\x7b' :: w → body ++ '\x7d' :: rest = w →
      Script.parseLeniently body = .ok e → ValueStands s (some e)

/-- The name and the value of the attribute are written at the front of `t`. -/
def Attribute.Written (a : Attribute) (t : List Char) : Prop :=
  ∃ n : Read String t,
    name? isAttributeNamePart t = some n ∧ n.value = a.name ∧ ValueStands n.rest a.value

/-- The attribute stands at the front of `t`; its offset is counted from the end. -/
structure Attribute.Stands (a : Attribute) (t : List Char) : Prop where
  offset : a.offset = t.length
  written : a.Written t

/-- The tag of the element opens at the front of `t`, and its attributes follow in order. -/
structure Element.Stands (e : Element) (t : List Char) : Prop where
  offset : e.offset = t.length
  tag : ∃ (u : List Char) (n : Read String u),
    t = '<' :: u ∧ name? isTagNamePart u = some n ∧ n.value = e.tag ∧
      ∀ a ∈ e.attributes, a.offset ≤ n.rest.length
  attributes : ∀ a ∈ e.attributes, ∃ v, v <:+ t ∧ a.Stands v
  ordered : e.attributes.Pairwise fun a b => b.offset < a.offset

def Element.places (e : Element) : List Nat := e.offset :: e.attributes.map (·.offset)

def places (held : List Attribute) (found : List Element) : List Nat :=
  held.map (·.offset) ++ found.flatMap Element.places

/-- Between `s` and `r` stand the elements `found` and the attributes `held`, each at a place of its
own. -/
structure Placed (s r : List Char) (found : List Element) (held : List Attribute) : Prop where
  suffix : r <:+ s
  elements : ∀ e ∈ found, ∃ t, t <:+ s ∧ e.Stands t
  attributes : ∀ a ∈ held, ∃ t, t <:+ s ∧ a.Stands t
  ordered : held.Pairwise fun a b => b.offset < a.offset
  range : ∀ o ∈ places held found, r.length < o ∧ o ≤ s.length
  nodup : (places held found).Nodup

namespace Placed

variable {s r t : List Char} {found found' : List Element} {held held' : List Attribute}

theorem of_suffix (h : r <:+ s) : Placed s r [] [] :=
  ⟨h, by simp, by simp, .nil, by simp [places], by simp [places]⟩

theorem places_append : (places (held ++ held') (found ++ found')).Perm
    (places held found ++ places held' found') := by
  simp only [places, List.map_append, List.flatMap_append, List.append_assoc]
  refine List.Perm.append_left _ ?_
  rw [← List.append_assoc, ← List.append_assoc]
  exact List.perm_append_comm.append_right _

theorem append (h : Placed s r found held) (h' : Placed r t found' held') :
    Placed s t (found ++ found') (held ++ held') where
  suffix := h'.suffix.trans h.suffix
  elements e he := by
    rcases List.mem_append.1 he with he | he
    · exact h.elements e he
    · obtain ⟨u, hu, hstands⟩ := h'.elements e he
      exact ⟨u, hu.trans h.suffix, hstands⟩
  attributes a ha := by
    rcases List.mem_append.1 ha with ha | ha
    · exact h.attributes a ha
    · obtain ⟨u, hu, hstands⟩ := h'.attributes a ha
      exact ⟨u, hu.trans h.suffix, hstands⟩
  ordered := by
    refine List.pairwise_append.2 ⟨h.ordered, h'.ordered, fun a ha b hb => ?_⟩
    have hlo := (h.range a.offset (List.mem_append_left _ (List.mem_map_of_mem ha))).1
    have hhi := (h'.range b.offset (List.mem_append_left _ (List.mem_map_of_mem hb))).2
    omega
  range o ho := by
    have hrs := h.suffix.length_le
    have htr := h'.suffix.length_le
    rcases List.mem_append.1 (places_append.subset ho) with ho | ho
    · have := h.range o ho
      omega
    · have := h'.range o ho
      omega
  nodup := by
    refine places_append.nodup_iff.2 ?_
    refine List.nodup_append.2 ⟨h.nodup, h'.nodup, fun o ho o' ho' => ?_⟩
    have hlo := (h.range o ho).1
    have hhi := (h'.range o' ho').2
    omega

theorem of_tail (hr : r <:+ s) (h : Placed r t found held) : Placed s t found held :=
  (of_suffix hr).append h

theorem forget (h : Placed s r found held) : Placed s [] found [] where
  suffix := List.nil_suffix
  elements := h.elements
  attributes := by simp
  ordered := .nil
  range o ho := by
    have := h.range o (List.mem_append_right _ ho)
    exact ⟨by simp only [List.length_nil]; omega, this.2⟩
  nodup := h.nodup.sublist (List.sublist_append_right _ _)

/-- One more attribute, at the front of the text. -/
theorem of_attribute {a : Attribute} (ha : a.Stands s) (hr : Tail r s) : Placed s r [] [a] where
  suffix := hr.suffix
  elements := by simp
  attributes := by simpa using ⟨s, List.suffix_refl s, ha⟩
  ordered := by simp
  range := by simpa [places, ha.offset] using hr.length_lt
  nodup := by simp [places]

/-- A finished tag holds the attributes. -/
theorem element {e : Element} {u : List Char} {n : Read String u}
    (hn : name? isTagNamePart u = some n) (htag : n.value = e.tag)
    (hoffset : e.offset = ('<' :: u).length) (h : Placed n.rest t found e.attributes) :
    Placed ('<' :: u) t (found ++ [e]) [] := by
  have hrest : n.rest <:+ '<' :: u := n.tail.suffix.trans (List.suffix_cons _ u)
  have hlt := n.tail.length_lt
  have hplaces : (places [] (found ++ [e])).Perm (e.offset :: places e.attributes found) := by
    simp only [places, List.map_nil, List.nil_append, List.flatMap_append, List.flatMap_cons,
      List.flatMap_nil, List.append_nil, Element.places]
    exact List.perm_middle.trans (.cons _ List.perm_append_comm)
  have hstands : e.Stands ('<' :: u) := by
    refine ⟨hoffset, ⟨u, n, rfl, hn, htag, fun a ha => ?_⟩, fun a ha => ?_, h.ordered⟩
    · exact (h.range _ (List.mem_append_left _ (List.mem_map_of_mem ha))).2
    · obtain ⟨v, hv, ha⟩ := h.attributes a ha
      exact ⟨v, hv.trans hrest, ha⟩
  refine ⟨h.suffix.trans hrest, fun e' he' => ?_, by simp, .nil, fun o ho => ?_, ?_⟩
  · rcases List.mem_append.1 he' with he' | he'
    · obtain ⟨v, hv, he'⟩ := h.elements e' he'
      exact ⟨v, hv.trans hrest, he'⟩
    · rw [List.mem_singleton.1 he']
      exact ⟨_, List.suffix_refl _, hstands⟩
  · have ht := h.suffix.length_le
    rw [List.length_cons] at hoffset ⊢
    rcases List.mem_cons.1 (hplaces.subset ho) with rfl | ho
    · omega
    · have := h.range o ho
      omega
  · refine hplaces.nodup_iff.2 (List.nodup_cons.2 ⟨fun ho => ?_, h.nodup⟩)
    have := (h.range _ ho).2
    rw [List.length_cons] at hoffset
    omega

end Placed

/-! ### Walks -/

namespace Walk

variable {α β : Type} {s r : List Char} {left : α → List Char} {left' : β → List Char}
  {held : α → List Attribute} {held' : β → List Attribute} {w : Walk α} {f : α → Walk β}

/-- What a walk over `s` finds stands there, in front of what is left if it does not fail. -/
structure Places (s : List Char) (left : α → List Char) (held : α → List Attribute)
    (w : Walk α) : Prop where
  ok : ∀ a, w.outcome = .ok a → Placed s (left a) w.found (held a)
  error : ∀ h, w.outcome = .error h → Placed s [] w.found []
  digit : ∀ d, w.outcome = .error (.symbolicDigit d) → d.Occurs s

/-- A walk that holds no attributes. -/
abbrev Leaves (s : List Char) (left : α → List Char) (w : Walk α) : Prop :=
  w.Places s left fun _ => []

theorem bind_of_ok {a : α} (h : w.outcome = .ok a) :
    w >>= f = ⟨w.found ++ (f a).found, (f a).outcome⟩ := by
  show Walk.bind w f = _
  rw [Walk.bind, h]

theorem bind_of_error {h : Halt} (hw : w.outcome = .error h) :
    w >>= f = ⟨w.found, .error h⟩ := by
  show Walk.bind w f = _
  rw [Walk.bind, hw]

theorem ok_of_bind {b : β} (h : (w >>= f).outcome = .ok b) :
    ∃ a, w.outcome = .ok a ∧ (f a).outcome = .ok b := by
  cases hw : w.outcome with
  | ok a =>
    rw [bind_of_ok hw] at h
    exact ⟨a, rfl, h⟩
  | error e =>
    rw [bind_of_error hw] at h
    cases h

namespace Places

theorem pure {a : α} (h : Placed s (left a) [] (held a)) :
    (Pure.pure a : Walk α).Places s left held := by
  refine ⟨?_, ?_, ?_⟩
  · rintro a' ⟨⟩
    exact h
  · rintro h' ⟨⟩
  · rintro d ⟨⟩

theorem malformed : (Walk.halt .malformed : Walk α).Places s left held := by
  refine ⟨?_, fun _ _ => .of_suffix List.nil_suffix, ?_⟩
  · rintro a ⟨⟩
  · rintro d ⟨⟩

theorem of_tail (hr : r <:+ s) (h : w.Places r left held) : w.Places s left held where
  ok a ha := (h.ok a ha).of_tail hr
  error e he := (h.error e he).of_tail hr
  digit d hd := (h.digit d hd).mono hr.isInfix

/-- One walk after another, which may also stop at a symbolic digit in what was passed over. -/
theorem bind_or_digit (h : w.Leaves s left)
    (hf : ∀ a, left a <:+ s → (f a).Places (left a) left' held' ∨
      ∃ d : SymbolicDigit, f a = halt (.symbolicDigit d) ∧ d.Occurs s) :
    (w >>= f).Places s left' held' := by
  cases hw : w.outcome with
  | error e =>
    rw [bind_of_error hw]
    refine ⟨?_, fun _ _ => h.error e hw, ?_⟩
    · rintro b ⟨⟩
    · rintro d ⟨⟩
      exact h.digit d hw
  | ok a =>
    have hfound := h.ok a hw
    rw [bind_of_ok hw]
    rcases hf a hfound.suffix with hnext | ⟨d, hd, hds⟩
    · refine ⟨fun b hb => ?_, fun e he => ?_, fun d hd => ?_⟩
      · exact hfound.append (hnext.ok b hb)
      · exact hfound.append (hnext.error e he)
      · exact (hnext.digit d hd).mono hfound.suffix.isInfix
    · rw [hd]
      refine ⟨?_, fun _ _ => ?_, ?_⟩
      · rintro b ⟨⟩
      · exact hfound.append (.of_suffix List.nil_suffix)
      · rintro d ⟨⟩
        exact hds

theorem bind (h : w.Leaves s left) (hf : ∀ a, left a <:+ s → (f a).Places (left a) left' held') :
    (w >>= f).Places s left' held' :=
  h.bind_or_digit fun a ha => .inl (hf a ha)

theorem result {g : α → β} (h : w.Places s left held) (hleft : ∀ a, left' (g a) = left a)
    (hheld : ∀ a, held' (g a) = held a) :
    (w >>= fun a => Pure.pure (g a)).Places s left' held' := by
  cases hw : w.outcome with
  | error e =>
    rw [bind_of_error hw]
    refine ⟨?_, fun _ _ => h.error e hw, ?_⟩
    · rintro b ⟨⟩
    · rintro d ⟨⟩
      exact h.digit d hw
  | ok a =>
    rw [bind_of_ok hw]
    refine ⟨?_, ?_, ?_⟩
    · rintro b ⟨⟩
      show Placed s (left' (g a)) (w.found ++ []) (held' (g a))
      rw [List.append_nil, hleft, hheld]
      exact h.ok a hw
    · rintro e ⟨⟩
    · rintro d ⟨⟩

theorem hold (hr : Tail r s) (h : w.Places r left fun a => (held a).tail)
    (hstands : ∀ a, w.outcome = .ok a → ∃ x xs, held a = x :: xs ∧ x.Stands s) :
    w.Places s left held where
  ok a ha := by
    obtain ⟨x, xs, hx, hxs⟩ := hstands a ha
    have hplaced := (Placed.of_attribute hxs hr).append (h.ok a ha)
    simp only [hx, List.tail_cons] at hplaced
    exact hx ▸ hplaced
  error e he := (h.error e he).of_tail hr.suffix
  digit d hd := (h.digit d hd).mono hr.suffix.isInfix

/-- After the attributes of a tag the element is found. -/
theorem element {u : List Char} {n : Read String u} {e : α → Element}
    (hn : name? isTagNamePart u = some n) (htag : ∀ a, n.value = (e a).tag)
    (hoffset : ∀ a, (e a).offset = ('<' :: u).length) (hattributes : ∀ a, (e a).attributes = held a)
    (h : w.Places n.rest left held)
    (hf : ∀ a, left a <:+ n.rest → (f a).Leaves (left a) left') :
    (w >>= fun a => emit (e a) >>= fun _ => f a).Leaves ('<' :: u) left' := by
  have hrest : n.rest <:+ '<' :: u := n.tail.suffix.trans (List.suffix_cons _ u)
  cases hw : w.outcome with
  | error e =>
    rw [bind_of_error hw]
    refine ⟨?_, fun _ _ => (h.error e hw).of_tail hrest, ?_⟩
    · rintro b ⟨⟩
    · rintro d ⟨⟩
      exact (h.digit d hw).mono hrest.isInfix
  | ok a =>
    have hfound := hattributes a ▸ h.ok a hw
    have hplaced := hfound.element hn (htag a) (hoffset a)
    have hnext := hf a hfound.suffix
    have hemit : (emit (e a) >>= fun _ => f a) = ⟨[e a] ++ (f a).found, (f a).outcome⟩ := rfl
    rw [bind_of_ok hw, hemit, ← List.append_assoc]
    refine ⟨fun b hb => ?_, fun e he => ?_, fun d hd => ?_⟩
    · exact hplaced.append (hnext.ok b hb)
    · exact hplaced.append (hnext.error e he)
    · exact (hnext.digit d hd).mono hplaced.suffix.isInfix

/-- An attempt finds nothing where it is given up. -/
theorem attempt (h : w.Leaves s left) : w.attempt.Leaves s fun o => o.elim s left := by
  unfold Walk.attempt
  split
  · rename_i a ha
    refine ⟨?_, ?_, ?_⟩
    · rintro b ⟨⟩
      exact h.ok a ha
    · rintro e ⟨⟩
    · rintro d ⟨⟩
  · exact pure (.of_suffix (List.suffix_refl s))
  · rename_i d hd
    refine ⟨?_, fun _ _ => h.error _ hd, ?_⟩
    · rintro b ⟨⟩
    · rintro d' ⟨⟩
      exact h.digit d hd

end Places

end Walk

theorem mem_of_dropWhile {q x : Char} {w rest : List Char}
    (h : w.dropWhile (· != q) = x :: rest) : q ∈ w := by
  have hx := List.head?_dropWhile_not (· != q) w
  rw [h] at hx
  obtain rfl : x = q := by simpa using hx
  exact List.dropWhile_subset _ (h ▸ List.mem_cons_self)

theorem Stop.cons_next {closer : Char} {s : List Char} (stop : Stop (some closer) s) :
    closer :: stop.next = stop.rest := by
  have h := stop.atCloser
  unfold Stop.next
  cases hrest : stop.rest with
  | nil => rw [hrest] at h; cases h
  | cons c r => rw [hrest] at h; cases h; rfl

/-- The walks that begin here find what stands here. -/
structure Walks (s : List Char) : Prop where
  script : ∀ closer depth operand, (walkScript closer depth operand s).Leaves s (·.rest)
  template : (walkTemplate s).Leaves s (·.1)
  head : (walkHead s).Places s (·.rest) (·.value.attributes)
  children : (walkChildren s).Leaves s (·.1)

section

variable {c : Char} {r s : List Char}

theorem skipComment_leaves : (skipComment s).Leaves s (·.1) := by
  unfold skipComment
  split
  · exact .pure (.of_suffix (tail_afterLine _).suffix)
  · split
    · exact .malformed
    · rename_i h
      exact .pure (.of_suffix (tail_afterBlock h).suffix)
  · exact .malformed

/-- A walk goes on with what is left. -/
theorem Walk.Places.onwards {α β : Type} {left : α → List Char} {left' : β → List Char}
    {w : Walk α} {g : α → β} (h : w.Leaves r left) (hr : r <:+ s)
    (hleft : ∀ a, left' (g a) = left a) : (w >>= fun a => Pure.pure (g a)).Leaves s left' :=
  (h.of_tail hr).result hleft fun _ => rfl

/-- An element is attempted only where one may stand. -/
theorem attempted_leaves {p : Prop} [Decidable p]
    (h : p → (tryElement s).Leaves s fun o => o.elim s (·.1)) :
    (if p then tryElement s else .pure none).Leaves s fun o => o.elim s (·.1) := by
  split
  · exact h ‹_›
  · exact .pure (.of_suffix (List.suffix_refl s))

theorem walkScript_leaves (later : ∀ r, Tail r s → Walks r)
    (helement : opensTag s → (tryElement s).Leaves s fun o => o.elim s (·.1))
    (closer : Option Char) (depth : Nat) (operand : Bool) :
    (walkScript closer depth operand s).Leaves s (·.rest) := by
  cases s with
  | nil =>
    rw [walkScript.eq_def]
    split
    · exact .pure (.of_suffix (List.suffix_refl _))
    · exact .malformed
  | cons c r =>
    have hr := Tail.one c r
    have hnext (operand : Bool) (depth : Nat) :
        (walkScript closer depth operand r >>= fun a => Pure.pure (a.after hr.suffix)).Leaves
          (c :: r) (·.rest) :=
      ((later r hr).script ..).onwards hr.suffix fun _ => rfl
    rw [walkScript]
    split
    · exact hnext _ _
    split
    · refine skipComment_leaves.bind fun rest _ => ?_
      exact ((later _ rest.2).script ..).onwards (List.suffix_refl _) fun _ => rfl
    split
    · have ht := Tail.cons c (skipString c r).2
      exact ((later _ ht).script ..).onwards ht.suffix fun _ => rfl
    split
    · refine ((later r hr).template.of_tail hr.suffix).bind fun rest _ => ?_
      have ht := Tail.cons c rest.2
      exact ((later _ ht).script ..).onwards (List.suffix_refl _) fun _ => rfl
    split
    · have ht : Tail (r.dropWhile isScriptWordPart) (c :: r) := .cons c (List.dropWhile_suffix _)
      exact ((later _ ht).script ..).onwards ht.suffix fun _ => rfl
    split
    · rename_i rest _
      have ht := Tail.cons c rest.2
      exact ((later _ ht).script ..).onwards ht.suffix fun _ => rfl
    · refine (attempted_leaves fun h => helement h.2).bind fun o _ => ?_
      cases o with
      | some rest =>
        exact ((later _ rest.2).script ..).onwards (List.suffix_refl _) fun _ => rfl
      | none =>
        dsimp only
        split
        · exact hnext _ _
        split
        · split
          · exact .pure (.of_suffix (List.suffix_refl _))
          · exact hnext _ _
        · exact hnext _ _

theorem walkTemplate_leaves (later : ∀ r, Tail r s → Walks r) :
    (walkTemplate s).Leaves s (·.1) := by
  rw [walkTemplate.eq_def]
  split
  · exact .malformed
  · exact .malformed
  · rename_i c r
    have ht := Tail.cons '\\' (List.suffix_cons c r)
    exact (later _ ht).template.onwards ht.suffix fun _ => rfl
  · exact .pure (.of_suffix (List.suffix_cons _ _))
  · rename_i r
    have ht := Tail.cons '$' (List.suffix_cons '\x7b' r)
    refine (((later _ ht).script ..).of_tail ht.suffix).bind fun stop _ => ?_
    have ht' := Tail.trans_suffix stop.next_suffix ht
    exact (later _ ht').template.onwards (List.tail_suffix _) fun _ => rfl
  · rename_i c r _ _ _ _
    have ht := Tail.one c r
    exact (later _ ht).template.onwards ht.suffix fun _ => rfl

/-- Each attribute is held after its value, and what its braces hold stands behind its name. -/
theorem walkHead_places (later : ∀ r, Tail r s → Walks r) :
    (walkHead s).Places s (·.rest) (·.value.attributes) := by
  cases s with
  | nil =>
    rw [walkHead]
    exact .malformed
  | cons c r =>
    have hr := Tail.one c r
    rw [walkHead]
    split
    · exact ((later r hr).head.of_tail hr.suffix).result (fun _ => rfl) fun _ => rfl
    split
    · refine skipComment_leaves.bind fun rest _ => ?_
      exact (later _ rest.2).head.result (fun _ => rfl) fun _ => rfl
    split
    · exact .pure (.of_suffix hr.suffix)
    split
    · exact .pure (.of_suffix ((List.tail_suffix r).trans hr.suffix))
    split
    · refine (((later r hr).script ..).of_tail hr.suffix).bind fun stop _ => ?_
      split
      · have ht := Tail.cons c stop.next_suffix
        exact ((later _ ht).head.of_tail (List.tail_suffix _)).result (fun _ => rfl) fun _ => rfl
      · exact .malformed
    split
    · exact .malformed
    rename_i name hname
    have hafter : Tail (Text.trimLeft name.rest) (c :: r) :=
      .trans_suffix (List.dropWhile_suffix _) name.tail
    dsimp only
    split
    · rename_i v hv
      rw [hv] at hafter
      have hvalue : Tail (Text.trimLeft v) (c :: r) :=
        .trans_suffix (List.dropWhile_suffix _) (.trans (.one '=' v) hafter)
      split
      · rename_i w hw
        rw [hw] at hvalue
        have hbraces := Tail.trans (.one _ w) hvalue
        refine .hold hbraces (((later w hbraces).script ..).bind_or_digit fun stop _ => ?_)
          fun h hh => ?_
        · split
          · rename_i d hd
            have hbody := (before_isPrefix w stop.rest).isInfix
            exact .inr ⟨d, rfl, (Script.occurs_of_parseLeniently hd).mono hbody⟩
          · have ht := Tail.trans_suffix stop.next_suffix hbraces
            have hnext := (later _ ht).head.of_tail (List.tail_suffix stop.rest)
            exact .inl (hnext.result (fun _ => rfl) fun _ => rfl)
        · obtain ⟨stop, -, hh⟩ := Walk.ok_of_bind hh
          split at hh
          · cases hh
          · rename_i e he
            obtain ⟨h', -, hh'⟩ := Walk.ok_of_bind hh
            cases hh'
            have hbody : before w stop.rest ++ '\x7d' :: stop.next = w := by
              rw [stop.cons_next]
              exact before_append stop.suffix
            exact ⟨_, _, rfl, rfl, name, hname, rfl, .braced hv hw hbody he⟩
      · rename_i q w _ hw
        rw [hw] at hvalue
        split
        · rename_i hq
          split
          · exact .malformed
          · rename_i x rest hrest
            have ht : Tail rest (c :: r) := .trans (.of_dropWhile hrest) (.trans (.one q w) hvalue)
            refine .hold ht ((later _ ht).head.result (fun _ => rfl) fun _ => rfl) fun h hh => ?_
            obtain ⟨h', -, hh'⟩ := Walk.ok_of_bind hh
            cases hh'
            have hmem := mem_of_dropWhile hrest
            exact ⟨_, _, rfl, rfl, name, hname, rfl, .quoted hv hw hq hmem⟩
        · exact .malformed
      · exact .malformed
    · rename_i hsign
      refine .hold hafter ((later _ hafter).head.result (fun _ => rfl) fun _ => rfl) fun h hh => ?_
      obtain ⟨h', -, hh'⟩ := Walk.ok_of_bind hh
      cases hh'
      refine ⟨_, _, rfl, rfl, name, hname, rfl, .absent fun hhead => ?_⟩
      obtain ⟨v, hv⟩ := List.head?_eq_some_iff.1 hhead
      exact hsign v hv

theorem walkChildren_leaves (later : ∀ r, Tail r s → Walks r)
    (helement : opensTag s → (tryElement s).Leaves s fun o => o.elim s (·.1)) :
    (walkChildren s).Leaves s (·.1) := by
  rw [walkChildren.eq_def]
  split
  · exact .pure (.of_suffix (List.suffix_refl _))
  · rename_i r
    have ht := Tail.one '\x7b' r
    refine (((later _ ht).script ..).of_tail ht.suffix).bind fun stop _ => ?_
    have ht' := Tail.trans_suffix stop.next_suffix ht
    exact (later _ ht').children.onwards (List.tail_suffix _) fun _ => rfl
  · rename_i r
    refine .pure (.of_suffix ?_)
    exact ((List.drop_suffix 1 _).trans (List.dropWhile_suffix _)).trans
      ((List.suffix_cons _ r).trans (List.suffix_cons _ _))
  · rename_i c r _ _
    have hr := Tail.one c r
    refine (attempted_leaves helement).bind fun o _ => ?_
    cases o with
    | some child =>
      exact (later _ child.2).children.onwards (List.suffix_refl _) fun _ => rfl
    | none => exact (later r hr).children.onwards hr.suffix fun _ => rfl

/-- An element stands at its `<`, in front of the elements among its children. -/
theorem walkElement_leaves (later : ∀ r, Tail r s → Walks r) (hs : opensTag s) :
    (walkElement s).Leaves s (·.1) := by
  rw [walkElement.eq_def]
  split
  · exact .malformed
  · rename_i r
    have ht := Tail.cons '<' (List.suffix_cons '>' r)
    exact (later _ ht).children.onwards ht.suffix fun _ => rfl
  · rename_i c r _
    obtain rfl : c = '<' := by
      unfold opensTag at hs
      split at hs
      · simp_all
      · cases hs
    split
    · exact .malformed
    · rename_i tag htag
      split
      · have ht := tag.tail.trans (.one '<' r)
        refine Walk.Places.element htag (fun _ => rfl) (fun _ => rfl) (fun _ => rfl)
          (later _ ht).head fun head _ => ?_
        split
        · exact .pure (.of_suffix (List.suffix_refl _))
        · have ht' := head.tail.trans ht
          exact (later _ ht').children.onwards (List.suffix_refl _) fun _ => rfl
      · exact .malformed

theorem tryElement_leaves (later : ∀ r, Tail r s → Walks r) (hs : opensTag s) :
    (tryElement s).Leaves s fun o => o.elim s (·.1) := by
  rw [tryElement]
  exact (walkElement_leaves later hs).attempt

theorem walks (s : List Char) : Walks s := by
  induction hn : s.length using Nat.strongRecOn generalizing s with
  | ind n ih =>
    subst hn
    have later (r : List Char) (hr : Tail r s) : Walks r := ih _ hr.length_lt r rfl
    have helement := tryElement_leaves later
    exact ⟨walkScript_leaves later helement, walkTemplate_leaves later, walkHead_places later,
      walkChildren_leaves later helement⟩

end

end DesignTokens.Jsx
