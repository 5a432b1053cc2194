import DesignTokens.Proofs.Jsx.Scan
import Mathlib

/-!
# Where the elements of a scan stand

The offsets of a scan are places of the text: a tag stands behind its `<`, its attributes follow in
order, and no place is taken twice (`scan_wellPlaced`). The walk counts offsets from the end of the
text, so what it leaves of an element is turned around once (`Element.Stands.placedIn`).
-/

namespace DesignTokens.Jsx

variable {source t : List Char} {es : List Element} {e : Element} {a : Attribute}

/-! ### Names and quoted values -/

theorem value_ne_empty {p : Char → Bool} {n : Read String t} (h : name? p t = some n) :
    n.value ≠ "" := by
  unfold name? at h
  split at h
  · cases h
  · split at h
    · cases h
      exact fun hnil => absurd (congrArg String.toList hnil) (by simp)
    · cases h

/-- A sign and a quote behind the name, with blanks before them: the value is the text up to the
next such quote. -/
theorem Attribute.Written.quoted {g g' w : List Char} {q : Char} (h : a.Written t)
    (hq : q = '"' ∨ q = '\'') (hg : ∀ c ∈ g, Text.isBlank c) (hg' : ∀ c ∈ g', Text.isBlank c)
    (ht : t.drop a.name.toList.length = g ++ '=' :: (g' ++ q :: w)) :
    ∃ v rest, w = v ++ q :: rest ∧ q ∉ v ∧ a.value = some (.string (String.ofList v)) := by
  obtain ⟨n, hn, hname, hvalue⟩ := h
  obtain ⟨-, hdrop, -⟩ := name_eq hn
  rw [← hname, hdrop] at ht
  have hquote : Text.isBlank q = false := by rcases hq with rfl | rfl <;> decide
  have hsign : Text.trimLeft n.rest = '=' :: (g' ++ q :: w) := by
    rw [ht]
    exact (takeWhile_append_of_head hg (s := '=' :: _) (show !Text.isBlank '=' by decide)).2
  have hopen : Text.trimLeft (g' ++ q :: w) = q :: w :=
    (takeWhile_append_of_head hg' (by simp [hquote])).2
  generalize a.value = value at hvalue
  cases hvalue with
  | absent habsent =>
    rw [hsign] at habsent
    exact absurd rfl habsent
  | quoted hsign' hopen' _ hmem =>
    obtain ⟨-, rfl⟩ := List.cons.inj (hsign'.symm.trans hsign)
    obtain ⟨rfl, rfl⟩ := List.cons.inj (hopen'.symm.trans hopen)
    obtain ⟨v, rest, rfl, hv⟩ := List.eq_append_cons_of_mem hmem
    refine ⟨v, rest, rfl, hv, ?_⟩
    have hrun : ∀ c ∈ v, (c != _) = true := fun c hc => bne_iff_ne.2 (ne_of_mem_of_not_mem hc hv)
    rw [(takeWhile_append_of_head hrun (by simp)).1]
  | braced hsign' hopen' =>
    obtain ⟨-, rfl⟩ := List.cons.inj (hsign'.symm.trans hsign)
    obtain ⟨rfl, -⟩ := List.cons.inj (hopen'.symm.trans hopen)
    rcases hq with hq | hq <;> cases hq

/-! ### Places in the text -/

/-- The tag stands at its offset in the text, and the attributes follow it in order. -/
structure Element.PlacedIn (source : List Char) (e : Element) : Prop where
  named : e.tag ≠ ""
  tag : '<' :: e.tag.toList <+: source.drop e.offset
  /-- No character behind the tag belongs to it. -/
  ends : ∀ c, (source.drop (e.offset + 1 + e.tag.length)).head? = some c → isTagNamePart c = false
  behind : ∀ a ∈ e.attributes, e.offset + 1 + e.tag.length ≤ a.offset
  ordered : e.attributes.Pairwise fun a b => a.offset < b.offset

theorem Element.Stands.placedIn (h : e.Stands t) (ht : t <:+ source) :
    (e.mapOffset (source.length - ·)).PlacedIn source := by
  obtain ⟨u, n, rfl, hn, htag, hbehind⟩ := h.tag
  obtain ⟨front, rfl⟩ := ht
  obtain ⟨⟨back, hback⟩, hdrop, hend⟩ := Attribute.Written.name_eq hn
  have hoffset : (front ++ '<' :: u).length - e.offset = front.length := by
    rw [h.offset, List.length_append, Nat.add_sub_cancel]
  have hlength : u.length = e.tag.length + n.rest.length := by
    have hfront := congrArg List.length hback
    have hrest := congrArg List.length hdrop
    rw [List.length_append, String.length_toList, htag] at hfront
    rw [List.length_drop, String.length_toList, htag] at hrest
    omega
  refine ⟨htag ▸ value_ne_empty hn, ?_, ?_, ?_, ?_⟩
  · show _ <+: (front ++ '<' :: u).drop ((front ++ '<' :: u).length - e.offset)
    rw [hoffset, List.drop_left, List.cons_prefix_cons]
    exact ⟨rfl, back, htag ▸ hback⟩
  · show ∀ c, ((front ++ '<' :: u).drop ((front ++ '<' :: u).length - e.offset + 1 +
      e.tag.length)).head? = some c → _
    rw [hoffset, Nat.add_assoc, ← List.drop_drop, List.drop_left, Nat.add_comm, List.drop_succ_cons,
      ← htag, ← String.length_toList, hdrop]
    exact hend
  · refine List.forall_mem_map.2 fun a ha => ?_
    have hle := hbehind a ha
    show (front ++ '<' :: u).length - e.offset + 1 + e.tag.length ≤
      (front ++ '<' :: u).length - a.offset
    rw [hoffset, List.length_append, List.length_cons]
    omega
  · refine List.pairwise_map.2 (h.ordered.imp_of_mem fun {a b} ha _ hlt => ?_)
    obtain ⟨v, hv, hstands⟩ := h.attributes a ha
    have hle := (hv.trans (List.suffix_append front _)).length_le
    rw [← hstands.offset] at hle
    show _ - a.offset < _ - b.offset
    omega

theorem placedIn_of_scan (h : scan source = .ok es) (he : e ∈ es) : e.PlacedIn source := by
  obtain ⟨found, hfound, hperm⟩ := perm_of_scan h
  obtain ⟨e', he', rfl⟩ := List.mem_map.1 (hperm.subset he)
  obtain ⟨t, ht, hstands⟩ := hfound.elements e' he'
  exact hstands.placedIn ht

/-- Sorting puts the elements in order, and no two of them share a place. -/
theorem pairwise_offset_of_scan (h : scan source = .ok es) :
    es.Pairwise fun e e' => e.offset < e'.offset := by
  have hle : es.Pairwise fun e e' => e.offset ≤ e'.offset := by
    unfold scan at h
    dsimp only at h
    split at h
    · cases h
    · cases h
      refine (List.pairwise_mergeSort (fun a b c hab hbc => ?_) (fun a b => ?_) _).imp
        of_decide_eq_true
      · simp only [decide_eq_true_eq] at *
        omega
      · simp only [Bool.or_eq_true, decide_eq_true_eq]
        omega
  have hne := (List.pairwise_flatMap.1 (nodup_of_scan h)).2
  refine hle.imp₂ (fun _ _ hle hne => ?_) hne
  exact Nat.lt_of_le_of_ne hle (hne _ List.mem_cons_self _ List.mem_cons_self)

/-- What a scan gives stands in the text in its order, each element and attribute at a place of its
own. -/
structure WellPlaced (source : List Char) (es : List Element) : Prop where
  ordered : es.Pairwise fun e e' => e.offset < e'.offset
  elements : ∀ e ∈ es, e.PlacedIn source
  names : ∀ e ∈ es, ∀ a ∈ e.attributes, a.name.toList <+: source.drop a.offset
  /-- A value in quotes is the text up to the next such quote. -/
  quoted : ∀ e ∈ es, ∀ a ∈ e.attributes, ∀ g g' w q,
    source.drop (a.offset + a.name.length) = g ++ '=' :: (g' ++ q :: w) →
    (∀ c ∈ g, Text.isBlank c) → (∀ c ∈ g', Text.isBlank c) → q = '"' ∨ q = '\'' →
      ∃ v rest, w = v ++ q :: rest ∧ q ∉ v ∧ a.value = some (.string (String.ofList v))
  apart : (es.flatMap fun e => e.attributes.map (·.offset)).Nodup

theorem scan_wellPlaced (h : scan source = .ok es) : WellPlaced source es := by
  refine ⟨pairwise_offset_of_scan h, fun e he => placedIn_of_scan h he, fun e he a ha => ?_,
    fun e he a ha g g' w q hsplit hg hg' hq => ?_, ?_⟩
  · exact (written_of_scan h he ha).2.name_stands.1
  · refine (written_of_scan h he ha).2.quoted hq hg hg' ?_
    rw [List.drop_drop, String.length_toList, hsplit]
  · refine (nodup_of_scan h).sublist ?_
    exact List.Sublist.flatMap_right _ fun e _ => List.sublist_cons_self ..

/-- An element in a value is found before its host, and a value with blanks and a foreign quote. -/
theorem scan_wellPlaced_nested :
    ∃ es, scan "<p a=\x7b<b c = 'x\"'/>\x7d d><i/></p>".toList = .ok es ∧
      es.map (fun e => (e.offset, e.attributes.map (·.offset))) =
        [(0, [3, 21]), (6, [9]), (23, [])] ∧
      WellPlaced "<p a=\x7b<b c = 'x\"'/>\x7d d><i/></p>".toList es := by
  have h : scan "<p a=\x7b<b c = 'x\"'/>\x7d d><i/></p>".toList =
      .ok [⟨"p", 0, [⟨"a", 3, some (.unparsed "<b c = 'x\"'/>".toList)⟩, ⟨"d", 21, none⟩]⟩,
        ⟨"b", 6, [⟨"c", 9, some (.string "x\"")⟩]⟩, ⟨"i", 23, []⟩] := by cbv
  exact ⟨_, h, rfl, scan_wellPlaced h⟩

end DesignTokens.Jsx
