import DesignTokens.Proofs.Jsx.Walk

/-!
# What a scan finds stands in the text

The offsets of a scan are counted from the start of the text. `written_of_scan`: each attribute is
written at its offset; `nodup_of_scan`: no two elements or attributes share an offset; and a
symbolic digit that stops a scan stands in the text (`occurs_of_scan`).
-/

namespace DesignTokens.Jsx

open Script (SymbolicDigit)

@[simp] theorem Element.places_mapOffset (f : Nat → Nat) (e : Element) :
    (e.mapOffset f).places = e.places.map f := by
  simp [Element.places, Element.mapOffset]

/-! ### Both ways to count -/

variable {source : List Char} {es : List Element} {e : Element} {a : Attribute} {d : SymbolicDigit}

/-- The elements of a scan are those of the walk, in another order and counted from the start. -/
theorem perm_of_scan (h : scan source = .ok es) :
    ∃ found, Placed source [] found [] ∧
      es.Perm (found.map (·.mapOffset (source.length - ·))) := by
  have hwalk := (walks source).script none 0 true
  unfold scan at h
  dsimp only at h
  generalize walkScript none 0 true source = walk at h hwalk
  have hfound : Placed source [] walk.found [] := by
    cases hw : walk.outcome with
    | ok stop => exact (hwalk.ok stop hw).forget
    | error e => exact hwalk.error e hw
  refine ⟨walk.found, hfound, ?_⟩
  split at h
  · cases h
  · cases h
    exact List.mergeSort_perm ..

theorem occurs_of_scan (h : scan source = .error d) : d.Occurs source := by
  have hwalk := (walks source).script none 0 true
  unfold scan at h
  dsimp only at h
  generalize walkScript none 0 true source = walk at h hwalk
  split at h
  · rename_i hd
    cases h
    exact hwalk.digit _ hd
  · cases h

theorem written_of_scan (h : scan source = .ok es) (he : e ∈ es) (ha : a ∈ e.attributes) :
    a.offset < source.length ∧ a.Written (source.drop a.offset) := by
  obtain ⟨found, hfound, hperm⟩ := perm_of_scan h
  obtain ⟨e', he', rfl⟩ := List.mem_map.1 (hperm.subset he)
  obtain ⟨a', ha', rfl⟩ := List.mem_map.1 ha
  obtain ⟨t, ht, he'⟩ := hfound.elements e' he'
  obtain ⟨v, hv, ha'⟩ := he'.attributes a' ha'
  obtain ⟨front, rfl⟩ := hv.trans ht
  have hv := ha'.offset
  obtain ⟨n, hn, hrest⟩ := ha'.written
  have hlt := n.tail.length_lt
  have hdrop : (front ++ v).drop ((front ++ v).length - v.length) = v := by simp
  refine ⟨?_, ?_⟩
  · rw [List.length_append]
    dsimp only
    omega
  · rw [hv]
    exact hdrop.symm ▸ ⟨n, hn, hrest⟩

theorem nodup_of_scan (h : scan source = .ok es) : (es.flatMap Element.places).Nodup := by
  obtain ⟨found, hfound, hperm⟩ := perm_of_scan h
  have hcount : (found.map (·.mapOffset (source.length - ·))).flatMap Element.places =
      (found.flatMap Element.places).map (source.length - ·) := by
    simp only [List.flatMap_map, List.map_flatMap, Element.places_mapOffset]
  rw [(hperm.flatMap_right _).nodup_iff, hcount]
  refine List.pairwise_map.2 (hfound.nodup.imp_of_mem fun ho ho' hne heq => hne ?_)
  have := hfound.range _ ho
  have := hfound.range _ ho'
  omega

theorem offsets_differ_of_scan (h : scan source = .ok es) :
    es.Pairwise fun e e' => ∀ a ∈ e.attributes, ∀ a' ∈ e'.attributes, a.offset ≠ a'.offset := by
  refine (List.pairwise_flatMap.1 (nodup_of_scan h)).2.imp fun hne a ha a' ha' => ?_
  exact hne _ (List.mem_cons_of_mem _ (List.mem_map_of_mem ha)) _
    (List.mem_cons_of_mem _ (List.mem_map_of_mem ha'))

/-! ### A written attribute -/

namespace Attribute.Written

variable {t : List Char}

theorem name_eq {p : Char → Bool} {n : Read String t} (h : name? p t = some n) :
    n.value.toList <+: t ∧ t.drop n.value.toList.length = n.rest ∧
      ∀ c, n.rest.head? = some c → p c = false := by
  unfold name? at h
  split at h
  · cases h
  · rename_i c r
    split at h
    · cases h
      have hsplit : c :: r.takeWhile p ++ r.dropWhile p = c :: r := by
        rw [List.cons_append, List.takeWhile_append_dropWhile]
      dsimp only
      rw [String.toList_ofList]
      refine ⟨⟨_, hsplit⟩, ?_, fun d hd => ?_⟩
      · rw [← hsplit, List.drop_left]
      · have hnot := List.head?_dropWhile_not p r
        rw [hd] at hnot
        exact hnot
    · cases h

theorem name_stands (h : a.Written t) :
    a.name.toList <+: t ∧
      ∀ c, (t.drop a.name.toList.length).head? = some c → isAttributeNamePart c = false := by
  obtain ⟨n, hn, hname, -⟩ := h
  obtain ⟨hfront, hdrop, hend⟩ := name_eq hn
  rw [← hname, hdrop]
  exact ⟨hfront, hend⟩

theorem tail_of_value {s v w : List Char} {c d : Char} (hs : Text.trimLeft s = c :: v)
    (hv : Text.trimLeft v = d :: w) : Tail w s :=
  (Tail.of_dropWhile hv).trans (Tail.of_dropWhile hs)

/-- Without backslashes the class names of the value stand behind the name. -/
theorem classNames_stand (h : a.Written t) (ht : '\\' ∉ t) {c : String}
    (hc : c ∈ Script.valueClassNames a.value) :
    ∃ w, Tail w (t.drop a.name.toList.length) ∧ c.toList <:+: w := by
  obtain ⟨n, hn, hname, hvalue⟩ := h
  obtain ⟨-, hdrop, -⟩ := name_eq hn
  rw [← hname, hdrop]
  cases hvalue' : a.value with
  | none =>
    rw [hvalue'] at hc
    cases hc
  | some e =>
    rw [hvalue'] at hvalue hc
    cases hvalue with
    | @quoted v w q hsign hquote _ _ =>
      refine ⟨w, tail_of_value hsign hquote, ?_⟩
      exact (Script.infix_of_mem_classWords hc).trans (List.takeWhile_prefix _).isInfix
    | @braced v w body rest _ hsign hbrace hbody hparse =>
      have hw := tail_of_value hsign hbrace
      have hbodyw : body <:+: w := hbody ▸ (List.prefix_append ..).isInfix
      refine ⟨w, hw, (Script.infix_of_mem_parseLeniently hparse (fun hb => ?_) hc).trans hbodyw⟩
      exact ht (n.tail.suffix.subset (hw.suffix.subset (hbodyw.subset hb)))

end Attribute.Written

end DesignTokens.Jsx
