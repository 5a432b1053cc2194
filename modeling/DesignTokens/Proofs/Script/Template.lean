import Mathlib
import DesignTokens.Proofs.Script.Escape
import DesignTokens.Proofs.Script.Follow
import DesignTokens.Proofs.Script.Parse

/-!
# Templates are split without loss

A template literal is read as its static pieces and its interpolations. Written one after the other
they are the text again (`Template.chars_eq_woven`); a piece holds nothing that would end it
(`Piece`), and an interpolation ends at the brace behind it, whatever follows (`Enclosed`). Each
step of the reader keeps this (`Template.Split`), so whatever nests in an interpolation does not
matter. A template in an expression that is read comes from a template among the tokens, or from one
among those of an interpolation, which is shorter; so it has one more piece than interpolations at
any depth (`Expr.Within`).
-/

namespace DesignTokens.Script

variable {left : Nat} {c : Char} {q r s x : List Char}

/-! ### Pieces and interpolations -/

/-- The pieces with the interpolations between them, as they are written. -/
def woven : List (List Char) → List (List Char) → List Char
  | q :: qs, x :: xs => q ++ '$' :: '\x7b' :: (x ++ '\x7d' :: woven qs xs)
  | q :: qs, [] => q ++ woven qs []
  | [], _ => []

theorem Template.chars_eq_woven (t : Template) : t.chars = woven t.quasis t.interpolations := by
  obtain ⟨first, parts⟩ := t
  induction parts generalizing first with
  | nil => rfl
  | cons p parts ih =>
    calc chars ⟨first, p :: parts⟩
      _ = first ++ '$' :: '\x7b' :: (p.1 ++ '\x7d' :: chars ⟨p.2, parts⟩) := by
        simp [chars]
      _ = woven (first :: p.2 :: parts.map (·.2)) (p.1 :: parts.map (·.1)) := by
        rw [ih p.2]
        rfl

theorem Template.length_quasis (t : Template) : t.quasis.length = t.interpolations.length + 1 := by
  rw [quasis, interpolations, List.length_cons, List.length_map, List.length_map]

/-- Static text of a template: no backtick and no opening of an interpolation stand in it
unescaped. -/
structure Piece (q : List Char) : Prop where
  noTick : ∀ i, ¬Unescaped ['`'] q i
  noHole : ∀ i, ¬Unescaped ['$', '\x7b'] q i

namespace Piece

theorem nil : Piece [] := ⟨fun _ => not_unescaped_nil, fun _ => not_unescaped_nil⟩

theorem escape (h : Piece q) : Piece ('\\' :: c :: q) := by
  refine ⟨fun i hi => ?_, fun i hi => ?_⟩
  · obtain ⟨j, -, hj⟩ := exists_unescaped_of_escape (by decide) hi
    exact h.noTick j hj
  · obtain ⟨j, -, hj⟩ := exists_unescaped_of_escape (by decide) hi
    exact h.noHole j hj

theorem char (hescape : c ≠ '\\') (htick : c ≠ '`') (hhole : ¬['$', '\x7b'] <+: c :: q)
    (h : Piece q) : Piece (c :: q) := by
  refine ⟨fun i hi => ?_, fun i hi => ?_⟩
  · have hstands : ¬['`'] <+: c :: q := fun hc => htick (List.cons_prefix_cons.1 hc).1.symm
    obtain ⟨j, -, hj⟩ := exists_unescaped_of_cons hescape hstands hi
    exact h.noTick j hj
  · obtain ⟨j, -, hj⟩ := exists_unescaped_of_cons hescape hhole hi
    exact h.noHole j hj

end Piece

/-- In braces the text ends with the closing one, whatever follows it. -/
def Enclosed (x : List Char) : Prop :=
  ∀ u, ∃ b, bracketed? ('\x7b' :: (x ++ '\x7d' :: u)) = some (.ok b) ∧ b.value = x ∧ b.rest = u

theorem enclosed_of_closes (h : ∀ left u, Closes left '\x7d' [] (x ++ '\x7d' :: u) u) :
    Enclosed x := by
  intro u
  obtain ⟨b, hb, hrest⟩ := h ((x ++ '\x7d' :: u).length + 1) u
  refine ⟨b.after (.one '\x7b' _), ?_, value_of_readBracketed hb hrest, hrest⟩
  rw [bracketed?]
  show some ((readBracketed _ '\x7d' [] (x ++ '\x7d' :: u)).map _) = _
  rw [hb]
  rfl

theorem enclosed_of_readBracketed {b : Read (List Char) s}
    (h : readBracketed left '\x7d' [] s = .ok b) : Enclosed b.value :=
  enclosed_of_closes fun left' u => (read_cut.2 _ _ _ _ b h).of_value h left' u

/-! ### The reader -/

/-- The pieces are static text, and the interpolations end where their braces close. -/
structure Template.Split (t : Template) : Prop where
  pieces : ∀ q ∈ t.quasis, Piece q
  enclosed : ∀ x ∈ t.interpolations, Enclosed x

namespace Template.Split

variable {t : Template}

theorem nil : Split ⟨[], []⟩ :=
  ⟨List.forall_mem_singleton.2 .nil, List.forall_mem_nil _⟩

theorem escape (h : t.Split) : (t.prepend ['\\', c]).Split := by
  obtain ⟨hfirst, hpieces⟩ := List.forall_mem_cons.1 h.pieces
  exact ⟨List.forall_mem_cons.2 ⟨hfirst.escape, hpieces⟩, h.enclosed⟩

theorem char (hescape : c ≠ '\\') (htick : c ≠ '`') (hhole : ¬['$', '\x7b'] <+: c :: t.first)
    (h : t.Split) : (t.prepend [c]).Split := by
  obtain ⟨hfirst, hpieces⟩ := List.forall_mem_cons.1 h.pieces
  exact ⟨List.forall_mem_cons.2 ⟨hfirst.char hescape htick hhole, hpieces⟩, h.enclosed⟩

theorem hole (hx : Enclosed x) (h : t.Split) : Split ⟨[], (x, t.first) :: t.parts⟩ :=
  ⟨List.forall_mem_cons.2 ⟨.nil, h.pieces⟩, List.forall_mem_cons.2 ⟨hx, h.enclosed⟩⟩

end Template.Split

theorem split_of_readTemplate {t : Read Template s} (h : readTemplate left s = .ok t) :
    t.value.Split := by
  -- a piece begins as what is left of the text, so nothing opens at its front
  have hboth : t.value.Split ∧ t.value.first <+: s := by
    refine readTemplateInduction (P := fun t s _ => t.Split ∧ t.first <+: s) ?_ ?_ ?_ ?_ h
    · exact fun r => ⟨.nil, List.nil_prefix⟩
    · intro c t s r ih
      exact ⟨ih.1.escape, (List.prefix_append_right_inj ['\\', c]).2 ih.2⟩
    · intro left s b t r hb ih
      exact ⟨ih.1.hole (enclosed_of_readBracketed hb), List.nil_prefix⟩
    · intro c t s r hescape htick hhole ih
      refine ⟨ih.1.char hescape htick fun hopen => hhole ?_,
        (List.prefix_append_right_inj [c]).2 ih.2⟩
      obtain ⟨rfl, hfirst⟩ := List.cons_prefix_cons.1 hopen
      obtain ⟨w, rfl⟩ := hfirst.trans ih.2
      exact ⟨rfl, rfl⟩
  exact hboth.1

/-! ### Templates in expressions -/

/-- The parts of an expression that are expressions. -/
def Expr.children : Expr → List Expr
  | template _ es => es
  | call _ args => args
  | array es => es.filterMap id
  | logical _ l r => [l, r]
  | conditional t c a => [t, c, a]
  | string _ | other .. => []

/-- The expression stands in another one, at any depth. -/
inductive Expr.Within (x : Expr) : Expr → Prop
  | self : Within x x
  | child {e e' : Expr} : e' ∈ e.children → Within x e' → Within x e

/-- Each template in the expression has one more piece than interpolations. -/
def Expr.Interleaved (e : Expr) : Prop :=
  ∀ qs es, (Expr.template qs es).Within e → qs.length = es.length + 1

theorem Expr.interleaved_iff {e : Expr} : e.Interleaved ↔
    (∀ qs es, e = .template qs es → qs.length = es.length + 1) ∧
      ∀ e' ∈ e.children, e'.Interleaved := by
  constructor
  · intro h
    refine ⟨?_, fun e' he' qs es hwithin => h qs es (.child he' hwithin)⟩
    rintro qs es rfl
    exact h qs es .self
  · rintro ⟨hself, hchildren⟩ qs es hwithin
    cases hwithin with
    | self => exact hself qs es rfl
    | child he' hwithin => exact hchildren _ he' qs es hwithin

theorem Built.interleaved {interpolation : List Char → Except SymbolicDigit Expr}
    {ts : List Token} {e : Expr}
    (hinterpolation : ∀ x ∈ tokenInterpolations ts, ∀ e, interpolation x = .ok e → e.Interleaved)
    (h : Built interpolation ts e) : e.Interleaved := by
  induction h with
  | other | string => exact Expr.interleaved_iff.2 ⟨nofun, List.forall_mem_nil _⟩
  | @template t text c es ht hc hes =>
    have hread := mapM_eq_ok_iff.1 hes
    refine Expr.interleaved_iff.2 ⟨?_, fun e he => ?_⟩
    · rintro qs es' heq
      cases heq
      rw [List.length_map, ← hread.length_eq, c.length_quasis]
    · obtain ⟨x, hx, hxe⟩ := exists_of_forall₂ hread.flip e he
      refine hinterpolation x (List.mem_flatMap.2 ⟨t, ht, ?_⟩) e hxe
      rwa [hc]
  | call _ _ ih => exact Expr.interleaved_iff.2 ⟨nofun, ih⟩
  | array _ ih =>
    refine Expr.interleaved_iff.2 ⟨nofun, fun e he => ?_⟩
    obtain ⟨m, hm, rfl⟩ := List.mem_filterMap.1 he
    exact ih e hm
  | logical _ _ _ ihl ihr =>
    exact Expr.interleaved_iff.2 ⟨nofun, by simp [Expr.children, ihl, ihr]⟩
  | conditional _ _ _ iht ihc iha =>
    exact Expr.interleaved_iff.2 ⟨nofun, by simp [Expr.children, iht, ihc, iha]⟩

/-- Whatever nests in the interpolations, their templates are read like the outer one. -/
theorem interleaved_of_parse {e : Expr} (h : parse s = .ok e) : e.Interleaved := by
  induction hn : s.length using Nat.strongRecOn generalizing s e with
  | ind n ih =>
    subst hn
    obtain ⟨interpolation, hlenient, hstep⟩ := parse_step s
    rw [hstep] at h
    obtain ⟨ts, hts, h⟩ := ok_of_bind h
    have hbuilt : Grammar.Yields interpolation ts _ (Grammar.whole s interpolation ts) :=
      Grammar.whole_built ts
    rw [h] at hbuilt
    refine Built.interleaved (fun x hx e' he' => ?_) hbuilt
    rw [hlenient ts (ok_of_mapError hts) x hx] at he'
    rcases parseLeniently_eq_ok he' with hparse | rfl
    · exact ih _ (infix_of_mem_tokenInterpolations (ok_of_mapError hts) hx).2 hparse rfl
    · exact Expr.interleaved_iff.2 ⟨nofun, List.forall_mem_nil _⟩

/-! ### Texts -/

/-- The template whose opening backtick stands at the offset, and the offset behind its closing
one. -/
def templateAt? (source : List Char) (start : Nat) : Option (Template × Nat) :=
  match readTemplate (source.length - start) (source.drop (start + 1)) with
  | .ok t => some (t.value, source.length - t.rest.length)
  | .error _ => none

theorem slice_of_drop {start : Nat} (h : s.drop start = x ++ r) :
    (s.take (s.length - r.length)).drop start = x := by
  have hlength := congrArg List.length h
  rw [List.length_drop, List.length_append] at hlength
  have hx : s.length - r.length - start = x.length := by omega
  rw [List.drop_take, h, hx, List.take_left]

theorem split_of_templateAt? {source : List Char} {start stop : Nat} {t : Template}
    (hopen : source[start]? = some '`') (h : templateAt? source start = some (t, stop)) :
    (source.take stop).drop start = '`' :: (woven t.quasis t.interpolations ++ ['`']) ∧
      t.Split := by
  unfold templateAt? at h
  split at h
  · rename_i t' ht
    cases h
    refine ⟨slice_of_drop ?_, split_of_readTemplate ht⟩
    obtain ⟨hlt, htick⟩ := List.getElem?_eq_some_iff.1 hopen
    have hchars := chars_readTemplate ht
    rw [List.drop_eq_getElem_cons hlt, htick, ← Template.chars_eq_woven, List.cons_append,
      List.append_assoc, List.singleton_append, hchars]
  · cases h

/-- A template literal is read as one more piece of static text than interpolations; these are its
text, and each ends where it is read to end. So each template in an expression that is read, at any
depth, has one more piece than interpolations. -/
theorem templates_split :
    (∀ (source : List Char) (start stop : Nat) (t : Template), source[start]? = some '`' →
      templateAt? source start = some (t, stop) →
        t.quasis.length = t.interpolations.length + 1 ∧
        (source.take stop).drop start = '`' :: (woven t.quasis t.interpolations ++ ['`']) ∧
        t.Split) ∧
    ∀ (s : List Char) (e : Expr), parse s = .ok e → e.Interleaved :=
  ⟨fun _ _ _ t hopen h => ⟨t.length_quasis, split_of_templateAt? hopen h⟩,
    fun _ _ h => interleaved_of_parse h⟩

/-- The text `` `\`$${f(`}${y}`, '}') /* } */}b` ``, with braces and backticks that end nothing. -/
def nestedTemplate : List Char :=
  "`\\`$$\x7bf(`\x7d$\x7by\x7d`, '\x7d') /* \x7d */\x7db`".toList

theorem templates_split_nested :
    (nestedTemplate[0]? = some '`' ∧ ∃ t, templateAt? nestedTemplate 0 = some (t, 32) ∧
      t.quasis.length = t.interpolations.length + 1 ∧
      (nestedTemplate.take 32).drop 0 =
        '`' :: (woven t.quasis t.interpolations ++ ['`']) ∧ t.Split) ∧
    ∃ e, parse nestedTemplate = .ok e ∧ e.Interleaved := by
  have hopen : nestedTemplate[0]? = some '`' := rfl
  have hat : templateAt? nestedTemplate 0 = some (⟨"\\`$".toList,
      [("f(`\x7d$\x7by\x7d`, '\x7d') /* \x7d */".toList, ['b'])]⟩, 32) := by cbv
  have hparse : parse nestedTemplate = .ok (.template ["\\`$", "b"]
      [.call "f" [.template ["\x7d", ""] [.other "identifier" "y"], .string "\x7d"]]) := by cbv
  exact ⟨⟨hopen, _, hat, templates_split.1 _ _ _ _ hopen hat⟩, _, hparse,
    templates_split.2 _ _ hparse⟩

end DesignTokens.Script
