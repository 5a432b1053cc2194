import DesignTokens.Proofs.Script.Follow
import DesignTokens.Proofs.Script.Number
import DesignTokens.Proofs.Script.Quiet

/-!
# The texts that spell a lexeme

A text spells a lexeme (`Lexeme.SpeltBy`) if it is read as that lexeme wherever an ASCII blank
stands behind it, or nothing. Whatever the tokenizer cuts out of a text spells the lexeme that it is
read as (`tokensFrom_spelt`): literals are read in the same way in front of anything, and the
longest matches end before the blank.
-/

namespace DesignTokens.Script

/-- The text that the lexeme takes at the front of `s`. -/
def Lexeme.charsAt : Lexeme → List Char → List Char
  | .string _, q :: r =>
    match readString q r with
    | .ok v => before (q :: r) v.rest
    | .error _ => []
  | .string _, [] => []
  | l, _ => l.text.toList

/-- The text `x` is read as the lexeme wherever nothing or an ASCII blank stands behind it. -/
structure Lexeme.SpeltBy (l : Lexeme) (x : List Char) : Prop where
  takes (u : List Char) : l.charsAt (x ++ u) = x
  lexed {size : Nat} {u : List Char} : opensBlank u →
    Lexed size (x ++ u) [⟨l, size - (x ++ u).length⟩] u

section

variable {c q : Char} {n r s u w x : List Char} {size : Nat} {p : String} {ts : List Token}

/-! ### What stands behind the first character

Behind a front that is not empty the same character stands; behind an empty one, a blank. -/

theorem OpensOther.transfer (h : OpensOther c (w ++ r)) (hu : opensBlank u) :
    OpensOther c (w ++ u) := by
  have hnot {d : Char} (hd : d ∉ asciiBlanks) (h : ∀ x, c = '/' → w ++ r = d :: x → False)
      (x : List Char) (hc : c = '/') (hx : w ++ u = d :: x) : False := by
    cases w with
    | nil =>
      obtain rfl : u = d :: x := hx
      exact hd (mem_asciiBlanks hu)
    | cons e w =>
      obtain rfl : e = d := (List.cons.inj hx).1
      exact h _ hc rfl
  exact ⟨hnot (by decide) h.line, hnot (by decide) h.block, h.tick, h.blank, h.quote⟩

theorem not_startsNumber_transfer (h : startsNumber (c :: (w ++ r)) = false) (hu : opensBlank u) :
    startsNumber (c :: (w ++ u)) = false := by
  have hblank : u.head?.all (!Text.isDigit ·) := opensBlank_all hu (by decide)
  cases w with
  | nil =>
    cases u with
    | nil => simp_all [startsNumber]
    | cons d u => simp_all [startsNumber]
  | cons d w => exact h

theorem punctuatorFits_iff : punctuatorFits p s ↔
    p.toList <+: s ∧ ¬(p = "?." ∧ (s.drop 2).head?.any Text.isDigit) := by
  simp [punctuatorFits, List.isPrefixOf_iff_prefix, imp_iff_not_or]

/-- A text without blanks at the front of another one ends before a blank. -/
theorem isPrefix_of_opensBlank (hs : ∀ c ∈ s, c ∉ asciiBlanks) (hu : opensBlank u)
    (h : s <+: x ++ u) : s <+: x := by
  rcases List.prefix_or_prefix_of_prefix h (List.prefix_append x u) with hx | ⟨z, rfl⟩
  · exact hx
  · cases z with
    | nil => simp
    | cons d z =>
      obtain ⟨t, rfl⟩ := (List.prefix_append_right_inj x).1 h
      exact absurd (mem_asciiBlanks hu) (hs d (by simp))

theorem punctuator?_transfer (h : punctuator? (p.toList ++ r) = some p) (hu : opensBlank u) :
    punctuator? (p.toList ++ u) = some p := by
  have hblank : u.head?.all (!Text.isDigit ·) := opensBlank_all hu (by decide)
  have hnone : ∀ q ∈ punctuators, q.toList.all (· ∉ asciiBlanks) := by decide
  have hchain : ∀ q ∈ punctuators, "?.".toList <+: q.toList → q = "?." := by decide
  have hmem : p ∈ punctuators := List.mem_of_find?_eq_some h
  simp only [punctuator?, List.find?_eq_some_iff_append] at h ⊢
  obtain ⟨hfits, as, bs, hlist, has⟩ := h
  obtain ⟨-, hdigit⟩ := punctuatorFits_iff.1 hfits
  refine ⟨punctuatorFits_iff.2 ⟨List.prefix_append .., ?_⟩, as, bs, hlist, fun q hq => ?_⟩
  · rintro ⟨rfl, hany⟩
    have hany : u.head?.any Text.isDigit := hany
    cases u with
    | nil => cases hany
    | cons d u => simp_all
  · -- a longer punctuator would have been found in front of the other text
    have hnot := has q hq
    rw [Bool.not_eq_true', Bool.eq_false_iff, Ne, punctuatorFits_iff] at hnot ⊢
    rintro ⟨hbegins, -⟩
    have hq : q ∈ punctuators := by rw [hlist]; exact List.mem_append_left _ hq
    have hbegins := isPrefix_of_opensBlank (List.all_iff_forall_prop.1 (hnone q hq)) hu hbegins
    refine hnot ⟨hbegins.trans (List.prefix_append ..), ?_⟩
    rintro ⟨rfl, hany⟩
    exact hdigit ⟨hchain p hmem hbegins, hany⟩

/-! ### Each kind of lexeme -/

/-- A template is read in the same way in front of anything. -/
theorem Lexed.template_cut {t : Read Template s} (ht : readTemplate (s.length + 1) s = .ok t) :
    ∃ y, y ++ t.rest = s ∧ before ('`' :: s) t.rest = '`' :: y ∧ ∀ size u,
      Lexed size ('`' :: (y ++ u))
        [⟨.template (String.ofList ('`' :: y)) t.value, size - ('`' :: (y ++ u)).length⟩] u := by
  obtain ⟨y, hy, hread⟩ := read_cut.1 _ _ _ ht
  have hbefore (u : List Char) : before ('`' :: (y ++ u)) u = '`' :: y :=
    before_append_left ('`' :: y) u
  refine ⟨y, hy, by simpa only [hy] using hbefore t.rest, fun size u => ?_⟩
  have hlexed : Lexed size ('`' :: (y ++ u)) _ u := .template (hread _ u)
  rwa [hbefore] at hlexed

namespace Lexeme.SpeltBy

theorem string {v : Read (List Char) s} (hq : q = '"' ∨ q = '\'') (hv : readString q s = .ok v) :
    ∃ y, y ++ v.rest = s ∧ (Lexeme.string (String.ofList v.value)).SpeltBy (q :: y) := by
  obtain ⟨y, hy, hread⟩ := readString_cut hv
  refine ⟨y, hy, fun u => ?_, fun {size u} _ => .string hq (hread u)⟩
  obtain ⟨a, ha, -, hrest⟩ := hread u
  rw [List.cons_append, charsAt, ha]
  show before (q :: (y ++ u)) a.rest = _
  rw [hrest]
  exact before_append_left (q :: y) u

theorem template {t : Read Template s} (ht : readTemplate (s.length + 1) s = .ok t) :
    ∃ y, y ++ t.rest = s ∧
      (Lexeme.template (String.ofList (before ('`' :: s) t.rest)) t.value).SpeltBy ('`' :: y) := by
  obtain ⟨y, hy, htext, hlexed⟩ := Lexed.template_cut ht
  rw [htext]
  exact ⟨y, hy, fun u => String.toList_ofList, fun {size u} _ => hlexed size u⟩

theorem number (hn : IsNumber (c :: w)) (h : OpensOther c (w ++ r)) :
    (Lexeme.number (String.ofList (c :: w))).SpeltBy (c :: w) := by
  refine ⟨fun u => String.toList_ofList, fun {size u} hu => .of_eq ?_⟩
  rw [List.cons_append, Lexed.tokensFrom_other (h.transfer hu), ← List.cons_append,
    if_pos (hn.starts u), hn.read hu]
  dsimp only
  rw [List.length_cons, Nat.add_sub_cancel, List.drop_left]

theorem ident (hc : isIdentStart c) (hw : ∀ d ∈ w, isIdentPart d) (h : OpensOther c (w ++ r))
    (hstarts : startsNumber (c :: (w ++ r)) = false) :
    (Lexeme.ident (String.ofList (c :: w))).SpeltBy (c :: w) := by
  refine ⟨fun u => String.toList_ofList, fun {size u} hu => .of_eq ?_⟩
  obtain ⟨htake, -⟩ := takeWhile_append_of_head hw (opensBlank_all hu (by decide))
  rw [List.cons_append, Lexed.tokensFrom_cons (h.transfer hu)
    (not_startsNumber_transfer hstarts hu), if_pos hc, htake, List.drop_left]

theorem punct (hp : p.toList = c :: w) (hc : isIdentStart c = false)
    (hread : punctuator? (c :: (w ++ r)) = some p) (h : OpensOther c (w ++ r))
    (hstarts : startsNumber (c :: (w ++ r)) = false) : (Lexeme.punct p).SpeltBy (c :: w) := by
  refine ⟨fun u => hp, fun {size u} hu => .of_eq ?_⟩
  have hread : punctuator? (c :: (w ++ u)) = some p := by
    rw [← List.cons_append, ← hp] at hread ⊢
    exact punctuator?_transfer hread hu
  rw [List.cons_append, Lexed.tokensFrom_cons (h.transfer hu)
    (not_startsNumber_transfer hstarts hu), if_neg (by simp [hc]), hread]
  dsimp only
  rw [← String.length_toList, hp, List.length_cons, Nat.add_sub_cancel, List.drop_left]

end Lexeme.SpeltBy

/-! ### The front of a text that has tokens -/

/-- What stands at the front of a text that has tokens: the lexeme in front has the text that it is
cut out with. -/
inductive SpeltStep (size : Nat) (s : List Char) (ts : List Token) : Prop
  | done : s = [] → ts = [⟨.eof, size⟩] → SpeltStep size s ts
  | gap {r : List Char} : Gap s r → tokensFrom size r = .ok ts → SpeltStep size s ts
  | lexeme {l : Lexeme} {x r : List Char} {ts' : List Token} : x ++ r = s → Tail r s →
    l.SpeltBy x → tokensFrom size r = .ok ts' → ts = ⟨l, size - s.length⟩ :: ts' →
    SpeltStep size s ts

theorem tokensFrom_spelt (h : tokensFrom size s = .ok ts) : SpeltStep size s ts := by
  cases tokensFrom_front h with
  | done hts => exact .done rfl hts
  | gap hgap h => exact .gap hgap h
  | @template w t ts' ht hts' hts =>
    obtain ⟨y, hy, hspelt⟩ := Lexeme.SpeltBy.template ht
    exact .lexeme (congrArg ('`' :: ·) hy) (t.tail.trans (.one '`' w)) hspelt hts' hts
  | @string q w v ts' hq hv hts' hts =>
    obtain ⟨y, hy, hspelt⟩ := Lexeme.SpeltBy.string hq hv
    exact .lexeme (congrArg (q :: ·) hy) (v.tail.trans (.one q w)) hspelt hts' hts
  | @number c w n ts' hother _ hn hts' hts =>
    obtain ⟨hne, hfront⟩ := front_number hn
    obtain ⟨r, hr⟩ := hfront.isPrefix
    obtain ⟨d, n, rfl⟩ := List.exists_cons_of_ne_nil hne
    obtain ⟨rfl, rfl⟩ : d = c ∧ n ++ r = w := List.cons.inj hr
    rw [List.length_cons, Nat.add_sub_cancel, List.drop_left] at hts'
    exact .lexeme rfl (.cons d (List.suffix_append n r))
      (.number (isNumber_of_number? hn) hother) hts' hts
  | @ident c w ts' hother hstarts hc hts' hts =>
    have hsplit : w.takeWhile isIdentPart ++ w.drop (w.takeWhile isIdentPart).length = w := by
      rw [drop_takeWhile, List.takeWhile_append_dropWhile]
    refine .lexeme (x := c :: w.takeWhile isIdentPart) (congrArg (c :: ·) hsplit)
      (.drop_succ ..) ?_ hts' hts
    exact .ident hc (forall_mem_takeWhile _ _) (hsplit.symm ▸ hother) (hsplit.symm ▸ hstarts)
  | @punct c w p ts' hother hstarts hc hp hts' hts =>
    obtain ⟨hmem, r, hr⟩ := isPrefix_of_punctuator hp
    obtain ⟨d, n, hchars⟩ := List.exists_cons_of_ne_nil (punctuator_ne_nil p hmem)
    rw [hchars] at hr
    obtain ⟨rfl, rfl⟩ : d = c ∧ n ++ r = w := List.cons.inj hr
    rw [← String.length_toList, hchars, List.length_cons, Nat.add_sub_cancel,
      List.drop_left] at hts'
    exact .lexeme rfl (.cons d (List.suffix_append n r)) (.punct hchars hc hp hother hstarts) hts'
      hts

end

end DesignTokens.Script
