import Mathlib.Data.Bool.AllAny
import DesignTokens.Proofs.Script.Balanced
import DesignTokens.Proofs.Script.Token

/-!
# Tokens in front of other text

`Lexed size s ts r`: the tokens of `s` are `ts` and then those of `r`, whatever stands in `r`. Such
fronts can be put together (`Lexed.append`); there is one lemma for each kind of token that a
written expression has.
-/

namespace DesignTokens.Script

def Lexed (size : Nat) (s : List Char) (ts : List Token) (r : List Char) : Prop :=
  tokensFrom size s = (tokensFrom size r).map (ts ++ ·)

/-! ### ASCII names -/

def isAscii (c : Char) : Bool := c.toNat < 128

/-- A name of ASCII characters. -/
def isName : List Char → Bool
  | [] => false
  | c :: r => (isIdentStart c && isAscii c) && r.all fun d => isIdentPart d && isAscii d

section

variable {size : Nat} {c : Char} {n r s u : List Char} {ts ts' : List Token}

@[elab_as_elim]
theorem ascii_cases {p : Char → Prop} (hc : isAscii c) (h : ∀ k < 128, p (Char.ofNat k)) :
    p c := by
  have hp := h c.toNat (of_decide_eq_true hc)
  rwa [Char.ofNat_toNat] at hp

theorem starts_name (hstart : isIdentStart c) (hc : isAscii c) : Text.isBlank c = false ∧
    Text.isDigit c = false ∧ isIdentPart c ∧ ¬(c = '"' ∨ c = '\'') ∧ c ≠ '.' ∧ c ∉ marks := by
  revert hstart
  refine ascii_cases hc ?_
  decide

theorem name_cons (hn : isName n) : ∃ c r, n = c :: r ∧ isIdentStart c ∧ isAscii c ∧
    ∀ d ∈ r, isIdentPart d := by
  cases n with
  | nil => cases hn
  | cons c r =>
    simp only [isName, Bool.and_eq_true, List.all_eq_true] at hn
    exact ⟨c, r, rfl, hn.1.1, hn.1.2, fun d hd => (hn.2 d hd).1⟩

theorem part_of_name (hn : isName n) : ∀ c ∈ n, isIdentPart c ∧ isAscii c := by
  cases n with
  | nil => cases hn
  | cons c r =>
    simp only [isName, Bool.and_eq_true, List.all_eq_true] at hn
    obtain ⟨⟨hc, hascii⟩, hr⟩ := hn
    exact List.forall_mem_cons.2 ⟨⟨(starts_name hc hascii).2.2.1, hascii⟩, hr⟩

theorem not_mark_of_name (hn : isName n) : ∀ c ∈ n, c ∉ marks := by
  have hpart : ∀ d ∈ marks, isIdentPart d = false := List.all_iff_forall_prop.1 (by decide)
  intro c hc hmark
  have hc := (part_of_name hn c hc).1
  rw [hpart c hmark] at hc
  cases hc

theorem not_blank_of_name (hn : isName n) : ∀ c ∈ n, Text.isBlank c = false := by
  intro c hc
  obtain ⟨hpart, hc⟩ := part_of_name hn c hc
  revert hpart
  refine ascii_cases hc ?_
  decide

/-! ### Fronts -/

/-- Neither a gap nor a literal begins with the character `c` in front of `r`. -/
structure OpensOther (c : Char) (r : List Char) : Prop where
  line : ∀ w, c = '/' → r = '/' :: w → False
  block : ∀ w, c = '/' → r = '*' :: w → False
  tick : c ≠ '`'
  blank : Text.isBlank c = false
  quote : ¬(c = '"' ∨ c = '\'')

theorem OpensOther.of_ne (hslash : c ≠ '/') (htick : c ≠ '`') (hblank : Text.isBlank c = false)
    (hquote : ¬(c = '"' ∨ c = '\'')) : OpensOther c r :=
  ⟨fun _ h _ => hslash h, fun _ h _ => hslash h, htick, hblank, hquote⟩

theorem tokensFrom_nil (size : Nat) : tokensFrom size [] = .ok [⟨.eof, size⟩] := by
  rw [tokensFrom]
  rfl

namespace Lexed

theorem nil : Lexed size s [] s := by
  unfold Lexed
  cases tokensFrom size s <;> rfl

theorem append (h : Lexed size s ts r) (h' : Lexed size r ts' u) : Lexed size s (ts ++ ts') u := by
  unfold Lexed at *
  rw [h, h']
  cases tokensFrom size u with
  | error e => rfl
  | ok us => simp [Except.map]

/-- The tokens of a text that is lexed up to its end. -/
theorem tokenize (h : Lexed s.length s ts []) : tokenize s = .ok (ts ++ [⟨.eof, s.length⟩]) := by
  rw [Lexed, tokensFrom_nil] at h
  exact h

theorem of_eq {t : Token} (h : tokensFrom size s = do return t :: (← tokensFrom size r)) :
    Lexed size s [t] r := by
  rw [Lexed, h]
  cases tokensFrom size r <;> rfl

/-! ### One token -/

theorem tokensFrom_other (h : OpensOther c r) :
    tokensFrom size (c :: r) =
      if startsNumber (c :: r) then
        match number? (c :: r) with
        | none => .error (.symbolicDigit ⟨announcedDigit (c :: r)⟩)
        | some n => do
          return ⟨.number (String.ofList n), size - (c :: r).length⟩ ::
            (← tokensFrom size (r.drop (n.length - 1)))
      else if isIdentStart c then do
        return ⟨.ident (String.ofList (c :: r.takeWhile isIdentPart)), size - (c :: r).length⟩ ::
          (← tokensFrom size (r.drop (r.takeWhile isIdentPart).length))
      else match punctuator? (c :: r) with
        | none => .error (.malformed (.unexpected c) (size - (c :: r).length))
        | some p => do
          return ⟨.punct p, size - (c :: r).length⟩ ::
            (← tokensFrom size (r.drop (p.length - 1))) := by
  rw [tokensFrom]
  · exact (if_neg (by simp [h.blank])).trans (if_neg h.quote)
  · exact h.line
  · exact h.block
  · exact h.tick

theorem tokensFrom_cons (h : OpensOther c r) (hnumber : startsNumber (c :: r) = false) :
    tokensFrom size (c :: r) =
      if isIdentStart c then do
        return ⟨.ident (String.ofList (c :: r.takeWhile isIdentPart)), size - (c :: r).length⟩ ::
          (← tokensFrom size (r.drop (r.takeWhile isIdentPart).length))
      else match punctuator? (c :: r) with
        | none => .error (.malformed (.unexpected c) (size - (c :: r).length))
        | some p => do
          return ⟨.punct p, size - (c :: r).length⟩ ::
            (← tokensFrom size (r.drop (p.length - 1))) :=
  (tokensFrom_other h).trans (if_neg (by simp [hnumber]))

theorem blank (hc : Text.isBlank c) : Lexed size (c :: r) [] r := by
  have hslash : c ≠ '/' := by rintro rfl; exact absurd hc (by decide)
  rw [Lexed, tokensFrom, if_pos hc]
  · exact nil
  · exact fun _ h => absurd h hslash
  · exact fun _ h => absurd h hslash
  · rintro rfl
    exact absurd hc (by decide)

theorem space : Lexed size (' ' :: r) [] r := blank (by decide)

theorem string {v : List Char} (hc : c = '"' ∨ c = '\'')
    (h : ∃ a, readString c s = .ok a ∧ a.value = v ∧ a.rest = r) :
    Lexed size (c :: s) [⟨.string (String.ofList v), size - (c :: s).length⟩] r := by
  obtain ⟨a, ha, rfl, rfl⟩ := h
  have hnot : c ≠ '/' ∧ c ≠ '`' ∧ ¬Text.isBlank c := by rcases hc with rfl | rfl <;> decide
  refine .of_eq ?_
  rw [tokensFrom, if_neg hnot.2.2, if_pos hc, ha]
  · rfl
  · exact fun _ h => absurd h hnot.1
  · exact fun _ h => absurd h hnot.1
  · exact hnot.2.1

theorem template {t : Template} (h : ReadsTemplate (s.length + 1) t s r) :
    Lexed size ('`' :: s) [⟨.template (String.ofList (before ('`' :: s) r)) t,
      size - ('`' :: s).length⟩] r := by
  obtain ⟨a, ha, rfl, rfl⟩ := h
  refine .of_eq ?_
  rw [tokensFrom, ha]
  rfl

theorem name (hn : isName n) (hr : r.head?.all (!isIdentPart ·)) :
    Lexed size (n ++ r) [⟨.ident (String.ofList n), size - (n ++ r).length⟩] r := by
  obtain ⟨c, n, rfl, hc, hascii, hn⟩ := name_cons hn
  obtain ⟨hblank, hdigit, -, hquote, hpoint, hmark⟩ := starts_name hc hascii
  simp only [marks, List.mem_cons, List.not_mem_nil, or_false, not_or] at hmark
  obtain ⟨-, -, htick, hslash, -⟩ := hmark
  have htake : (n ++ r).takeWhile isIdentPart = n := by
    rw [List.takeWhile_append_of_pos hn]
    cases r with
    | nil => exact List.append_nil n
    | cons d r =>
      have hd : ¬isIdentPart d := by simpa using hr
      rw [List.takeWhile_cons_of_neg hd, List.append_nil]
  refine .of_eq ?_
  rw [List.cons_append, tokensFrom_cons (.of_ne hslash htick hblank hquote)
    (by simp [startsNumber, hdigit, hpoint]), if_pos hc, htake, List.drop_left]

/-- The punctuation that is read without a look at what follows a point. -/
def simpleMarks : List Char := ['(', ')', '[', ']', ',', '&', '|', '?', ':']

theorem punct {p : String} (hp : punctuator? (c :: r) = some p) (hc : c ∈ simpleMarks)
    (hu : r.drop (p.length - 1) = u) :
    Lexed size (c :: r) [⟨.punct p, size - (c :: r).length⟩] u := by
  have hmarks : ∀ c ∈ simpleMarks, c ≠ '/' ∧ c ≠ '`' ∧ Text.isBlank c = false ∧
      ¬(c = '"' ∨ c = '\'') ∧ Text.isDigit c = false ∧ c ≠ '.' ∧ isIdentStart c = false :=
    List.all_iff_forall_prop.1 (by decide)
  obtain ⟨hslash, htick, hblank, hquote, hdigit, hpoint, hstart⟩ := hmarks c hc
  refine .of_eq ?_
  rw [tokensFrom_cons (.of_ne hslash htick hblank hquote)
    (by simp [startsNumber, hdigit, hpoint]),
    if_neg (by simp [hstart]), hp]
  dsimp only
  rw [hu]

theorem bracket (hc : c ∈ ['(', ')', '[', ']']) :
    Lexed size (c :: r) [⟨.punct (String.singleton c), size - (c :: r).length⟩] r := by
  simp only [List.mem_cons, List.not_mem_nil, or_false] at hc
  rcases hc with rfl | rfl | rfl | rfl <;> exact .punct rfl (by decide) rfl

theorem comma : Lexed size (',' :: ' ' :: r) [⟨.punct ",", size - (',' :: ' ' :: r).length⟩] r :=
  append (.punct (p := ",") rfl (by decide) rfl) space

theorem point (hc : isIdentStart c) (hascii : isAscii c) :
    Lexed size ('.' :: c :: r) [⟨.punct ".", size - ('.' :: c :: r).length⟩] (c :: r) := by
  obtain ⟨-, hdigit, -, -, hpoint, -⟩ := starts_name hc hascii
  have hp : punctuator? ('.' :: c :: r) = some "." := by
    have hne : ('.' == c) = false := beq_false_of_ne hpoint.symm
    simp [punctuator?, punctuators, punctuatorFits, List.isPrefixOf, hne]
  have hfirst : Text.isDigit '.' = false := by decide
  have hstart : isIdentStart '.' = false := by decide
  refine .of_eq ?_
  rw [tokensFrom_cons (.of_ne (by decide) (by decide) (by decide) (by decide))
    (by simp [startsNumber, hfirst, hdigit]), if_neg (by simp [hstart]), hp]
  rfl

end Lexed

/-! ### The front of a text that has tokens -/

/-- What stands at the front of a text whose tokens are `ts`. The conditions of the kinds exclude
each other, as they do in the tokenizer. -/
inductive FrontStep (size : Nat) (ts : List Token) : List Char → Prop
  | done : ts = [⟨.eof, size⟩] → FrontStep size ts []
  | gap {s r : List Char} : Gap s r → tokensFrom size r = .ok ts → FrontStep size ts s
  | template {w : List Char} {t : Read Template w} {ts' : List Token} :
    readTemplate (w.length + 1) w = .ok t → tokensFrom size t.rest = .ok ts' →
    ts = ⟨.template (String.ofList (before ('`' :: w) t.rest)) t.value,
      size - ('`' :: w).length⟩ :: ts' → FrontStep size ts ('`' :: w)
  | string {q : Char} {w : List Char} {v : Read (List Char) w} {ts' : List Token} :
    q = '"' ∨ q = '\'' → readString q w = .ok v → tokensFrom size v.rest = .ok ts' →
    ts = ⟨.string (String.ofList v.value), size - (q :: w).length⟩ :: ts' →
    FrontStep size ts (q :: w)
  | number {c : Char} {w n : List Char} {ts' : List Token} : OpensOther c w →
    startsNumber (c :: w) → number? (c :: w) = some n →
    tokensFrom size (w.drop (n.length - 1)) = .ok ts' →
    ts = ⟨.number (String.ofList n), size - (c :: w).length⟩ :: ts' → FrontStep size ts (c :: w)
  | ident {c : Char} {w : List Char} {ts' : List Token} : OpensOther c w →
    startsNumber (c :: w) = false → isIdentStart c →
    tokensFrom size (w.drop (w.takeWhile isIdentPart).length) = .ok ts' →
    ts = ⟨.ident (String.ofList (c :: w.takeWhile isIdentPart)), size - (c :: w).length⟩ :: ts' →
    FrontStep size ts (c :: w)
  | punct {c : Char} {w : List Char} {p : String} {ts' : List Token} : OpensOther c w →
    startsNumber (c :: w) = false → isIdentStart c = false → punctuator? (c :: w) = some p →
    tokensFrom size (w.drop (p.length - 1)) = .ok ts' →
    ts = ⟨.punct p, size - (c :: w).length⟩ :: ts' → FrontStep size ts (c :: w)

theorem frontStep_of_other (hother : OpensOther c r) (h : tokensFrom size (c :: r) = .ok ts) :
    FrontStep size ts (c :: r) := by
  rw [Lexed.tokensFrom_other hother] at h
  split at h
  · rename_i hstarts
    split at h
    · cases h
    · rename_i hn
      obtain ⟨ts', hts', h⟩ := ok_of_bind h
      cases h
      exact .number hother hstarts hn hts' rfl
  rename_i hstarts
  rw [Bool.not_eq_true] at hstarts
  split at h
  · rename_i hc
    obtain ⟨ts', hts', h⟩ := ok_of_bind h
    cases h
    exact .ident hother hstarts hc hts' rfl
  · rename_i hc
    rw [Bool.not_eq_true] at hc
    split at h
    · cases h
    · rename_i hp
      obtain ⟨ts', hts', h⟩ := ok_of_bind h
      cases h
      exact .punct hother hstarts hc hp hts' rfl

theorem tokensFrom_front (h : tokensFrom size s = .ok ts) : FrontStep size ts s := by
  cases s with
  | nil =>
    rw [tokensFrom] at h
    cases h
    exact .done rfl
  | cons c r =>
    have hother := fun hother => frontStep_of_other hother h
    rw [tokensFrom.eq_def] at h
    dsimp only at h
    split at h
    · cases ‹c :: r = []›
    · rename_i w hw
      cases hw
      exact .gap (.line w) h
    · rename_i w hw
      cases hw
      split at h
      · cases h
      · rename_i r' hr'
        exact .gap (.block hr') h
    · rename_i w hw
      cases hw
      obtain ⟨t, ht, h⟩ := ok_of_bind h
      obtain ⟨ts', hts', h⟩ := ok_of_bind h
      cases h
      exact .template (ok_of_mapError ht) hts' rfl
    · rename_i d w hline hblock htick hw
      cases hw
      by_cases hblank : Text.isBlank c
      · rw [if_pos hblank] at h
        exact .gap (.blank r hblank) h
      by_cases hquote : c = '"' ∨ c = '\''
      · rw [if_neg hblank, if_pos hquote] at h
        obtain ⟨v, hv, h⟩ := ok_of_bind h
        obtain ⟨ts', hts', h⟩ := ok_of_bind h
        cases h
        exact .string hquote (ok_of_mapError hv) hts' rfl
      exact hother ⟨hline, hblock, htick, Bool.eq_false_iff.2 hblank, hquote⟩

end

end DesignTokens.Script
