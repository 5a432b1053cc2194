import Mathlib.Data.List.Find
import DesignTokens.Proofs.Script.Layout

/-!
# A line break behind a text

No token goes on over a blank, so the longest matches at the front of a text are the same with a
blank behind the text. Hence the tokens of a text stay where a line break follows it
(`lexed_before_break`); only a line comment at its end takes the break.
-/

namespace DesignTokens.Script

/-- The token, with `k` characters put in front of the text. -/
def Token.shift (k : Nat) (t : Token) : Token := ⟨t.lexeme, k + t.pos⟩

@[simp] theorem Token.shift_lexeme (k : Nat) (t : Token) : (t.shift k).lexeme = t.lexeme := rfl

section

variable {c : Char} {n r s u w : List Char} {p : Char → Bool} {size : Nat} {ts : List Token}

/-! ### Longest matches with a blank behind the text -/

theorem takeWhile_append_stop (hw : w.head?.all (!p ·)) (s : List Char) :
    (s ++ w).takeWhile p = s.takeWhile p ∧ (s ++ w).dropWhile p = s.dropWhile p ++ w := by
  induction s with
  | nil => exact takeWhile_append_of_head (List.forall_mem_nil _) hw
  | cons c s ih =>
    by_cases hc : p c
    · simp [hc, ih]
    · simp [hc]

theorem Front.drop_append (h : Front n s) (w : List Char) :
    (s ++ w).drop n.length = s.drop n.length ++ w :=
  List.drop_append_of_le_length h.isPrefix.length_le

theorem bigMark_append (hw : opensBlank w) (s : List Char) : bigMark (s ++ w) = bigMark s := by
  cases s with
  | nil => exact bigMark_read (by simp) (opensBlank_all hw (by decide))
  | cons c s =>
    unfold bigMark
    by_cases hc : c = 'n'
    · subst hc
      rfl
    · simp [hc]

theorem radixNumber?_append (hw : opensBlank w) (s : List Char) :
    radixNumber? (s ++ w) = radixNumber? s := by
  match s with
  | [] =>
    have hzero : w.head?.all (· != '0') := opensBlank_all hw (by decide)
    cases w with
    | nil => rfl
    | cons d w =>
      have hd : d ≠ '0' := by simpa using hzero
      simp [radixNumber?, hd]
  | [c] =>
    have hradix : w.head?.all fun d => (radixDigit? d).isNone := opensBlank_all hw (by decide)
    cases w with
    | nil => rfl
    | cons d w =>
      have hd : radixDigit? d = none := by simpa using hradix
      by_cases hc : c = '0'
      · subst hc
        simp [radixNumber?, hd]
      · simp [radixNumber?, hc]
  | c :: m :: r =>
    by_cases hc : c = '0'
    · subst hc
      cases hm : radixDigit? m with
      | none => simp [radixNumber?, hm]
      | some p =>
        obtain ⟨-, hdigits⟩ := radixDigit_stops hm hw
        obtain ⟨htake, -⟩ := takeWhile_append_stop hdigits r
        have hfront : Front (r.takeWhile p) r := .takeWhile (radixDigit_plain hm).2
        simp only [List.cons_append, radixNumber?, hm, htake, hfront.drop_append,
          bigMark_append hw, bind, Option.bind]
    · simp [radixNumber?, hc]

theorem mantissa?_append (hw : opensBlank w) (s : List Char) :
    mantissa? (s ++ w) = mantissa? s := by
  have hdigit : w.head?.all fun d => !Text.isDecimalDigit d && d != '.' :=
    opensBlank_all hw (by decide)
  have hgrouped : w.head?.all (!isGroupedDigit ·) := opensBlank_all hw (by decide)
  cases s with
  | nil =>
    cases w with
    | nil => rfl
    | cons d w =>
      have hd : Text.isDecimalDigit d = false ∧ d ≠ '.' := by simpa using hdigit
      simp [mantissa?, hd]
  | cons c r =>
    by_cases hc : Text.isDecimalDigit c
    · obtain ⟨htake, hdrop⟩ := takeWhile_append_stop hgrouped r
      rw [List.cons_append, mantissa?_digit hc, mantissa?_digit hc, htake, hdrop]
      cases r.dropWhile isGroupedDigit with
      | nil =>
        cases w with
        | nil => rfl
        | cons d w =>
          have hd : Text.isDecimalDigit d = false ∧ d ≠ '.' := by simpa using hdigit
          simp [hd]
      | cons d f =>
        by_cases hd : d = '.'
        · subst hd
          simp [takeWhile_append_stop hgrouped f]
        · simp [hd]
    · by_cases hpoint : c = '.'
      · subst hpoint
        cases r with
        | nil =>
          cases w with
          | nil => rfl
          | cons d w =>
            have hd : Text.isDecimalDigit d = false ∧ d ≠ '.' := by simpa using hdigit
            simp [mantissa?, hc, hd]
        | cons d f => simp [mantissa?, hc, takeWhile_append_stop hgrouped f]
      · simp [mantissa?, hc, hpoint]

theorem exponent_append (hw : opensBlank w) (s : List Char) : exponent (s ++ w) = exponent s := by
  have hdigit : w.head?.all (!Text.isDecimalDigit ·) := opensBlank_all hw (by decide)
  cases s with
  | nil => exact IsExponent.absent.read (opensBlank_all hw (by decide))
  | cons x r =>
    have hsign : w.head?.all fun d => d != '+' && d != '-' := opensBlank_all hw (by decide)
    cases r with
    | nil =>
      obtain ⟨htake, -⟩ := takeWhile_append_stop hdigit []
      rw [List.nil_append] at htake
      have hread : exponent (x :: ([] ++ w)) = _ := exponent_signed (by simp) hsign
      rw [htake] at hread
      simpa [exponent] using hread
    | cons d r =>
      by_cases hplus : d = '+'
      · subst hplus
        simp [exponent, takeWhile_append_stop hdigit r]
      by_cases hminus : d = '-'
      · subst hminus
        simp [exponent, takeWhile_append_stop hdigit r]
      have hread := (takeWhile_append_stop hdigit (d :: r)).1
      rw [List.cons_append] at hread
      simp [exponent, hplus, hminus, hread]

/-- A number is the same with a blank behind the text. -/
theorem number?_append (hw : opensBlank w) (s : List Char) : number? (s ++ w) = number? s := by
  have hdecimal : decimalNumber? (s ++ w) = decimalNumber? s := by
    unfold decimalNumber?
    rw [mantissa?_append hw]
    cases hm : mantissa? s with
    | none => rfl
    | some m =>
      have hmantissa := (front_mantissa hm).2
      have hexponent := front_exponent (s.drop m.length)
      simp only [bind, Option.bind, hmantissa.drop_append, exponent_append hw,
        hexponent.drop_append, bigMark_append hw]
  rw [number?, number?, radixNumber?_append hw, hdecimal]

theorem startsNumber_append (hw : opensBlank w) (c : Char) (r : List Char) :
    startsNumber (c :: (r ++ w)) = startsNumber (c :: r) := by
  have hdigit : w.head?.all (!Text.isDigit ·) := opensBlank_all hw (by decide)
  cases r with
  | nil => cases w <;> simp_all [startsNumber]
  | cons d r => rfl

theorem punctuator?_append (hw : opensBlank w) (s : List Char) :
    punctuator? (s ++ w) = punctuator? s := by
  have hnone : ∀ p ∈ punctuators, p.toList.all (· ∉ asciiBlanks) := by decide
  have hdigit : w.head?.all (!Text.isDigit ·) := opensBlank_all hw (by decide)
  refine List.find?_congr fun p hp => ?_
  have hprefix : p.toList <+: s ++ w ↔ p.toList <+: s :=
    ⟨isPrefix_of_opensBlank (List.all_iff_forall_prop.1 (hnone p hp)) hw,
      fun h => h.trans (List.prefix_append s w)⟩
  rw [Bool.eq_iff_iff, punctuatorFits_iff, punctuatorFits_iff, hprefix]
  refine and_congr_right fun hbegins => not_congr (and_congr_right fun hchain => ?_)
  subst hchain
  obtain ⟨r, rfl⟩ := hbegins
  cases r with
  | nil => cases w <;> simp_all
  | cons d r => exact Iff.rfl

theorem OpensOther.append (h : OpensOther c r) (hw : opensBlank w) : OpensOther c (r ++ w) :=
  .transfer (w := r) (r := []) (by rwa [List.append_nil]) hw

/-! ### Tokens in front of a line break -/

/-- What stands at the front of a text stands there with a line break behind the text. The last gap
takes the break, if it is a line comment. -/
inductive BreakStep (size : Nat) (s : List Char) (ts : List Token) : Prop
  | last : ts = [⟨.eof, size⟩] → (∀ u, Gap (s ++ '\n' :: u) u) → BreakStep size s ts
  | gap {r : List Char} : Tail r s → tokensFrom size r = .ok ts →
    (∀ u, Gap (s ++ '\n' :: u) (r ++ '\n' :: u)) → BreakStep size s ts
  | lexeme {l : Lexeme} {r : List Char} {ts' : List Token} : l ≠ .eof → Tail r s →
    tokensFrom size r = .ok ts' → ts = ⟨l, size - s.length⟩ :: ts' →
    (∀ total u, Lexed total (s ++ '\n' :: u) [⟨l, total - (s ++ '\n' :: u).length⟩]
      (r ++ '\n' :: u)) → BreakStep size s ts

theorem Gap.breakStep (hgap : Gap s r) (h : tokensFrom size r = .ok ts) :
    BreakStep size s ts := by
  cases hgap with
  | blank _ hc => exact .gap (.one _ _) h fun u => .blank _ hc
  | block hr => exact .gap (tail_afterBlock hr) h fun u => .block (afterBlock?_append hr _)
  | line w =>
    by_cases hline : '\n' ∈ w
    · obtain ⟨z, s, rfl, hz⟩ := List.eq_append_cons_of_mem hline
      refine .gap (tail_afterLine _) h fun u => ?_
      have hgap := Gap.line (z ++ '\n' :: (s ++ '\n' :: u))
      rw [afterLine_append hz] at hgap ⊢
      simpa using hgap
    · rw [afterLine_eq_nil hline, tokensFrom_nil] at h
      cases h
      refine .last rfl fun u => ?_
      have hgap := Gap.line (w ++ '\n' :: u)
      rwa [afterLine_append hline] at hgap

theorem tokensFrom_break (h : tokensFrom size s = .ok ts) : BreakStep size s ts := by
  have hbreak : isAsciiBlank '\n' := by decide
  have hblank (u : List Char) : opensBlank ('\n' :: u) := hbreak
  cases tokensFrom_front h with
  | done hts => exact .last hts fun u => .blank u (by decide)
  | gap hgap h => exact hgap.breakStep h
  | @template w t ts' ht hts' hts =>
    obtain ⟨y, hy, htext, hlexed⟩ := Lexed.template_cut ht
    refine .lexeme (by simp) (t.tail.trans (.one '`' w)) hts' hts fun total u => ?_
    have hsplit : y ++ (t.rest ++ '\n' :: u) = w ++ '\n' :: u := by rw [← List.append_assoc, hy]
    rw [htext, List.cons_append, ← hsplit]
    exact hlexed total _
  | @string q w v ts' hq hv hts' hts =>
    refine .lexeme (by simp) (v.tail.trans (.one q w)) hts' hts fun total u => ?_
    exact .string hq (readString_append hv _)
  | @number c w n ts' hother hstarts hn hts' hts =>
    refine .lexeme (by simp) (.drop_succ ..) hts' hts fun total u => .of_eq ?_
    have hlength : n.length - 1 ≤ w.length := by
      have hle := (front_number hn).2.isPrefix.length_le
      rw [List.length_cons] at hle
      omega
    have hread := number?_append (hblank u) (c :: w)
    rw [List.cons_append] at hread ⊢
    rw [Lexed.tokensFrom_other (hother.append (hblank u)),
      if_pos (by rw [startsNumber_append (hblank u), hstarts]), hread, hn,
      ← List.drop_append_of_le_length hlength]
  | @ident c w ts' hother hstarts hc hts' hts =>
    refine .lexeme (by simp) (.drop_succ ..) hts' hts fun total u => .of_eq ?_
    have htake := (takeWhile_append_stop (p := isIdentPart)
      (opensBlank_all (hblank u) (by decide)) w).1
    rw [List.cons_append, Lexed.tokensFrom_cons (hother.append (hblank u))
      (by rw [startsNumber_append (hblank u), hstarts]), if_pos hc, htake,
      ← List.drop_append_of_le_length (List.takeWhile_prefix _).length_le]
  | @punct c w p ts' hother hstarts hc hp hts' hts =>
    refine .lexeme (by simp) (.drop_succ ..) hts' hts fun total u => .of_eq ?_
    have hlength : p.length - 1 ≤ w.length := by
      have hle := (isPrefix_of_punctuator hp).2.length_le
      rw [String.length_toList, List.length_cons] at hle
      omega
    have hread := punctuator?_append (hblank u) (c :: w)
    rw [List.cons_append] at hread ⊢
    rw [Lexed.tokensFrom_cons (hother.append (hblank u))
      (by rw [startsNumber_append (hblank u), hstarts]), if_neg (by simp [hc]), hread, hp,
      ← List.drop_append_of_le_length hlength]

/-- The tokens of a text are the same with a text in front of it and a line break behind it. -/
theorem lexed_before_break (h : tokensFrom size s = .ok ts) (hs : s.length ≤ size) :
    ∃ us, ts = us ++ [⟨.eof, size⟩] ∧ (∀ t ∈ us, t.lexeme ≠ .eof ∧ t.pos ≤ size) ∧
      ∀ k u, Lexed (k + (size + (u.length + 1))) (s ++ '\n' :: u) (us.map (.shift k)) u := by
  induction hn : s.length using Nat.strongRecOn generalizing s ts with
  | ind n ih =>
    subst hn
    cases tokensFrom_break h with
    | last hts hgap => exact ⟨[], hts, List.forall_mem_nil _, fun k u => (hgap u).lexed⟩
    | gap htail h hgap =>
      obtain ⟨us, hus, hplain, hlexed⟩ :=
        ih _ htail.length_lt h (htail.length_lt.le.trans hs) rfl
      exact ⟨us, hus, hplain, fun k u => (hgap u).lexed.append (hlexed k u)⟩
    | @lexeme l r ts' hl htail h hts hlexeme =>
      obtain ⟨us, rfl, hplain, hlexed⟩ :=
        ih _ htail.length_lt h (htail.length_lt.le.trans hs) rfl
      refine ⟨⟨l, size - s.length⟩ :: us, hts,
        List.forall_mem_cons.2 ⟨⟨hl, Nat.sub_le ..⟩, hplain⟩, fun k u => ?_⟩
      have hplace : k + (size + (u.length + 1)) - (s ++ '\n' :: u).length =
          k + (size - s.length) := by
        rw [List.length_append, List.length_cons]
        omega
      have hfront := hlexeme (k + (size + (u.length + 1))) u
      rw [hplace] at hfront
      exact hfront.append (hlexed k u)

end

end DesignTokens.Script
