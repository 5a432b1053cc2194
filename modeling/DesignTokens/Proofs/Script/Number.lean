import DesignTokens.Proofs.Script.Lexed

/-!
# Numbers

`IsNumber` is the shape of a number: digits in a radix, or a mantissa with an exponent. What the
tokenizer takes for a number has this shape (`isNumber_of_number?`). Numbers are longest matches,
but none goes on with an ASCII blank, so in front of one a number is taken as a whole
(`IsNumber.read`).
-/

namespace DesignTokens.Script

/-! ### ASCII blanks -/

def isAsciiBlank (c : Char) : Bool := Text.isBlank c && isAscii c

/-- An ASCII blank stands at the front of the text, or the text is empty. -/
def opensBlank (u : List Char) : Bool := u.head?.all isAsciiBlank

def asciiBlanks : List Char :=
  ['\t', '\n', '\x0b', '\x0c', '\r', '\x1c', '\x1d', '\x1e', '\x1f', ' ']

section

variable {c : Char} {p q : Char → Bool} {u : List Char}

theorem mem_asciiBlanks (hc : isAsciiBlank c) : c ∈ asciiBlanks := by
  have hascii : isAscii c := ((Bool.and_eq_true _ _).mp hc).2
  revert hc
  refine ascii_cases hascii ?_
  decide

theorem opensBlank_all (hu : opensBlank u) (hp : asciiBlanks.all p) : u.head?.all p := by
  cases u with
  | nil => rfl
  | cons c u => exact List.all_eq_true.1 hp c (mem_asciiBlanks hu)

theorem head?_all_mono (h : ∀ c, p c → q c) (hu : u.head?.all p) : u.head?.all q := by
  cases u with
  | nil => rfl
  | cons c u => exact h c hu

end

/-! ### The shape of a number -/

/-- Digits and underscores with at most one point, a digit first or behind the point. -/
inductive IsMantissa : List Char → Prop
  | whole {c : Char} {w : List Char} : Text.isDecimalDigit c → (∀ d ∈ w, isGroupedDigit d) →
    IsMantissa (c :: w)
  | point {c : Char} {w f : List Char} : Text.isDecimalDigit c → (∀ d ∈ w, isGroupedDigit d) →
    (∀ d ∈ f, isGroupedDigit d) → IsMantissa (c :: w ++ '.' :: f)
  | fraction {d : Char} {f : List Char} : Text.isDecimalDigit d → (∀ d ∈ f, isGroupedDigit d) →
    IsMantissa ('.' :: d :: f)

inductive IsExponent : List Char → Prop
  | absent : IsExponent []
  | written {x : Char} {sign digits : List Char} : x = 'e' ∨ x = 'E' →
    sign ∈ [['+'], ['-'], []] → digits ≠ [] → (∀ d ∈ digits, Text.isDecimalDigit d) →
    IsExponent (x :: sign ++ digits)

inductive IsNumber : List Char → Prop
  | radix {m : Char} {p : Char → Bool} {w b : List Char} : radixDigit? m = some p → w ≠ [] →
    (∀ d ∈ w, p d) → b ∈ [[], ['n']] → IsNumber ('0' :: m :: w ++ b)
  | decimal {n e b : List Char} : IsMantissa n → IsExponent e → b ∈ [[], ['n']] →
    IsNumber (n ++ e ++ b)

section

variable {c m : Char} {b e n r s u : List Char} {p : Char → Bool}

theorem forall_mem_takeWhile (p : Char → Bool) (s : List Char) : ∀ d ∈ s.takeWhile p, p d :=
  List.all_eq_true.1 List.all_takeWhile

theorem isMantissa_of_mantissa? (h : mantissa? s = some n) : IsMantissa n := by
  unfold mantissa? at h
  split at h
  · cases h
  · split at h
    · rename_i hc
      dsimp only at h
      split at h
      · cases h
        exact .point hc (forall_mem_takeWhile _ _) (forall_mem_takeWhile _ _)
      · cases h
        exact .whole hc (forall_mem_takeWhile _ _)
    · split at h
      · split at h
        · rename_i hd
          cases h
          exact .fraction hd (forall_mem_takeWhile _ _)
        · cases h
      · cases h

theorem mantissa?_digit (hc : Text.isDecimalDigit c) : mantissa? (c :: r) =
    match r.dropWhile isGroupedDigit with
    | '.' :: f => some (c :: r.takeWhile isGroupedDigit ++ '.' :: f.takeWhile isGroupedDigit)
    | _ => some (c :: r.takeWhile isGroupedDigit) := by
  unfold mantissa?
  exact if_pos hc

theorem IsMantissa.read (h : IsMantissa n)
    (hu : u.head?.all fun c => !isGroupedDigit c && c != '.') : mantissa? (n ++ u) = some n := by
  have hstop : u.head?.all (!isGroupedDigit ·) :=
    head?_all_mono (fun c hc => ((Bool.and_eq_true _ _).mp hc).1) hu
  cases h with
  | @whole c w hc hw =>
    obtain ⟨htake, hdrop⟩ := takeWhile_append_of_head hw hstop
    rw [List.cons_append, mantissa?_digit hc, htake, hdrop]
    split
    · simp at hu
    · rfl
  | @point c w f hc hw hf =>
    have hpoint : ('.' :: f ++ u).head?.all (!isGroupedDigit ·) := by
      show (!isGroupedDigit '.') = true
      decide
    obtain ⟨htake, hdrop⟩ := takeWhile_append_of_head hw hpoint
    obtain ⟨htake', -⟩ := takeWhile_append_of_head hf hstop
    rw [List.append_assoc, List.cons_append, mantissa?_digit hc, htake, hdrop]
    simp only [List.cons_append, htake']
  | @fraction d f hd hf =>
    obtain ⟨htake, -⟩ := takeWhile_append_of_head hf hstop
    have hpoint : ¬Text.isDecimalDigit '.' := by decide
    simp only [List.cons_append, mantissa?, if_neg hpoint, if_pos hd, htake]

theorem isExponent_exponent (s : List Char) : IsExponent (exponent s) := by
  unfold exponent
  split
  · exact .absent
  · rename_i x r
    have hsigned (sign : List Char) (hsign : sign ∈ [['+'], ['-'], []]) (r : List Char) :
        IsExponent (if (x = 'e' ∨ x = 'E') ∧ r.takeWhile Text.isDecimalDigit ≠ [] then
          x :: sign ++ r.takeWhile Text.isDecimalDigit else []) := by
      split
      · rename_i h
        exact .written h.1 hsign h.2 (forall_mem_takeWhile _ _)
      · exact .absent
    dsimp only
    split
    · exact hsigned ['+'] (by simp) _
    · exact hsigned ['-'] (by simp) _
    · exact hsigned [] (by simp) _

theorem exponent_signed {x : Char} {sign : List Char} (hsign : sign ∈ [['+'], ['-'], []])
    (hr : r.head?.all fun c => c != '+' && c != '-') :
    exponent (x :: (sign ++ r)) =
      if (x = 'e' ∨ x = 'E') ∧ r.takeWhile Text.isDecimalDigit ≠ [] then
        x :: sign ++ r.takeWhile Text.isDecimalDigit else [] := by
  simp only [List.mem_cons, List.not_mem_nil, or_false] at hsign
  rcases hsign with rfl | rfl | rfl
  · rfl
  · rfl
  · rw [List.nil_append, exponent]
    · rintro r rfl
      simp at hr
    · rintro r rfl
      simp at hr

theorem IsExponent.read (h : IsExponent e)
    (hu : u.head?.all fun c => !Text.isDecimalDigit c && c != 'e' && c != 'E') :
    exponent (e ++ u) = e := by
  cases h with
  | absent =>
    cases u with
    | nil => rfl
    | cons c u =>
      simp only [List.head?_cons, Option.all_some, Bool.and_eq_true, bne_iff_ne] at hu
      exact if_neg fun h => h.1.elim hu.1.2 hu.2
  | @written x sign digits hx hsign hne hdigits =>
    have hstop : u.head?.all (!Text.isDecimalDigit ·) :=
      head?_all_mono (fun c hc => by simp_all) hu
    obtain ⟨htake, -⟩ := takeWhile_append_of_head hdigits hstop
    have hhead : (digits ++ u).head?.all fun c => c != '+' && c != '-' := by
      cases digits with
      | nil => exact absurd rfl hne
      | cons d digits =>
        have hplus : Text.isDecimalDigit '+' = false := by decide
        have hminus : Text.isDecimalDigit '-' = false := by decide
        have hd := hdigits d List.mem_cons_self
        simp only [List.cons_append, List.head?_cons, Option.all_some, Bool.and_eq_true,
          bne_iff_ne]
        constructor <;> rintro rfl <;> simp [hplus, hminus] at hd
    rw [List.cons_append, List.cons_append, List.append_assoc, exponent_signed hsign hhead, htake,
      if_pos ⟨hx, hne⟩]
    rfl

theorem mem_bigMark (s : List Char) : bigMark s ∈ [[], ['n']] := by
  unfold bigMark
  split <;> simp

theorem bigMark_read (hb : b ∈ [[], ['n']]) (hu : u.head?.all (· != 'n')) :
    bigMark (b ++ u) = b := by
  simp only [List.mem_cons, List.not_mem_nil, or_false] at hb
  rcases hb with rfl | rfl
  · rw [List.nil_append, bigMark]
    rintro r rfl
    simp at hu
  · rfl

theorem isNumber_of_number? (h : number? s = some n) : IsNumber n := by
  unfold number? at h
  cases hradix : radixNumber? s with
  | some n' =>
    rw [hradix] at h
    cases h
    unfold radixNumber? at hradix
    split at hradix
    · rename_i m r
      cases hm : radixDigit? m with
      | none =>
        rw [hm] at hradix
        cases hradix
      | some p =>
        rw [hm] at hradix
        dsimp only [bind, Option.bind] at hradix
        split at hradix
        · cases hradix
        · rename_i hne
          cases hradix
          exact .radix hm (by simpa using hne) (forall_mem_takeWhile _ _) (mem_bigMark _)
    · cases hradix
  | none =>
    rw [hradix] at h
    have h : decimalNumber? s = some n := h
    unfold decimalNumber? at h
    cases hm : mantissa? s with
    | none =>
      rw [hm] at h
      cases h
    | some m =>
      rw [hm] at h
      cases h
      exact .decimal (isMantissa_of_mantissa? hm) (isExponent_exponent _) (mem_bigMark _)

/-! ### No letter that gives a radix stands in a decimal number -/

theorem radixDigit?_grouped (hc : isGroupedDigit c) : radixDigit? c = none := by
  unfold radixDigit?
  split
  case h_7 => rfl
  all_goals exact absurd hc (by decide)

theorem IsMantissa.noRadix (h : IsMantissa n) : ∀ c ∈ n, radixDigit? c = none := by
  have hdigit {c : Char} (hc : Text.isDecimalDigit c) : radixDigit? c = none :=
    radixDigit?_grouped (by simp [isGroupedDigit, hc])
  cases h with
  | whole hc hw =>
    exact List.forall_mem_cons.2 ⟨hdigit hc, fun d hd => radixDigit?_grouped (hw d hd)⟩
  | point hc hw hf =>
    refine List.forall_mem_append.2 ⟨?_, List.forall_mem_cons.2 ⟨rfl, ?_⟩⟩
    · exact List.forall_mem_cons.2 ⟨hdigit hc, fun d hd => radixDigit?_grouped (hw d hd)⟩
    · exact fun d hd => radixDigit?_grouped (hf d hd)
  | fraction hd hf =>
    refine List.forall_mem_cons.2 ⟨rfl, List.forall_mem_cons.2 ⟨hdigit hd, ?_⟩⟩
    exact fun d hd => radixDigit?_grouped (hf d hd)

theorem IsExponent.noRadix (h : IsExponent e) : ∀ c ∈ e, radixDigit? c = none := by
  cases h with
  | absent => exact fun _ h => absurd h List.not_mem_nil
  | @written x sign digits hx hsign _ hdigits =>
    refine List.forall_mem_append.2 ⟨List.forall_mem_cons.2 ⟨?_, ?_⟩, fun d hd => ?_⟩
    · rcases hx with rfl | rfl <;> rfl
    · simp only [List.mem_cons, List.not_mem_nil, or_false] at hsign
      rcases hsign with rfl | rfl | rfl <;> simp [radixDigit?]
    · exact radixDigit?_grouped (by simp [isGroupedDigit, hdigits d hd])

theorem big_noRadix (hb : b ∈ [[], ['n']]) : ∀ c ∈ b, radixDigit? c = none := by
  simp only [List.mem_cons, List.not_mem_nil, or_false] at hb
  rcases hb with rfl | rfl <;> simp [radixDigit?]

theorem IsMantissa.ne_nil (h : IsMantissa n) : n ≠ [] := by
  cases h <;> exact List.cons_ne_nil _ _

theorem radixNumber?_eq_none (h : ∀ c ∈ n, radixDigit? c = none) (hne : n ≠ [])
    (hu : opensBlank u) : radixNumber? (n ++ u) = none := by
  have hblank : u.head?.all fun c => (radixDigit? c).isNone := opensBlank_all hu (by decide)
  have hsecond (m : Char) (r : List Char) (hs : n ++ u = '0' :: m :: r) :
      radixDigit? m = none := by
    cases n with
    | nil => exact absurd rfl hne
    | cons c n =>
      have hs : n ++ u = m :: r := (List.cons.inj hs).2
      cases n with
      | nil =>
        obtain rfl : u = m :: r := hs
        simpa using hblank
      | cons d n =>
        obtain rfl : d = m := (List.cons.inj hs).1
        exact h _ (by simp)
  unfold radixNumber?
  split
  · rename_i m r hs
    rw [hsecond m r hs]
    rfl
  · rfl

/-! ### Numbers are read as a whole

What stands behind a part of a number goes on with none of the parts before it. -/

theorem stops_big (hb : b ∈ [[], ['n']]) (hn : p 'n') (hu : u.head?.all p) :
    (b ++ u).head?.all p := by
  simp only [List.mem_cons, List.not_mem_nil, or_false] at hb
  rcases hb with rfl | rfl
  · exact hu
  · exact hn

theorem IsExponent.stops (he : IsExponent e) (hlower : p 'e') (hupper : p 'E')
    (hu : u.head?.all p) : (e ++ u).head?.all p := by
  cases he with
  | absent => exact hu
  | written hx =>
    rcases hx with rfl | rfl
    · exact hlower
    · exact hupper

theorem radixDigit_stops (hm : radixDigit? m = some p) (hu : opensBlank u) :
    p 'n' = false ∧ u.head?.all (!p ·) := by
  unfold radixDigit? at hm
  split at hm
  all_goals cases hm
  all_goals exact ⟨by decide, opensBlank_all hu (by decide)⟩

theorem IsNumber.read (h : IsNumber n) (hu : opensBlank u) : number? (n ++ u) = some n := by
  cases h with
  | @radix m p w b hm hne hw hb =>
    obtain ⟨hn, hblank⟩ := radixDigit_stops hm hu
    obtain ⟨htake, -⟩ := takeWhile_append_of_head hw (stops_big hb (by simp [hn]) hblank)
    have hbig := bigMark_read hb (opensBlank_all hu (by decide))
    have hread : radixNumber? ('0' :: m :: (w ++ (b ++ u))) = some ('0' :: m :: w ++ b) := by
      simp only [radixNumber?, hm, htake, bind, Option.bind, List.isEmpty_eq_false_iff.2 hne,
        Bool.false_eq_true, if_false, List.drop_left, hbig]
    rw [number?, List.append_assoc, List.cons_append, List.cons_append, hread]
    rfl
  | @decimal m e b hm he hb =>
    have hmantissa := hm.read <| he.stops (by decide) (by decide) <|
      stops_big hb (by decide) (opensBlank_all hu (by decide))
    have hexponent := he.read <| stops_big hb (by decide) (opensBlank_all hu (by decide))
    have hbig := bigMark_read hb (opensBlank_all hu (by decide))
    have hread : decimalNumber? (m ++ e ++ b ++ u) = some (m ++ e ++ b) := by
      simp [decimalNumber?, hmantissa, hexponent, hbig]
    have hradix : ∀ c ∈ m ++ e ++ b, radixDigit? c = none :=
      List.forall_mem_append.2
        ⟨List.forall_mem_append.2 ⟨hm.noRadix, he.noRadix⟩, big_noRadix hb⟩
    rw [number?, radixNumber?_eq_none hradix (by simp [hm.ne_nil]) hu, hread]
    rfl

theorem IsNumber.starts (h : IsNumber n) (u : List Char) : startsNumber (n ++ u) := by
  have hdigit {c : Char} (hc : Text.isDecimalDigit c) : Text.isDigit c := by
    rw [Text.isDigit, hc, Bool.true_or]
  cases h with
  | radix =>
    have hzero : Text.isDigit '0' := by decide
    simp [startsNumber, hzero]
  | decimal hm =>
    cases hm with
    | whole hc | point hc => simp [startsNumber, hdigit hc]
    | fraction hd => simp [startsNumber, hdigit hd]

end

end DesignTokens.Script
