import Mathlib.Data.Bool.AllAny
import DesignTokens.Proofs.Script.Balanced
import DesignTokens.Proofs.Script.Parse

/-!
# Quiet script is balanced

A text is `Quiet` if it has tokens, none of them a punctuator that begins with a slash or `<`, and
its interpolations are quiet too. Numbers, names and the other punctuators hold no mark, so the
bracket reader and the tokenizer stay aligned: if the reader takes quiet text up to the closing
brace, the text is balanced (`Quiet.balanced`).
-/

namespace DesignTokens.Script

/-- The lexeme is no punctuator that begins with a slash or `<`. -/
def Lexeme.isQuiet : Lexeme → Bool
  | punct p => p.toList.head?.all fun c => c != '/' && c != '<'
  | _ => true

inductive Quiet : List Char → Prop
  | intro {s : List Char} {ts : List Token} : tokenize s = .ok ts →
    (∀ t ∈ ts, t.lexeme.isQuiet) → (∀ x ∈ tokenInterpolations ts, Quiet x) → Quiet s

section

variable {c : Char} {p : Char → Bool} {n n' r s w : List Char}

/-! ### Lexemes without marks -/

theorem not_mem_marks (hp : ∀ d ∈ marks, p d = false) (hc : p c) : c ∉ marks := by
  intro hmem
  rw [hp c hmem] at hc
  cases hc

/-- The text `s` begins with `n`, in which no mark stands. -/
structure Front (n s : List Char) : Prop where
  isPrefix : n <+: s
  plain : ∀ c ∈ n, c ∉ marks

namespace Front

theorem nil : Front [] s := ⟨List.nil_prefix, by simp⟩

theorem cons (hc : c ∉ marks) (h : Front n s) : Front (c :: n) (c :: s) :=
  ⟨List.cons_prefix_cons.2 ⟨rfl, h.isPrefix⟩, List.forall_mem_cons.2 ⟨hc, h.plain⟩⟩

theorem append (h : Front n s) (h' : Front n' (s.drop n.length)) : Front (n ++ n') s := by
  obtain ⟨r, rfl⟩ := h.isPrefix
  rw [List.drop_left] at h'
  exact ⟨(List.prefix_append_right_inj _).2 h'.isPrefix,
    List.forall_mem_append.2 ⟨h.plain, h'.plain⟩⟩

theorem takeWhile (hp : ∀ d ∈ marks, p d = false) : Front (s.takeWhile p) s :=
  ⟨List.takeWhile_prefix p,
    fun _ hc => not_mem_marks hp (List.all_eq_true.1 List.all_takeWhile _ hc)⟩

end Front

theorem drop_takeWhile (p : Char → Bool) (s : List Char) :
    s.drop (s.takeWhile p).length = s.dropWhile p := by
  have hsplit : (s.takeWhile p ++ s.dropWhile p).drop (s.takeWhile p).length = s.dropWhile p :=
    List.drop_left
  rwa [List.takeWhile_append_dropWhile] at hsplit

theorem front_bigMark (s : List Char) : Front (bigMark s) s := by
  unfold bigMark
  split
  · exact .cons (by decide) .nil
  · exact .nil

theorem radixDigit_plain {m : Char} (h : radixDigit? m = some p) :
    m ∉ marks ∧ ∀ d ∈ marks, p d = false := by
  unfold radixDigit? at h
  split at h
  all_goals cases h
  all_goals exact ⟨by decide, List.all_iff_forall_prop.1 (by decide)⟩

theorem front_radixNumber (h : radixNumber? s = some n) : n ≠ [] ∧ Front n s := by
  unfold radixNumber? at h
  split at h
  · rename_i m r
    cases hm : radixDigit? m with
    | none =>
      rw [hm] at h
      cases h
    | some isRadixDigit =>
      obtain ⟨hplain, hdigits⟩ := radixDigit_plain hm
      have hfront : Front ('0' :: m :: r.takeWhile isRadixDigit) ('0' :: m :: r) :=
        .cons (by decide) (.cons hplain (.takeWhile hdigits))
      rw [hm] at h
      dsimp only [bind, Option.bind] at h
      split at h
      · cases h
      · cases h
        exact ⟨List.cons_ne_nil _ _, hfront.append (front_bigMark _)⟩
  · cases h

theorem groupedDigit_plain : ∀ d ∈ marks, isGroupedDigit d = false :=
  List.all_iff_forall_prop.1 (by decide)

theorem decimalDigit_plain : ∀ d ∈ marks, Text.isDecimalDigit d = false :=
  List.all_iff_forall_prop.1 (by decide)

theorem front_mantissa (h : mantissa? s = some n) : n ≠ [] ∧ Front n s := by
  unfold mantissa? at h
  split at h
  · cases h
  · rename_i c r
    split at h
    · rename_i hc
      have hwhole : Front (c :: r.takeWhile isGroupedDigit) (c :: r) :=
        .cons (not_mem_marks decimalDigit_plain hc) (.takeWhile groupedDigit_plain)
      dsimp only at h
      split at h
      · rename_i f hf
        cases h
        refine ⟨List.cons_ne_nil _ _, hwhole.append ?_⟩
        have hdrop : (c :: r).drop (c :: r.takeWhile isGroupedDigit).length = '.' :: f :=
          (drop_takeWhile _ r).trans hf
        rw [hdrop]
        exact .cons (by decide) (.takeWhile groupedDigit_plain)
      · cases h
        exact ⟨List.cons_ne_nil _ _, hwhole⟩
    · split at h
      · rename_i d f
        split at h
        · rename_i hd
          cases h
          exact ⟨List.cons_ne_nil _ _, .cons (by decide)
            (.cons (not_mem_marks decimalDigit_plain hd) (.takeWhile groupedDigit_plain))⟩
        · cases h
      · cases h

theorem front_exponent (s : List Char) : Front (exponent s) s := by
  unfold exponent
  split
  · exact .nil
  · rename_i e r
    have hsigned (sign r : List Char) (hsign : ∀ c ∈ sign, c ∉ marks) :
        Front (if (e = 'e' ∨ e = 'E') ∧ r.takeWhile Text.isDecimalDigit ≠ [] then
          e :: sign ++ r.takeWhile Text.isDecimalDigit else []) (e :: (sign ++ r)) := by
      split
      · rename_i h
        have he : e ∉ marks := by rcases h.1 with rfl | rfl <;> decide
        have hfront : Front (e :: sign) (e :: (sign ++ r)) :=
          .cons he ⟨List.prefix_append sign r, hsign⟩
        refine hfront.append ?_
        rw [List.length_cons, List.drop_succ_cons, List.drop_left]
        exact .takeWhile decimalDigit_plain
      · exact .nil
    dsimp only
    split
    · exact hsigned ['+'] _ (by simp [marks])
    · exact hsigned ['-'] _ (by simp [marks])
    · exact hsigned [] _ (List.forall_mem_nil _)

/-- A number holds no marks. -/
theorem front_number (h : number? s = some n) : n ≠ [] ∧ Front n s := by
  unfold number? at h
  cases hradix : radixNumber? s with
  | some m =>
    rw [hradix] at h
    cases h
    exact front_radixNumber hradix
  | none =>
    rw [hradix] at h
    have h : decimalNumber? s = some n := h
    unfold decimalNumber? at h
    cases hm : mantissa? s with
    | none =>
      rw [hm] at h
      cases h
    | some m =>
      rw [hm] at h
      cases h
      obtain ⟨hne, hmantissa⟩ := front_mantissa hm
      have hfront := hmantissa.append (front_exponent _)
      refine ⟨by simp [hne], hfront.append ?_⟩
      rw [List.length_append, ← List.drop_drop]
      exact front_bigMark _

instance : DecidablePred IsCloser := fun c =>
  inferInstanceAs (Decidable (c = ')' ∨ c = ']' ∨ c = '\x7d'))

theorem quiet_punctuators : ∀ p ∈ punctuators, (Lexeme.punct p).isQuiet →
    (p.toList.length = 1 ∧ ∀ b ∈ p.toList, (closer? b).isSome ∨ IsCloser b) ∨
      ∀ c ∈ p.toList, c ∉ marks := by
  have hall : ∀ p ∈ punctuators, (Lexeme.punct p).isQuiet →
      (p.toList.length = 1 ∧ p.toList.all fun b => (closer? b).isSome ∨ IsCloser b) ∨
        p.toList.all (· ∉ marks) := by decide
  intro p hp hquiet
  exact (hall p hp hquiet).imp (fun h => ⟨h.1, List.all_iff_forall_prop.1 h.2⟩)
    List.all_iff_forall_prop.1

theorem isPrefix_of_punctuator {p : String} (h : punctuator? s = some p) :
    p ∈ punctuators ∧ p.toList <+: s := by
  have hfits := List.find?_some h
  simp only [punctuatorFits, Bool.and_eq_true] at hfits
  exact ⟨List.mem_of_find?_eq_some h, List.isPrefixOf_iff_prefix.1 hfits.1⟩

theorem punctuator_ne_nil : ∀ p ∈ punctuators, p.toList ≠ [] := by decide

theorem drop_of_isPrefix (hn : n ≠ []) (h : n <+: c :: w) :
    c :: w = n ++ w.drop (n.length - 1) := by
  obtain ⟨r, hr⟩ := h
  cases n with
  | nil => exact absurd rfl hn
  | cons d n =>
    cases hr
    simp

/-- The quiet lexemes that are no literals are brackets, or hold no marks. -/
theorem Lexeme.Stands.bracket_or_plain {l : Lexeme} (h : l.Stands s r) (hquiet : l.isQuiet)
    (hstring : ∀ v, l ≠ .string v) (htemplate : ∀ text t, l ≠ .template text t) :
    (∃ b, s = b :: r ∧ ((closer? b).isSome ∨ IsCloser b)) ∨
      ∃ n, s = n ++ r ∧ ∀ c ∈ n, c ∉ marks := by
  cases h with
  | string => exact absurd rfl (hstring _)
  | template => exact absurd rfl (htemplate _ _)
  | @number c w n _ hn =>
    obtain ⟨hne, hfront⟩ := front_number hn
    exact .inr ⟨n, drop_of_isPrefix hne hfront.isPrefix, hfront.plain⟩
  | @ident c w hc =>
    have hstart : ∀ d ∈ marks, isIdentStart d = false := List.all_iff_forall_prop.1 (by decide)
    have hpart : ∀ d ∈ marks, isIdentPart d = false := List.all_iff_forall_prop.1 (by decide)
    have hfront : Front (c :: w.takeWhile isIdentPart) (c :: w) :=
      .cons (not_mem_marks hstart hc) (.takeWhile hpart)
    exact .inr ⟨_, drop_of_isPrefix (List.cons_ne_nil _ _) hfront.isPrefix, hfront.plain⟩
  | @punct c w p hp =>
    obtain ⟨hmem, hprefix⟩ := isPrefix_of_punctuator hp
    have hne := punctuator_ne_nil p hmem
    have hsplit := drop_of_isPrefix hne hprefix
    rw [String.length_toList] at hsplit
    rcases quiet_punctuators p hmem hquiet with ⟨hone, hbracket⟩ | hplain
    · obtain ⟨b, hb⟩ := List.length_eq_one_iff.1 hone
      rw [hb] at hsplit hbracket
      exact .inl ⟨b, hsplit, hbracket b List.mem_cons_self⟩
    · exact .inr ⟨p.toList, hsplit, hplain⟩

/-! ### The two readers stay aligned -/

variable {left size : Nat} {closer : Char} {closers outer u x : List Char}

/-- The text is balanced if the bracket reader takes it up to a closing brace. -/
def BalancedIfClosed (x : List Char) : Prop :=
  ∀ (left : Nat) (u : List Char), Closes left '\x7d' [] (x ++ '\x7d' :: u) u → Balanced [] x

theorem closes_of_readBracketed {b : Read (List Char) s}
    (h : readBracketed left '\x7d' [] s = .ok b) :
    Closes left '\x7d' [] (b.value ++ '\x7d' :: b.rest) b.rest := by
  have hlossless : b.value ++ '\x7d' :: b.rest = s := read_lossless.2 _ _ _ _ b h
  rw [hlossless]
  exact ⟨b, h, rfl⟩

theorem templated_of_readTemplate {a : Read Template s} (h : readTemplate left s = .ok a) :
    (∀ x ∈ a.value.interpolations, BalancedIfClosed x) → Templated a.value s a.rest := by
  refine readTemplateInduction (P := fun t s r =>
    (∀ x ∈ t.interpolations, BalancedIfClosed x) → Templated t s r) ?_ ?_ ?_ ?_ h
  · exact fun r _ => .close r
  · exact fun c t s r ih hholes => .escape c (ih hholes)
  · intro left s b t r hb ih hholes
    obtain ⟨hhole, hholes⟩ := List.forall_mem_cons.1 hholes
    have hlossless : b.value ++ '\x7d' :: b.rest = s := read_lossless.2 _ _ _ _ b hb
    have hfront := Templated.hole (hhole _ _ (closes_of_readBracketed hb)) (ih hholes)
    rwa [hlossless] at hfront
  · exact fun c t s r hescape htick hhole ih hholes => .char hescape htick hhole (ih hholes)

theorem Gap.balanced (h : Gap s r)
    (hrest : Closes left closer outer (r ++ '\x7d' :: u) u → Balanced closers r)
    (hcloses : Closes left closer outer (s ++ '\x7d' :: u) u) : Balanced closers s := by
  cases h with
  | blank _ hc =>
    have hplain := not_mem_marks (List.all_iff_forall_prop.1 (by decide)) hc
    exact .plain hplain (hrest ((closes_plain hplain).1 hcloses))
  | line w =>
    rw [List.cons_append, List.cons_append, closes_line] at hcloses
    by_cases hline : '\n' ∈ w
    · obtain ⟨z, s', rfl, hz⟩ := List.eq_append_cons_of_mem hline
      rw [afterLine_append hz] at hrest
      rw [List.append_assoc, List.cons_append, afterLine_append hz] at hcloses
      exact .line hz (hrest hcloses)
    · -- the line would go on behind the closing brace
      have hpass : afterLine (w ++ '\x7d' :: u) = afterLine u := by
        have hdrop : (w ++ '\x7d' :: u).dropWhile (· != '\n') = u.dropWhile (· != '\n') := by
          rw [List.dropWhile_append_of_pos fun c hc =>
            bne_iff_ne.2 (ne_of_mem_of_not_mem hc hline)]
          rfl
        rw [afterLine, hdrop, afterLine]
      rw [hpass] at hcloses
      exact absurd (afterLine_suffix u).length_le (Nat.not_le_of_lt hcloses.length_lt)
  | block hr =>
    exact .block hr (hrest ((closes_block (afterBlock?_append hr _)).1 hcloses))

theorem Lexeme.Stands.balanced {l : Lexeme} (h : l.Stands s r) (hquiet : l.isQuiet)
    (hholes : ∀ x ∈ l.interpolations, BalancedIfClosed x)
    (hrest : ∀ {closer : Char} {outer closers : List Char}, closer :: outer = closers ++ ['\x7d'] →
      Closes left closer outer (r ++ '\x7d' :: u) u → Balanced closers r)
    (hstack : closer :: outer = closers ++ ['\x7d'])
    (hcloses : Closes left closer outer (s ++ '\x7d' :: u) u) : Balanced closers s := by
  have hother (hstring : ∀ v, l ≠ .string v) (htemplate : ∀ text t, l ≠ .template text t) :
      Balanced closers s := by
    rcases h.bracket_or_plain hquiet hstring htemplate with
      ⟨b, rfl, hopen | hclose⟩ | ⟨n, rfl, hn⟩
    · obtain ⟨d, hd⟩ := Option.isSome_iff_exists.1 hopen
      exact .opened hd (hrest (congrArg (d :: ·) hstack) ((closes_open hd).1 hcloses))
    · obtain ⟨rfl, hinner⟩ := (closes_close hclose).1 hcloses
      cases closers with
      | nil =>
        -- the last bracket would close in front of the closing brace
        obtain ⟨-, rfl⟩ := List.cons.inj hstack
        have hlength : (r ++ '\x7d' :: u).length = u.length := congrArg List.length hinner
        simp only [List.length_append, List.length_cons] at hlength
        omega
      | cons d closers =>
        obtain ⟨rfl, houter⟩ := List.cons.inj hstack
        cases outer with
        | nil => exact absurd houter.symm (by simp)
        | cons next outer => exact .closed hclose (hrest houter hinner)
    · rw [List.append_assoc] at hcloses
      exact .plains hn (hrest hstack ((closes_plains hn).1 hcloses))
  cases h with
  | @string q w v hq hv =>
    obtain ⟨v', hv', hcloses⟩ := (closes_string hq).1 hcloses
    obtain ⟨v'', hv'', -, hleft⟩ := readString_append hv ('\x7d' :: u)
    cases hv'.symm.trans hv''
    rw [hleft] at hcloses
    exact .string hq hv (hrest hstack hcloses)
  | @template w t ht =>
    obtain ⟨a, ha, hcloses⟩ := closes_template.1 hcloses
    have htemplate := templated_of_readTemplate ht hholes
    obtain ⟨a', ha', -, hleft⟩ := htemplate.reads _ ('\x7d' :: u)
    cases ha.symm.trans ha'
    rw [hleft] at hcloses
    exact .template htemplate (hrest hstack hcloses)
  | number | ident | punct => exact hother (fun _ => nofun) fun _ _ => nofun

theorem balanced_of_tokensFrom {ts : List Token} (h : tokensFrom size s = .ok ts)
    (hquiet : ∀ t ∈ ts, t.lexeme.isQuiet)
    (hholes : ∀ x ∈ tokenInterpolations ts, BalancedIfClosed x)
    (hstack : closer :: outer = closers ++ ['\x7d'])
    (hcloses : Closes left closer outer (s ++ '\x7d' :: u) u) : Balanced closers s := by
  induction hn : s.length using Nat.strongRecOn generalizing s ts closer outer closers with
  | ind n ih =>
    subst hn
    have step := tokensFrom_step size s
    generalize tokensFrom size s = answer at step h
    cases step with
    | done hs =>
      subst hs
      obtain ⟨rfl, hinner⟩ := (closes_close (.inr (.inr rfl))).1 hcloses
      cases outer with
      | nil =>
        obtain rfl : closers = [] := by
          have hlength := congrArg List.length hstack
          simpa using hlength
        exact .nil
      | cons next outer => exact absurd hinner.length_lt (Nat.lt_irrefl _)
    | gap hgap =>
      have hrest := fun hc => ih _ hgap.tail.length_lt h hquiet hholes hstack hc rfl
      exact hgap.balanced hrest hcloses
    | lexeme hl =>
      obtain ⟨ts', hts', h⟩ := ok_of_bind h
      cases h
      obtain ⟨hquiet, hquiet'⟩ := List.forall_mem_cons.1 hquiet
      obtain ⟨hholes, hholes'⟩ := List.forall_mem_append.1 hholes
      exact hl.balanced hquiet hholes
        (fun hstack hc => ih _ hl.tail.length_lt hts' hquiet' hholes' hstack hc rfl) hstack hcloses
    | malformed => cases h
    | symbolicDigit => cases h

/-- Quiet text that the bracket reader takes up to a closing brace is balanced. -/
theorem Quiet.balanced (h : Quiet s) : BalancedIfClosed s := by
  induction h with
  | intro htokens hquiet _ ih => exact fun _ _ hc => balanced_of_tokensFrom htokens hquiet ih rfl hc

/-- No symbolic digit stops the parser in quiet text. -/
theorem Quiet.parses (h : Quiet s) : ∃ e, parseLeniently s = .ok e := by
  induction h with
  | @intro s ts htokens _ _ ih =>
    cases hlenient : parseLeniently s with
    | ok e => exact ⟨e, rfl⟩
    | error d =>
      rcases error_of_parse (error_of_orUnparsed hlenient) with h | ⟨ts', hts', x, hx, hd⟩
      · cases htokens.symm.trans h
      · cases htokens.symm.trans hts'
        obtain ⟨e, he⟩ := ih x hx
        cases he.symm.trans hd

end

end DesignTokens.Script
