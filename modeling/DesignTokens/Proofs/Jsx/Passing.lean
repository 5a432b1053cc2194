import Mathlib.Data.Bool.AllAny
import DesignTokens.Proofs.Jsx.Finds
import DesignTokens.Proofs.Script.Balanced

/-!
# What a walk over script passes over

`scriptWalk` is what a walk over script finds and leaves. Passing over a blank, a comment, a
literal, a word or a punctuation mark makes it the walk over what follows (`scriptWalk_blank` and
the equations after it), whatever that is. So templates with balanced interpolations are passed
over (`walk_templated`), and a walk over balanced script stops at the brace behind it
(`walk_balanced`).
-/

namespace DesignTokens.Jsx

open Script (Balanced IsCloser Template Templated afterLine afterBlock? marks ne_escape readString
  readStringBody)

/-! ### Walks that say what is left -/

namespace Walk

variable {α β γ : Type} {w : Walk α} {f : α → Walk β} {g : α → β}

theorem bind_assoc {k : β → Walk γ} : w >>= f >>= k = w >>= fun a => f a >>= k := by
  cases hw : w.outcome with
  | error e => rw [bind_of_error hw, bind_of_error hw, bind_of_error rfl]
  | ok a =>
    rw [bind_of_ok hw, bind_of_ok hw]
    cases hf : (f a).outcome with
    | error e => rw [bind_of_error rfl, bind_of_error hf]
    | ok b => rw [bind_of_ok rfl, bind_of_ok hf, List.append_assoc]

theorem map_eq : g <$> w = w >>= fun a => Pure.pure (g a) := rfl

/-- What is done with a result may be done with a part of it. -/
theorem map_bind {left : α → γ} {after : γ → Walk β} (h : ∀ a, f a = after (left a)) :
    w >>= f = left <$> w >>= after := by
  rw [map_eq, bind_assoc]
  exact congrArg (w >>= ·) (funext h)

theorem map_result {k : β → γ} :
    k <$> (w >>= fun a => Pure.pure (g a)) = (fun a => k (g a)) <$> w := by
  rw [map_eq, map_eq, bind_assoc]
  rfl

theorem eq_of_map_eq_pure {b : β} (h : g <$> w = Pure.pure b) : ∃ a, w = ⟨[], .ok a⟩ ∧ g a = b := by
  obtain ⟨found, outcome⟩ := w
  cases outcome with
  | error e => cases congrArg Walk.outcome h
  | ok a =>
    obtain rfl : found = [] := (List.append_nil found).symm.trans (congrArg Walk.found h)
    exact ⟨a, rfl, Except.ok.inj (congrArg Walk.outcome h)⟩

end Walk

/-- What a walk over script finds, and what it leaves. -/
def scriptWalk (closer : Option Char) (depth : Nat) (operand : Bool) (s : List Char) :
    Walk (List Char) :=
  (·.rest) <$> walkScript closer depth operand s

/-- What a walk over a template finds, and what it leaves. -/
def templateWalk (s : List Char) : Walk (List Char) := (·.1) <$> walkTemplate s

/-! ### The front of a text -/

section

variable {closer : Option Char} {depth : Nat} {operand : Bool} {c : Char} {r s t u z : List Char}

theorem scriptWalk_blank (hc : Text.isBlank c) :
    scriptWalk closer depth operand (c :: r) = scriptWalk closer depth operand r := by
  rw [scriptWalk, walkScript, if_pos hc]
  exact Walk.map_result

theorem scriptWalk_line :
    scriptWalk closer depth operand ('/' :: '/' :: r) =
      scriptWalk closer depth operand (afterLine r) := by
  rw [scriptWalk, walkScript, if_neg (by decide), if_pos (by simp [atComment]), skipComment]
  exact Walk.map_result

theorem scriptWalk_block (h : afterBlock? z = some r) :
    scriptWalk closer depth operand ('/' :: '*' :: z) = scriptWalk closer depth operand r := by
  have hskip : skipComment ('/' :: '*' :: z) = .pure ⟨r, Script.tail_afterBlock h⟩ := by
    rw [skipComment]
    split
    · rename_i hnone
      cases hnone.symm.trans h
    · rename_i r' hr'
      cases hr'.symm.trans h
      rfl
  rw [scriptWalk, walkScript, if_neg (by decide), if_pos (by simp [atComment]), hskip]
  exact Walk.map_result

theorem scriptWalk_string (hc : c = '"' ∨ c = '\'') (h : (skipString c r).1 = s) :
    scriptWalk closer depth operand (c :: r) = scriptWalk closer depth false s := by
  have hblank : Text.isBlank c = false := by rcases hc with rfl | rfl <;> decide
  have hslash : c ≠ '/' := by rcases hc with rfl | rfl <;> decide
  rw [scriptWalk, walkScript, if_neg (by simp [hblank]), if_neg (by simp [atComment_of_ne hslash]),
    if_pos hc]
  subst h
  exact Walk.map_result

theorem scriptWalk_template :
    scriptWalk closer depth operand ('`' :: r) =
      templateWalk r >>= scriptWalk closer depth false := by
  rw [scriptWalk, walkScript, if_neg (by decide), if_neg (by simp [atComment]), if_neg (by decide),
    if_pos rfl, Walk.map_eq, Walk.bind_assoc]
  exact Walk.map_bind fun rest => Walk.map_result

theorem scriptWalk_word (hblank : Text.isBlank c = false) (hc : c ∉ marks)
    (hword : isScriptWordPart c) :
    ∃ operand', scriptWalk closer depth operand (c :: r) =
      scriptWalk closer depth operand' (r.dropWhile isScriptWordPart) := by
  simp only [marks, List.mem_cons, List.not_mem_nil, or_false, not_or] at hc
  obtain ⟨hdouble, hsingle, htick, hslash, -⟩ := hc
  rw [scriptWalk, walkScript, if_neg (by simp [hblank]), if_neg (by simp [atComment_of_ne hslash]),
    if_neg (by simp [hdouble, hsingle]), if_neg htick, if_pos hword]
  exact ⟨_, Walk.map_result⟩

theorem scriptWalk_mark (hblank : Text.isBlank c = false) (hword : isScriptWordPart c = false)
    (hc : c ∉ marks) :
    scriptWalk closer depth operand (c :: r) =
      scriptWalk closer depth (operandPunctuation.contains c) r := by
  simp only [marks, List.mem_cons, List.not_mem_nil, or_false, not_or] at hc
  obtain ⟨hdouble, hsingle, htick, hslash, htag, hopen, hclose, hopen', hclose', hopen'',
    hclose''⟩ := hc
  have hpunct : Punctuation c :=
    ⟨hblank, hslash, by simp [hdouble, hsingle], htick, hword, htag⟩
  rw [scriptWalk, walkScript_punctuation hpunct, if_neg (by simp [hopen, hopen', hopen'']),
    if_neg (by simp [hclose, hclose', hclose''])]
  exact Walk.map_result

theorem punctuation_bracket (hc : c ∈ ['(', ')', '[', ']', '\x7b', '\x7d']) : Punctuation c := by
  have hall : ∀ c ∈ ['(', ')', '[', ']', '\x7b', '\x7d'], Text.isBlank c = false ∧ c ≠ '/' ∧
      ¬(c = '"' ∨ c = '\'') ∧ c ≠ '`' ∧ isScriptWordPart c = false ∧ c ≠ '<' :=
    List.all_iff_forall_prop.1 (by decide)
  obtain ⟨hblank, hslash, hquote, htick, hword, htag⟩ := hall c hc
  exact ⟨hblank, hslash, hquote, htick, hword, htag⟩

theorem bracket_of_closer? {d : Char} (hc : Script.closer? c = some d) :
    c = '(' ∨ c = '[' ∨ c = '\x7b' := by
  unfold Script.closer? at hc
  split at hc
  · exact .inr (.inr rfl)
  · exact .inl rfl
  · exact .inr (.inl rfl)
  · cases hc

theorem scriptWalk_open {d : Char} (hc : Script.closer? c = some d) :
    scriptWalk closer depth operand (c :: r) =
      scriptWalk closer (depth + 1) (operandPunctuation.contains c) r := by
  have hopen := bracket_of_closer? hc
  have hpunct : Punctuation c :=
    punctuation_bracket (by rcases hopen with rfl | rfl | rfl <;> decide)
  rw [scriptWalk, walkScript_punctuation hpunct, if_pos hopen]
  exact Walk.map_result

/-- A closing bracket inside of others. -/
theorem scriptWalk_close (hc : IsCloser c) :
    scriptWalk closer (depth + 1) operand (c :: r) =
      scriptWalk closer depth (operandPunctuation.contains c) r := by
  have hpunct : Punctuation c := punctuation_bracket (by rcases hc with rfl | rfl | rfl <;> decide)
  have hopen : ¬(c = '(' ∨ c = '[' ∨ c = '\x7b') := by rcases hc with rfl | rfl | rfl <;> decide
  rw [scriptWalk, walkScript_punctuation hpunct, if_neg hopen,
    if_pos (show c = ')' ∨ c = ']' ∨ c = '\x7d' from hc), dif_neg (by simp)]
  exact Walk.map_result

/-- The closing bracket outside of others ends the walk. -/
theorem scriptWalk_end (hc : IsCloser c) :
    scriptWalk (some c) 0 operand (c :: r) = pure (c :: r) := by
  have hpunct : Punctuation c := punctuation_bracket (by rcases hc with rfl | rfl | rfl <;> decide)
  have hopen : ¬(c = '(' ∨ c = '[' ∨ c = '\x7b') := by rcases hc with rfl | rfl | rfl <;> decide
  rw [scriptWalk, walkScript_punctuation hpunct, if_neg hopen,
    if_pos (show c = ')' ∨ c = ']' ∨ c = '\x7d' from hc), dif_pos ⟨rfl, rfl⟩]
  rfl

theorem templateWalk_close : templateWalk ('`' :: r) = pure r := by
  rw [templateWalk, walkTemplate]
  rfl

theorem templateWalk_escape : templateWalk ('\\' :: c :: r) = templateWalk r := by
  rw [templateWalk, walkTemplate]
  exact Walk.map_result

theorem templateWalk_hole : templateWalk ('$' :: '\x7b' :: r) =
    scriptWalk (some '\x7d') 0 true r >>= fun rest => templateWalk rest.tail := by
  rw [templateWalk, walkTemplate, Walk.map_eq, Walk.bind_assoc]
  exact Walk.map_bind fun stop => Walk.map_result

theorem templateWalk_char (hescape : c ≠ '\\') (htick : c ≠ '`')
    (hhole : ¬(c = '$' ∧ r.head? = some '\x7b')) : templateWalk (c :: r) = templateWalk r := by
  rw [templateWalk, walkTemplate]
  · exact Walk.map_result
  · exact fun h _ => hescape h
  · exact fun _ _ h _ => hescape h
  · exact htick
  · rintro r' hc rfl
    exact hhole ⟨hc, rfl⟩

/-! ### Strings -/

theorem skipString_cons {q : Char} (hc : c ≠ '\\') : (skipString q (c :: r)).1 =
    if c = q then r else if c = '\n' then c :: r else (skipString q r).1 := by
  rw [skipString]
  · split
    · rfl
    · split
      · rfl
      · rfl
  · exact fun h _ => hc h
  · exact fun _ _ h _ => hc h

/-- A string that can be read is passed over to the same place. -/
theorem skipString_of_readStringBody {q : Char} {left : Nat} {v : Read (List Char) r}
    (h : readStringBody q left r = .ok v) (u : List Char) :
    (skipString q (r ++ u)).1 = v.rest ++ u := by
  fun_induction readStringBody q left r with
  | case1 => cases h
  | case2 => cases h
  | case3 c r ih =>
    obtain ⟨w, hw, h⟩ := ok_of_bind h
    cases h
    rw [List.cons_append, List.cons_append, skipString]
    exact ih hw
  | case4 r hend hescape =>
    cases h
    rw [List.cons_append, skipString_cons (ne_escape hend hescape), if_pos rfl]
  | case5 => cases h
  | case6 c r hend hescape hquote hline ih =>
    obtain ⟨w, hw, h⟩ := ok_of_bind h
    cases h
    rw [List.cons_append, skipString_cons (ne_escape hend hescape), if_neg hquote, if_neg hline]
    exact ih hw

/-! ### Balanced script -/

/-- A walk over the script stops at the brace in front of `u`, also if it begins within a word. -/
def StopsAt (depth : Nat) (s u : List Char) : Prop :=
  ∀ operand, scriptWalk (some '\x7d') depth operand s = pure ('\x7d' :: u) ∧
    scriptWalk (some '\x7d') depth operand (s.dropWhile isScriptWordPart) = pure ('\x7d' :: u)

theorem StopsAt.of_mark (hc : isScriptWordPart c = false)
    (h : ∀ operand, scriptWalk (some '\x7d') depth operand (c :: r) = pure ('\x7d' :: u)) :
    StopsAt depth (c :: r) u := by
  intro operand
  rw [List.dropWhile_cons_of_neg (by simp [hc])]
  exact ⟨h operand, h operand⟩

theorem StopsAt.plain (hc : c ∉ marks) (h : StopsAt depth r u) : StopsAt depth (c :: r) u := by
  have hfirst (operand : Bool) :
      scriptWalk (some '\x7d') depth operand (c :: r) = pure ('\x7d' :: u) := by
    by_cases hblank : Text.isBlank c
    · rw [scriptWalk_blank hblank]
      exact (h operand).1
    rw [Bool.not_eq_true] at hblank
    by_cases hword : isScriptWordPart c
    · obtain ⟨operand', hrest⟩ := scriptWalk_word hblank hc hword
      rw [hrest]
      exact (h operand').2
    · rw [Bool.not_eq_true] at hword
      rw [scriptWalk_mark hblank hword hc]
      exact (h _).1
  by_cases hword : isScriptWordPart c
  · intro operand
    rw [List.dropWhile_cons_of_pos hword]
    exact ⟨hfirst operand, (h operand).2⟩
  · exact .of_mark (Bool.not_eq_true _ ▸ hword) hfirst

end

mutual

/-- A walk over balanced script finds nothing and stops at the brace behind it. -/
theorem walk_balanced {closers s : List Char} : Balanced closers s →
    ∀ u, StopsAt closers.length (s ++ '\x7d' :: u) u
  | .nil, u => .of_mark (by decide) fun _ => scriptWalk_end (.inr (.inr rfl))
  | .plain hc h, u => .plain hc (walk_balanced h u)
  | .line hz h, u => .of_mark (by decide) fun operand => by
    rw [List.append_eq, List.cons_append, List.append_assoc, List.cons_append, scriptWalk_line,
      Script.afterLine_append hz]
    exact (walk_balanced h u operand).1
  | .block hz h, u => .of_mark (by decide) fun operand => by
    rw [List.append_eq, List.cons_append, scriptWalk_block (Script.afterBlock?_append hz _)]
    exact (walk_balanced h u operand).1
  | .string hq hv h, u => .of_mark (by rcases hq with rfl | rfl <;> decide) fun operand => by
    rw [List.append_eq, scriptWalk_string hq (skipString_of_readStringBody hv _)]
    exact (walk_balanced h u false).1
  | .template ht h, u => .of_mark (by decide) fun operand => by
    rw [List.append_eq, scriptWalk_template, walk_templated ht]
    exact (walk_balanced h u false).1
  | .opened hc h, u => by
    have hbracket := bracket_of_closer? hc
    refine .of_mark (by rcases hbracket with rfl | rfl | rfl <;> decide) fun operand => ?_
    rw [List.append_eq, scriptWalk_open hc]
    exact (walk_balanced h u _).1
  | .closed hd h, u => .of_mark (by rcases hd with rfl | rfl | rfl <;> decide) fun operand => by
    rw [List.append_eq, List.length_cons, scriptWalk_close hd]
    exact (walk_balanced h u _).1
termination_by structural h => h

/-- A walk over a template with balanced interpolations finds nothing and goes to its end. -/
theorem walk_templated {t : Template} {z s : List Char} : Templated t z s →
    ∀ u, templateWalk (z ++ u) = pure (s ++ u)
  | .close s, u => templateWalk_close
  | .escape c h, u => by
    rw [List.cons_append, List.cons_append, templateWalk_escape]
    exact walk_templated h u
  | @Templated.hole _ x z _ hx h, u => by
    have hhole := (walk_balanced hx (z ++ u) true).1
    rw [List.length_nil] at hhole
    rw [List.cons_append, List.cons_append, List.append_assoc, List.cons_append, templateWalk_hole,
      hhole]
    exact walk_templated h u
  | .char hescape htick hhole h, u => by
    rw [List.cons_append, templateWalk_char hescape htick]
    · exact walk_templated h u
    · intro hc
      refine hhole ⟨hc.1, ?_⟩
      cases h with
      | close | escape | hole | char => exact hc.2
termination_by structural h => h

end

end DesignTokens.Jsx
