import DesignTokens.Proofs.Json.Decode
import DesignTokens.Proofs.Text.Reading
import Mathlib.Data.List.TakeWhile

/-!
# Documents are read as they were written

`Gives` says what a reader takes from the front of a text and what it leaves. Each part of a
document that `Tree.render` writes is given back by the reader of that part, whatever stands behind
it, except that a number must end there (`NumberEnds`). So a document is decoded to the tree it was
written from (`decode_render`).
-/

namespace DesignTokens.Json

variable {α : Type} {c : Char} {n : Nat} {r s : List Char}

/-! ### Texts -/

/-- The reader takes `v` from the front of `s` and leaves `r`. -/
def Gives (read : (s : List Char) → Option (Read α s)) (s : List Char) (v : α) (r : List Char) :
    Prop :=
  ∃ h, read s = some ⟨v, r, h⟩

theorem Gives.of_eq {read : (s : List Char) → Option (Read α s)} {v : α} {a : Read α s}
    (h : read s = some a) (hv : a.value = v) (hr : a.rest = r) : Gives read s v r := by
  subst hv hr
  exact ⟨a.tail, h⟩

theorem hexDigits_four (n : Nat) : Text.hexDigits 4 n =
    [Nat.digitChar (n / 4096 % 16), Nat.digitChar (n / 256 % 16), Nat.digitChar (n / 16 % 16),
      Nat.digitChar (n % 16)] := by
  simp [Text.hexDigits, List.range_succ]

theorem hexValue_digitChar : ∀ d < 16,
    Text.isHexDigit (Nat.digitChar d) ∧ Text.hexValue (Nat.digitChar d) = d := by
  decide

theorem readUnit_hexDigits (hn : n < 0x10000) (r : List Char) :
    Gives readUnit (Text.hexDigits 4 n ++ r) n r := by
  have hdigit (m : Nat) := hexValue_digitChar (m % 16) (Nat.mod_lt _ (by decide))
  rw [hexDigits_four]
  refine .of_eq (if_pos (by simp [hdigit])) ?_ rfl
  simp only [Decimal.ofDigits, List.foldl_cons, List.foldl_nil, hdigit]
  omega

theorem readSecondHalf_unitEscape (hn : n < 0x400) (r : List Char) :
    Gives readSecondHalf (unitEscape (0xDC00 + n) ++ r) n r := by
  obtain ⟨htail, hread⟩ := readUnit_hexDigits (n := 0xDC00 + n) (by omega) r
  have hhalf : 0xDC00 ≤ 0xDC00 + n ∧ 0xDC00 + n ≤ 0xDFFF := by omega
  rw [unitEscape, List.cons_append, List.cons_append]
  refine ⟨(htail.trans (.one 'u' _)).trans (.one '\\' _), ?_⟩
  rw [readSecondHalf, hread]
  simp only [Option.bind_eq_bind, Option.bind_some, if_pos hhalf, Nat.add_sub_cancel_left]

theorem readUnits_hexDigits (hn : n < 0xD800 ∨ 0xDFFF < n ∧ n < 0x10000) (r : List Char) :
    Gives readUnits (Text.hexDigits 4 n ++ r) (Char.ofNat n) r := by
  obtain ⟨htail, hread⟩ := readUnit_hexDigits (n := n) (by omega) r
  have hwhole : n < 0xD800 ∨ 0xDFFF < n := by omega
  refine ⟨htail, ?_⟩
  rw [readUnits, hread]
  simp only [Option.bind_eq_bind, Option.bind_some, if_pos hwhole, Read.map]

theorem readUnits_pair (hn : n < 0x100000) (r : List Char) :
    Gives readUnits (Text.hexDigits 4 (0xD800 + n / 0x400) ++
      (unitEscape (0xDC00 + n % 0x400) ++ r)) (Char.ofNat (0x10000 + n)) r := by
  obtain ⟨htail, hread⟩ := readUnit_hexDigits (n := 0xD800 + n / 0x400) (by omega)
    (unitEscape (0xDC00 + n % 0x400) ++ r)
  obtain ⟨htail', hread'⟩ := readSecondHalf_unitEscape (Nat.mod_lt n (by decide : 0 < 0x400)) r
  have hhalf : ¬(0xD800 + n / 0x400 < 0xD800 ∨ 0xDFFF < 0xD800 + n / 0x400) := by omega
  have hfirst : 0xD800 + n / 0x400 < 0xDC00 := by omega
  have hsum : 0x10000 + n / 0x400 * 0x400 + n % 0x400 = 0x10000 + n := by omega
  refine ⟨htail'.trans htail, ?_⟩
  rw [readUnits, hread]
  simp only [Option.bind_eq_bind, Option.bind_some, if_neg hhalf, if_pos hfirst, hread',
    Nat.add_sub_cancel_left, hsum]

/-- The ways in which a character is written: by a short escape, as itself, or by one or two
UTF-16 units. -/
inductive Escape (c : Char) : List Char → Prop
  | short {e : Char} : (e, c) ∈ shortEscapes → Escape c ['\\', e]
  | plain : 0x20 ≤ c.toNat → c.toNat ≤ 0x7E → c ≠ '"' → c ≠ '\\' → Escape c [c]
  | unit : c.toNat < 0xD800 ∨ 0xDFFF < c.toNat ∧ c.toNat < 0x10000 → Escape c (unitEscape c.toNat)
  | pair {n : Nat} : n < 0x100000 → 0x10000 + n = c.toNat →
    Escape c (unitEscape (0xD800 + n / 0x400) ++ unitEscape (0xDC00 + n % 0x400))

theorem escape_escapedChar (c : Char) : Escape c (escapedChar c) := by
  unfold escapedChar
  split
  · rename_i h
    rcases h with rfl | rfl <;> exact .short (by decide)
  iterate 5
    split
    · rename_i h
      exact h ▸ .short (by decide)
  rename_i hquoted _ _ _ _ _
  rw [not_or] at hquoted
  split
  · rename_i hplain
    exact .plain hplain.1 hplain.2 hquoted.1 hquoted.2
  have hvalid : c.toNat < 0xD800 ∨ 0xDFFF < c.toNat ∧ c.toNat < 0x110000 := c.valid
  split
  · exact .unit (by omega)
  · exact .pair (by omega) (by omega)

theorem lookup_shortEscapes : ∀ p ∈ shortEscapes,
    p.1 ≠ 'u' ∧ shortEscapes.lookup p.1 = some p.2 := by
  decide

theorem Escape.read (h : Escape c s) (r : List Char) : Gives readCharacter (s ++ r) c r := by
  cases h with
  | @short e he =>
    obtain ⟨hu, hlookup⟩ := lookup_shortEscapes _ he
    refine ⟨(Tail.one e r).trans (.one '\\' _), ?_⟩
    show readCharacter ('\\' :: e :: r) = _
    rw [readCharacter, hlookup]
    · rfl
    · exact hu
  | plain hle _ _ hbackslash =>
    refine ⟨.one c r, ?_⟩
    show readCharacter (c :: r) = _
    rw [readCharacter]
    · exact if_pos ⟨hle, hbackslash⟩
    · exact fun _ hc _ => hbackslash hc
    · exact fun _ _ hc _ => hbackslash hc
  | unit hc =>
    obtain ⟨htail, hread⟩ := readUnits_hexDigits hc r
    rw [unitEscape, List.cons_append, List.cons_append]
    refine ⟨(htail.trans (.one 'u' _)).trans (.one '\\' _), ?_⟩
    rw [readCharacter, hread, Char.ofNat_toNat]
    rfl
  | pair hn hsum =>
    obtain ⟨htail, hread⟩ := readUnits_pair hn r
    rw [unitEscape, List.append_assoc, List.cons_append, List.cons_append]
    refine ⟨(htail.trans (.one 'u' _)).trans (.one '\\' _), ?_⟩
    rw [readCharacter, hread, hsum, Char.ofNat_toNat]
    rfl

theorem Escape.eq_cons (h : Escape c s) : ∃ x t, s = x :: t ∧ x ≠ '"' := by
  cases h with
  | short => exact ⟨_, _, rfl, by decide⟩
  | plain _ _ hquote => exact ⟨_, _, rfl, hquote⟩
  | unit => exact ⟨_, _, rfl, by decide⟩
  | pair => exact ⟨_, _, rfl, by decide⟩

theorem readText_quoted (s r : List Char) :
    Gives readText (s.flatMap escapedChar ++ '"' :: r) s r := by
  induction s with
  | nil =>
    refine ⟨.one '"' r, ?_⟩
    show readText ('"' :: r) = _
    rw [readText, if_pos rfl]
  | cons c s ih =>
    obtain ⟨x, t, hchar, hx⟩ := (escape_escapedChar c).eq_cons
    have hcharacter := (escape_escapedChar c).read (s.flatMap escapedChar ++ '"' :: r)
    rw [List.flatMap_cons, List.append_assoc]
    rw [hchar, List.cons_append] at hcharacter ⊢
    obtain ⟨htail, hcharacter⟩ := hcharacter
    obtain ⟨hrest, htext⟩ := ih
    refine ⟨hrest.trans htail, ?_⟩
    rw [readText, if_neg hx, hcharacter]
    simp only [Option.bind_eq_bind, Option.bind_some, htext]

/-! ### Blanks and marks -/

theorem readMark_self (c : Char) (r : List Char) : Gives (readMark c) (c :: r) () r := by
  refine ⟨.one c r, ?_⟩
  rw [readMark, if_pos rfl]

theorem readMark_of_ne {d : Char} (hd : d ≠ c) (hspace : isSpace d = false) (r : List Char) :
    readMark c (d :: r) = none := by
  rw [readMark, if_neg hd, hspace]
  rfl

theorem Gives.space {read : (s : List Char) → Option (Read α s)} {v : α} {d : Char}
    (hread : ∀ t, read (d :: t) = (read t).map (.after (.one d t))) (h : Gives read s v r) :
    Gives read (d :: s) v r := by
  obtain ⟨htail, h⟩ := h
  refine ⟨htail.trans (.one d s), ?_⟩
  rw [hread, h]
  rfl

/-- A reader that passes over blanks passes over line breaks with their indentation. -/
theorem Gives.newline {read : (s : List Char) → Option (Read α s)} {v : α}
    (hread : ∀ d t, isSpace d → read (d :: t) = (read t).map (.after (.one d t)))
    (h : Gives read s v r) (depth : Nat) : Gives read (newline depth ++ s) v r := by
  rw [Json.newline, List.cons_append]
  refine .space (hread _ · (by decide)) ?_
  induction 2 * depth with
  | zero => exact h
  | succ n ih =>
    rw [List.replicate_succ, List.cons_append]
    exact .space (hread _ · (by decide)) ih

theorem readMark_space (hc : isSpace c = false) (d : Char) (t : List Char) (hd : isSpace d) :
    readMark c (d :: t) = (readMark c t).map (.after (.one d t)) := by
  have hne : d ≠ c := fun h => by
    rw [h, hc] at hd
    cases hd
  rw [readMark, if_neg hne, if_pos hd]

theorem readTree_space (d : Char) (t : List Char) (hd : isSpace d) :
    readTree (d :: t) = (readTree t).map (.after (.one d t)) := by
  rw [readTree, if_pos hd]

theorem readTree_word (hspace : isSpace c = false) (hc : c ∉ ['"', '[', '\x7b']) (r : List Char) :
    readTree (c :: r) = readWord (c :: r) := by
  simp only [List.mem_cons, List.not_mem_nil, or_false, not_or] at hc
  rw [readTree, hspace, if_neg Bool.false_ne_true, if_neg hc.1, if_neg hc.2.1, if_neg hc.2.2]

/-! ### Numbers -/

/-- No number goes on at the front of the text. -/
def NumberEnds (s : List Char) : Prop := s.head?.all (!isNumberPart ·)

def IsNumber (s : List Char) : Prop := (∀ c ∈ s, isNumberPart c) ∧ isNumber s

theorem IsNumber.eq_cons (h : IsNumber s) : ∃ c t, s = c :: t ∧ isNumberPart c := by
  cases s with
  | nil => exact absurd h.2 (by decide)
  | cons c s => exact ⟨c, s, rfl, h.1 c List.mem_cons_self⟩

theorem readNumber_of_isNumber (h : IsNumber (c :: s)) (hr : NumberEnds r) :
    Gives readNumber (c :: (s ++ r)) (.number (String.ofList (c :: s))) r := by
  obtain ⟨hc, hparts⟩ := List.forall_mem_cons.1 h.1
  obtain ⟨htake, hdrop⟩ := takeWhile_append_of_head hparts hr
  have hnumber : isNumber (c :: (s ++ r).takeWhile isNumberPart) := htake.symm ▸ h.2
  have hvalue : Tree.number (String.ofList (c :: (s ++ r).takeWhile isNumberPart)) =
      .number (String.ofList (c :: s)) := by rw [htake]
  exact .of_eq (if_pos ⟨hc, hnumber⟩) hvalue hdrop

theorem readTree_of_isNumber (h : IsNumber s) (hr : NumberEnds r) :
    Gives readTree (s ++ r) (.number (String.ofList s)) r := by
  obtain ⟨c, s, rfl, hc⟩ := h.eq_cons
  have hne {d : Char} (hd : isNumberPart d = false) : c ≠ d := fun h => by
    rw [h, hd] at hc
    cases hc
  have hspace : isSpace c = false := by
    simp [isSpace, hne (d := ' ') (by decide), hne (d := '\n') (by decide),
      hne (d := '\r') (by decide), hne (d := '\t') (by decide)]
  have hmark : c ∉ ['"', '[', '\x7b'] := by
    simp [hne (d := '"') (by decide), hne (d := '[') (by decide), hne (d := '\x7b') (by decide)]
  obtain ⟨htail, hread⟩ := readNumber_of_isNumber h hr
  refine ⟨htail, ?_⟩
  show readTree (c :: (s ++ r)) = _
  rw [readTree_word hspace hmark, readWord]
  · exact hread
  all_goals exact fun _ heq => hne (by decide) (List.cons.inj heq).1

theorem head_toDigits_ne_zero (hn : 0 < n) : (Nat.toDigits 10 n).head? ≠ some '0' := by
  induction n using Nat.strongRecOn with
  | ind n ih =>
    rw [Nat.toDigits_eq_if (by decide)]
    split
    · rw [List.head?_cons, ne_eq, Option.some.injEq, Nat.digitChar_eq_zero]
      omega
    · obtain ⟨c, t, hdigits⟩ := List.exists_cons_of_ne_nil (Nat.toDigits_ne_nil (n := n / 10))
      have hhead := ih (n / 10) (by omega) (by omega)
      rwa [hdigits] at hhead ⊢

theorem isNumber_of_digits (hs : ∀ d ∈ c :: s, Text.isAsciiDigit d) (hc : c ≠ '0') :
    isNumber (c :: s) := by
  have hhead := hs c List.mem_cons_self
  have hsign : ¬(c :: s).head? = some '-' := fun h => by
    obtain rfl := Option.some.inj h
    cases hhead
  have hwhole : afterWhole? (c :: s) = some [] := by
    rw [afterWhole?, afterDigits?, List.dropWhile_eq_nil_iff.2 hs]
    · exact if_pos hhead
    · exact fun _ h => hc (List.cons.inj h).1
  unfold isNumber
  rw [if_neg hsign]
  dsimp only
  rw [hwhole]
  rfl

theorem isNumber_toString (n : Nat) : IsNumber (toString n).toList := by
  rw [Nat.toString_eq_ofList_toDigits, String.toList_ofList]
  have hdigits : ∀ c ∈ Nat.toDigits 10 n, Text.isAsciiDigit c := fun c =>
    Nat.isDigit_of_mem_toDigits (by decide) (by decide)
  refine ⟨fun c hc => ?_, ?_⟩
  · simp [isNumberPart, hdigits c hc]
  · rcases Nat.eq_zero_or_pos n with rfl | hn
    · decide
    · have hhead := head_toDigits_ne_zero hn
      obtain ⟨c, t, heq⟩ := List.exists_cons_of_ne_nil (Nat.toDigits_ne_nil (n := n) (b := 10))
      rw [heq] at hdigits hhead ⊢
      exact isNumber_of_digits hdigits fun hc => hhead (congrArg some hc)

/-! ### Members -/

/-- Members on lines of their own. -/
def memberLines (depth : Nat) (members : List (List Char)) : List Char :=
  ((members.map (newline depth ++ ·)).intersperse [',']).flatten

theorem memberLines_singleton (depth : Nat) (m : List Char) :
    memberLines depth [m] = newline depth ++ m := by
  simp [memberLines]

theorem memberLines_cons_cons (depth : Nat) (m m' : List Char) (ms : List (List Char)) :
    memberLines depth (m :: m' :: ms) =
      newline depth ++ (m ++ ',' :: memberLines depth (m' :: ms)) := by
  simp [memberLines]

theorem bracketed_cons (opening closing : Char) (depth : Nat) (m : List Char)
    (ms : List (List Char)) : bracketed opening closing depth (m :: ms) =
      opening :: (memberLines (depth + 1) (m :: ms) ++ (newline depth ++ [closing])) := by
  simp [bracketed, memberLines]

section

variable {r' r'' : List Char} {name : String} {t : Tree} {ts : List Tree}
  {fs : List (String × Tree)}

theorem readItems_last (ht : Gives readTree s t r) (hclosing : Gives (readMark ']') r () r') :
    Gives readItems s [t] r' := by
  obtain ⟨htail, ht⟩ := ht
  obtain ⟨hrest, hclosing⟩ := hclosing
  refine ⟨hrest.trans htail, ?_⟩
  rw [readItems, ht]
  simp only [Option.bind_eq_bind, Option.bind_some, hclosing]

theorem readItems_more (ht : Gives readTree s t (',' :: r)) (hts : Gives readItems r ts r') :
    Gives readItems s (t :: ts) r' := by
  obtain ⟨htail, ht⟩ := ht
  obtain ⟨hrest, hts⟩ := hts
  obtain ⟨hcomma, hmark⟩ := readMark_self ',' r
  refine ⟨(hrest.trans hcomma).trans htail, ?_⟩
  rw [readItems, ht]
  simp only [Option.bind_eq_bind, Option.bind_some,
    readMark_of_ne (c := ']') (d := ',') (by decide) (by decide), hmark, hts]

theorem readFields_last (hname : Gives readName s name r) (ht : Gives readTree r t r')
    (hclosing : Gives (readMark '\x7d') r' () r'') : Gives readFields s [(name, t)] r'' := by
  obtain ⟨hfront, hname⟩ := hname
  obtain ⟨htail, ht⟩ := ht
  obtain ⟨hrest, hclosing⟩ := hclosing
  refine ⟨(hrest.trans htail).trans hfront, ?_⟩
  rw [readFields, hname]
  simp only [Option.bind_eq_bind, Option.bind_some, ht, hclosing]

theorem readFields_more (hname : Gives readName s name r) (ht : Gives readTree r t (',' :: r'))
    (hfs : Gives readFields r' fs r'') : Gives readFields s ((name, t) :: fs) r'' := by
  obtain ⟨hfront, hname⟩ := hname
  obtain ⟨htail, ht⟩ := ht
  obtain ⟨hrest, hfs⟩ := hfs
  obtain ⟨hcomma, hmark⟩ := readMark_self ',' r'
  refine ⟨((hrest.trans hcomma).trans htail).trans hfront, ?_⟩
  rw [readFields, hname]
  simp only [Option.bind_eq_bind, Option.bind_some, ht,
    readMark_of_ne (c := '\x7d') (d := ',') (by decide) (by decide), hmark, hfs]

theorem readName_quoted (name : String) (depth : Nat) (r : List Char) :
    Gives readName (newline depth ++ (quoted name ++ ':' :: r)) name r := by
  have hquoted : quoted name ++ ':' :: r =
      '"' :: (name.toList.flatMap escapedChar ++ '"' :: ':' :: r) := by simp [quoted]
  rw [hquoted]
  obtain ⟨hfront, hmark⟩ := (readMark_self '"' _).newline (readMark_space (by decide)) depth
  obtain ⟨htail, htext⟩ := readText_quoted name.toList (':' :: r)
  obtain ⟨hrest, hcolon⟩ := readMark_self ':' r
  refine ⟨(hrest.trans htail).trans hfront, ?_⟩
  rw [readName, hmark]
  simp only [Option.bind_eq_bind, Option.bind_some, htext, hcolon, String.ofList_toList]

end

/-! ### Documents -/

mutual

/-- All numbers of the document are written as the format has them. -/
def Tree.Written : Tree → Prop
  | .number s => IsNumber s.toList
  | .array items => ItemsWritten items
  | .object fields => FieldsWritten fields
  | .null | .bool _ | .text _ => True
termination_by structural t => t

def ItemsWritten : List Tree → Prop
  | [] => True
  | t :: ts => t.Written ∧ ItemsWritten ts
termination_by structural ts => ts

def FieldsWritten : List (String × Tree) → Prop
  | [] => True
  | f :: fs => FieldWritten f ∧ FieldsWritten fs
termination_by structural fs => fs

def FieldWritten : String × Tree → Prop
  | (_, t) => t.Written
termination_by structural f => f

end

theorem numberEnds_newline (depth : Nat) (s : List Char) : NumberEnds (newline depth ++ s) := rfl

theorem numberEnds_comma (s : List Char) : NumberEnds (',' :: s) := rfl

theorem readTree_text (v : String) (r : List Char) : Gives readTree (quoted v ++ r) (.text v) r := by
  obtain ⟨htail, htext⟩ := readText_quoted v.toList r
  have hquoted : quoted v ++ r = '"' :: (v.toList.flatMap escapedChar ++ '"' :: r) := by
    simp [quoted]
  rw [hquoted]
  refine ⟨htail.trans (.one _ _), ?_⟩
  rw [readTree, if_neg (by decide), if_pos rfl, htext, Option.map_some]
  simp only [Read.after, Read.map, String.ofList_toList]

theorem readTree_array {items : List Tree} (h : Gives readItems s items r) :
    Gives readTree ('[' :: s) (.array items) r := by
  obtain ⟨htail, h⟩ := h
  refine ⟨htail.trans (.one _ _), ?_⟩
  rw [readTree, if_neg (by decide), if_neg (by decide), if_pos rfl, h]
  rfl

theorem readTree_object {fields : List (String × Tree)} (h : Gives readFields s fields r) :
    Gives readTree ('\x7b' :: s) (.object fields) r := by
  obtain ⟨htail, h⟩ := h
  refine ⟨htail.trans (.one _ _), ?_⟩
  rw [readTree, if_neg (by decide), if_neg (by decide), if_neg (by decide), if_pos rfl, h]
  rfl

theorem readTree_emptyArray (r : List Char) : Gives readTree ('[' :: ']' :: r) (.array []) r := by
  refine ⟨(Tail.one _ _).trans (.one _ _), ?_⟩
  rw [readTree, if_neg (by decide), if_neg (by decide), if_pos rfl, readItems,
    readTree_word (by decide) (by decide)]
  rfl

theorem readTree_emptyObject (r : List Char) :
    Gives readTree ('\x7b' :: '\x7d' :: r) (.object []) r := by
  refine ⟨(Tail.one _ _).trans (.one _ _), ?_⟩
  rw [readTree, if_neg (by decide), if_neg (by decide), if_neg (by decide), if_pos rfl, readFields]
  rfl

theorem readTree_null (r : List Char) : Gives readTree ("null".toList ++ r) .null r :=
  ⟨⟨'n', ['u', 'l', 'l'], rfl⟩, readTree_word (c := 'n') (by decide) (by decide) _⟩

theorem readTree_bool (b : Bool) (r : List Char) :
    Gives readTree ((if b then "true" else "false").toList ++ r) (.bool b) r := by
  cases b with
  | true => exact ⟨⟨'t', ['r', 'u', 'e'], rfl⟩, readTree_word (c := 't') (by decide) (by decide) _⟩
  | false =>
    exact ⟨⟨'f', ['a', 'l', 's', 'e'], rfl⟩, readTree_word (c := 'f') (by decide) (by decide) _⟩

mutual

theorem readTree_chars : (t : Tree) → t.Written → ∀ depth {r}, NumberEnds r →
    Gives readTree (t.chars depth ++ r) t r
  | .null, _, _, r, _ => readTree_null r
  | .bool b, _, _, r, _ => readTree_bool b r
  | .number s, h, _, r, hr => by
    have hread := readTree_of_isNumber h hr
    rwa [String.ofList_toList] at hread
  | .text v, _, _, r, _ => readTree_text v r
  | .array [], _, _, r, _ => readTree_emptyArray r
  | .array (t :: ts), h, depth, r, _ => by
    have hitems := readItems_itemChars (t :: ts) (List.cons_ne_nil t ts) h depth r
    have hchars : (Tree.array (t :: ts)).chars depth ++ r = '[' ::
        (memberLines (depth + 1) (itemChars (depth + 1) (t :: ts)) ++
          (newline depth ++ ']' :: r)) := by
      rw [Tree.chars, itemChars, bracketed_cons]
      simp
    rw [hchars]
    exact readTree_array hitems
  | .object [], _, _, r, _ => readTree_emptyObject r
  | .object (f :: fs), h, depth, r, _ => by
    have hfields := readFields_fieldsChars (f :: fs) (List.cons_ne_nil f fs) h depth r
    have hchars : (Tree.object (f :: fs)).chars depth ++ r = '\x7b' ::
        (memberLines (depth + 1) (fieldsChars (depth + 1) (f :: fs)) ++
          (newline depth ++ '\x7d' :: r)) := by
      rw [Tree.chars, fieldsChars, bracketed_cons]
      simp
    rw [hchars]
    exact readTree_object hfields

theorem readItems_itemChars : (ts : List Tree) → ts ≠ [] → ItemsWritten ts → ∀ depth r,
    Gives readItems (memberLines (depth + 1) (itemChars (depth + 1) ts) ++
      (newline depth ++ ']' :: r)) ts r
  | [], hne, _, _, _ => absurd rfl hne
  | [t], _, h, depth, r => by
    have ht := readTree_chars t h.1 (depth + 1) (numberEnds_newline depth (']' :: r))
    have hclosing := (readMark_self ']' r).newline (readMark_space (by decide)) depth
    rw [itemChars, itemChars, memberLines_singleton, List.append_assoc]
    exact readItems_last (ht.newline readTree_space (depth + 1)) hclosing
  | t :: t' :: ts, _, h, depth, r => by
    have hts := readItems_itemChars (t' :: ts) (List.cons_ne_nil t' ts) h.2 depth r
    have ht := readTree_chars t h.1 (depth + 1) (numberEnds_comma (memberLines (depth + 1)
      (itemChars (depth + 1) (t' :: ts)) ++ (newline depth ++ ']' :: r)))
    rw [itemChars] at hts ht ⊢
    rw [itemChars, memberLines_cons_cons, List.append_assoc, List.append_assoc, List.cons_append]
    exact readItems_more (ht.newline readTree_space (depth + 1)) hts

theorem readFields_fieldsChars : (fs : List (String × Tree)) → fs ≠ [] → FieldsWritten fs →
    ∀ depth r, Gives readFields (memberLines (depth + 1) (fieldsChars (depth + 1) fs) ++
      (newline depth ++ '\x7d' :: r)) fs r
  | [], hne, _, _, _ => absurd rfl hne
  | [(name, t)], _, h, depth, r => by
    have ht := readTree_chars t h.1 (depth + 1) (numberEnds_newline depth ('\x7d' :: r))
    have hclosing := (readMark_self '\x7d' r).newline (readMark_space (by decide)) depth
    rw [fieldsChars, fieldsChars, memberLines_singleton, fieldChars, List.append_assoc,
      List.append_assoc]
    exact readFields_last (readName_quoted name (depth + 1) _)
      (ht.space (readTree_space ' ' · (by decide))) hclosing
  | (name, t) :: f' :: fs, _, h, depth, r => by
    have hfs := readFields_fieldsChars (f' :: fs) (List.cons_ne_nil f' fs) h.2 depth r
    have ht := readTree_chars t h.1 (depth + 1) (numberEnds_comma (memberLines (depth + 1)
      (fieldsChars (depth + 1) (f' :: fs)) ++ (newline depth ++ '\x7d' :: r)))
    rw [fieldsChars] at hfs ht ⊢
    rw [fieldsChars, memberLines_cons_cons, fieldChars, List.append_assoc, List.append_assoc,
      List.append_assoc, List.cons_append]
    exact readFields_more (readName_quoted name (depth + 1) _)
      (ht.space (readTree_space ' ' · (by decide))) hfs

end

/-- A document is decoded to the tree that it was written from. -/
theorem decode_render {t : Tree} (h : t.Written) : decode t.render = some t := by
  have hread := readTree_chars t h 0 (r := []) rfl
  rw [List.append_nil] at hread
  obtain ⟨htail, hread⟩ := hread
  rw [decode, Tree.render, String.toList_ofList, hread]
  rfl

end DesignTokens.Json
