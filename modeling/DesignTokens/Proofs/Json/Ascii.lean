import DesignTokens.Proofs.Json.RoundTrip

/-!
# Documents are ASCII

Inside quotes, escapes stand for all characters that are none of ASCII; outside, only numbers,
brackets, marks and blanks are written. So whatever texts a document holds, it is written in ASCII
(`isAscii_render`).
-/

namespace DesignTokens.Json

variable {c : Char} {s : List Char}

def IsAscii (s : List Char) : Prop := ∀ c ∈ s, c.toNat < 128

theorem isAscii_append {t : List Char} : IsAscii (s ++ t) ↔ IsAscii s ∧ IsAscii t :=
  List.forall_mem_append

theorem isAscii_cons : IsAscii (c :: s) ↔ c.toNat < 128 ∧ IsAscii s := List.forall_mem_cons

theorem isAscii_unitEscape (n : Nat) : IsAscii (unitEscape n) := by
  rw [unitEscape, hexDigits_four]
  have hdigit : ∀ d < 16, (Nat.digitChar d).toNat < 128 := by decide
  have hdigit (m : Nat) := hdigit (m % 16) (Nat.mod_lt m (by decide))
  simp [IsAscii, hdigit]

theorem Escape.isAscii (h : Escape c s) : IsAscii s := by
  cases h with
  | short he =>
    have hshort : ∀ p ∈ shortEscapes, IsAscii ['\\', p.1] := by simp [shortEscapes, IsAscii]
    exact hshort _ he
  | plain _ hle => exact isAscii_cons.2 ⟨Nat.lt_of_le_of_lt hle (by decide), List.forall_mem_nil _⟩
  | unit => exact isAscii_unitEscape _
  | pair => exact isAscii_append.2 ⟨isAscii_unitEscape _, isAscii_unitEscape _⟩

theorem isAscii_quoted (s : String) : IsAscii (quoted s) := by
  refine isAscii_cons.2 ⟨by decide, isAscii_append.2 ⟨fun c hc => ?_, by simp [IsAscii]⟩⟩
  obtain ⟨d, -, hc⟩ := List.mem_flatMap.1 hc
  exact (escape_escapedChar d).isAscii c hc

theorem IsNumber.isAscii (h : IsNumber s) : IsAscii s := by
  intro c hc
  have hpart := h.1 c hc
  simp only [isNumberPart, Text.isAsciiDigit, Bool.or_eq_true, Bool.and_eq_true,
    decide_eq_true_eq, beq_iff_eq] at hpart
  rcases hpart with ((((⟨-, hle⟩ | rfl) | rfl) | rfl) | rfl) | rfl
  · exact Nat.lt_of_le_of_lt hle (by decide)
  all_goals decide

theorem isAscii_newline (depth : Nat) : IsAscii (newline depth) := by
  refine isAscii_cons.2 ⟨by decide, fun c hc => ?_⟩
  rw [List.eq_of_mem_replicate hc]
  decide

theorem isAscii_memberLines (depth : Nat) {ms : List (List Char)} (h : ∀ m ∈ ms, IsAscii m) :
    IsAscii (memberLines depth ms) := by
  induction ms with
  | nil => exact List.forall_mem_nil _
  | cons m ms ih =>
    obtain ⟨hm, hms⟩ := List.forall_mem_cons.1 h
    cases ms with
    | nil =>
      rw [memberLines_singleton]
      exact isAscii_append.2 ⟨isAscii_newline depth, hm⟩
    | cons m' ms =>
      rw [memberLines_cons_cons]
      exact isAscii_append.2 ⟨isAscii_newline depth, isAscii_append.2 ⟨hm, isAscii_cons.2
        ⟨by decide, ih hms⟩⟩⟩

theorem isAscii_bracketed {opening closing : Char} (hopening : opening.toNat < 128)
    (hclosing : closing.toNat < 128) (depth : Nat) {ms : List (List Char)}
    (h : ∀ m ∈ ms, IsAscii m) : IsAscii (bracketed opening closing depth ms) := by
  cases ms with
  | nil => exact isAscii_cons.2 ⟨hopening, isAscii_cons.2 ⟨hclosing, List.forall_mem_nil _⟩⟩
  | cons m ms =>
    rw [bracketed_cons]
    exact isAscii_cons.2 ⟨hopening, isAscii_append.2 ⟨isAscii_memberLines _ h,
      isAscii_append.2 ⟨isAscii_newline depth, isAscii_cons.2 ⟨hclosing, List.forall_mem_nil _⟩⟩⟩⟩

mutual

theorem isAscii_chars : (t : Tree) → t.Written → ∀ depth, IsAscii (t.chars depth)
  | .null, _, _ => by simp [Tree.chars, IsAscii]
  | .bool true, _, _ => by simp [Tree.chars, IsAscii]
  | .bool false, _, _ => by simp [Tree.chars, IsAscii]
  | .number _, h, _ => IsNumber.isAscii h
  | .text v, _, _ => isAscii_quoted v
  | .array items, h, depth =>
    isAscii_bracketed (by decide) (by decide) depth (isAscii_itemChars items h (depth + 1))
  | .object fields, h, depth =>
    isAscii_bracketed (by decide) (by decide) depth (isAscii_fieldsChars fields h (depth + 1))

theorem isAscii_itemChars : (ts : List Tree) → ItemsWritten ts → ∀ depth,
    ∀ m ∈ itemChars depth ts, IsAscii m
  | [], _, _ => List.forall_mem_nil _
  | t :: ts, h, depth =>
    List.forall_mem_cons.2 ⟨isAscii_chars t h.1 depth, isAscii_itemChars ts h.2 depth⟩

theorem isAscii_fieldsChars : (fs : List (String × Tree)) → FieldsWritten fs → ∀ depth,
    ∀ m ∈ fieldsChars depth fs, IsAscii m
  | [], _, _ => List.forall_mem_nil _
  | (name, t) :: fs, h, depth => List.forall_mem_cons.2
    ⟨isAscii_append.2 ⟨isAscii_quoted name, isAscii_cons.2 ⟨by decide, isAscii_cons.2
      ⟨by decide, isAscii_chars t h.1 depth⟩⟩⟩, isAscii_fieldsChars fs h.2 depth⟩

end

theorem isAscii_render {t : Tree} (h : t.Written) : IsAscii t.render.toList := by
  rw [Tree.render, String.toList_ofList]
  exact isAscii_chars t h 0

end DesignTokens.Json
