/-! # Reading from the front of a list

A reader takes something from the front of a list and leaves a proper tail. `Tail r s` says that
`r` is what is left of `s`; since it is shorter, a reader that goes on with `r` terminates. Places
are given by what is left, so what a reader finds does not depend on the text before it. -/

namespace DesignTokens

variable {τ α β : Type} {r s t : List τ}

/-- Reading at least one member of `s` leaves `r`. -/
def Tail (r s : List τ) : Prop := ∃ x front, x :: (front ++ r) = s

namespace Tail

theorem one (x : τ) (r : List τ) : Tail r (x :: r) := ⟨x, [], rfl⟩

theorem suffix (h : Tail r s) : r <:+ s := by
  obtain ⟨x, front, rfl⟩ := h
  exact ⟨x :: front, rfl⟩

theorem length_lt (h : Tail r s) : r.length < s.length := by
  obtain ⟨x, front, rfl⟩ := h
  simp only [List.length_cons, List.length_append]
  omega

theorem cons (x : τ) (h : r <:+ s) : Tail r (x :: s) := by
  obtain ⟨front, rfl⟩ := h
  exact ⟨x, front, rfl⟩

theorem trans_suffix (h : r <:+ s) (h' : Tail s t) : Tail r t := by
  obtain ⟨front, rfl⟩ := h
  obtain ⟨x, front', rfl⟩ := h'
  exact ⟨x, front' ++ front, by simp⟩

theorem trans (h : Tail r s) (h' : Tail s t) : Tail r t := trans_suffix h.suffix h'

theorem suffix_trans (h : Tail r s) (h' : s <:+ t) : Tail r t := by
  obtain ⟨x, front, rfl⟩ := h
  obtain ⟨front', rfl⟩ := h'
  cases front' with
  | nil => exact ⟨x, front, rfl⟩
  | cons y ys => exact ⟨y, ys ++ x :: front, by simp⟩

theorem of_dropWhile {p : τ → Bool} {x : τ} (h : s.dropWhile p = x :: r) : Tail r s :=
  suffix_trans (one x r) (h ▸ List.dropWhile_suffix p)

theorem drop_succ (n : Nat) (x : τ) (s : List τ) : Tail (s.drop n) (x :: s) :=
  cons x (List.drop_suffix n s)

end Tail

/-- What stands in `s` before its suffix `r`. -/
def before (s r : List τ) : List τ := s.take (s.length - r.length)

theorem before_append (h : r <:+ s) : before s r ++ r = s := by
  obtain ⟨front, rfl⟩ := h
  simp [before]

/-- A value read from the front of `s`, and what is left. -/
structure Read (α : Type) (s : List τ) where
  value : α
  rest : List τ
  tail : Tail rest s

namespace Read

def map (f : α → β) (a : Read α s) : Read β s := ⟨f a.value, a.rest, a.tail⟩

/-- A value read from the front of `x :: s`, after which as much is left as `rest` is long. -/
def upTo (value : α) (x : τ) (s rest : List τ) : Read α (x :: s) :=
  ⟨value, s.drop (s.length - rest.length), .drop_succ _ x s⟩

/-- What was read after a front of `s` was read is read from `s`. -/
def after (h : Tail r s) (a : Read α r) : Read α s := ⟨a.value, a.rest, a.tail.trans h⟩

/-- Text read after a front of `s` was passed over, with that front. -/
def including (h : Tail r s) (a : Read (List τ) r) : Read (List τ) s :=
  ⟨before s r ++ a.value, a.rest, a.tail.trans h⟩

end Read

end DesignTokens
