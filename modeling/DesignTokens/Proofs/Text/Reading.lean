import DesignTokens.Text.Reading
import Mathlib.Data.List.Forall2

/-!
# Readers that may fail

A reader in `Except` succeeds if each of its steps does, and fails as the first of its steps that
fails. These lemmas take a run apart step by step. `Reports` says which errors the steps can give,
in their order.
-/

namespace DesignTokens

variable {ε ε' α β : Type} {x : Except ε α} {f : α → Except ε β}

theorem ok_of_bind {b : β} (h : x >>= f = .ok b) : ∃ a, x = .ok a ∧ f a = .ok b := by
  cases x with
  | ok a => exact ⟨a, rfl, h⟩
  | error e => cases h

theorem error_of_bind {e : ε} (h : x >>= f = .error e) :
    x = .error e ∨ ∃ a, x = .ok a ∧ f a = .error e := by
  cases x with
  | ok a => exact .inr ⟨a, rfl, h⟩
  | error e' => cases h; exact .inl rfl

theorem bind_of_ok {a : α} (h : x = .ok a) (f : α → Except ε β) : x >>= f = f a := by
  rw [h]
  rfl

theorem ok_of_mapError {g : ε → ε'} {a : α} (h : x.mapError g = .ok a) : x = .ok a := by
  cases x with
  | ok a' => cases h; rfl
  | error e => cases h

theorem error_of_mapError {g : ε → ε'} {e' : ε'} (h : x.mapError g = .error e') :
    ∃ e, x = .error e ∧ g e = e' := by
  cases x with
  | ok a => cases h
  | error e => cases h; exact ⟨e, rfl, rfl⟩

/-! ### Reading the members of a list -/

section

variable {ε α β γ : Type} {R : α → β → Prop} {S : α → γ → Prop} {T : β → γ → Prop} {as : List α}
  {bs : List β}

theorem mapM_eq_ok_iff {f : α → Except ε β} :
    as.mapM f = .ok bs ↔ List.Forall₂ (fun a b => f a = .ok b) as bs := by
  induction as generalizing bs with
  | nil =>
    rw [List.mapM_nil, List.forall₂_nil_left_iff]
    exact ⟨fun h => by cases h; rfl, fun h => h ▸ rfl⟩
  | cons a as ih =>
    rw [List.mapM_cons]
    constructor
    · intro h
      obtain ⟨b, hb, h⟩ := ok_of_bind h
      obtain ⟨bs', hbs, h⟩ := ok_of_bind h
      cases h
      exact .cons hb (ih.1 hbs)
    · rintro (_ | ⟨hb, hbs⟩)
      rw [hb, ih.2 hbs]
      rfl

theorem error_of_mapM {f : α → Except ε β} {e : ε} (h : as.mapM f = .error e) :
    ∃ a ∈ as, f a = .error e := by
  induction as with
  | nil => cases h
  | cons a as ih =>
    rw [List.mapM_cons] at h
    rcases error_of_bind h with h | ⟨b, -, h⟩
    · exact ⟨a, List.mem_cons_self, h⟩
    · rcases error_of_bind h with h | ⟨bs, -, h⟩
      · obtain ⟨a', ha', he⟩ := ih h
        exact ⟨a', List.mem_cons_of_mem a ha', he⟩
      · cases h

theorem mapM_congr {f g : α → Except ε β} (h : ∀ a ∈ as, f a = g a) : as.mapM f = as.mapM g := by
  induction as with
  | nil => rfl
  | cons a as ih =>
    obtain ⟨ha, has⟩ := List.forall_mem_cons.1 h
    rw [List.mapM_cons, List.mapM_cons, ha, ih has]

theorem exists_forall₂ (h : ∀ a ∈ as, ∃ b, R a b) : ∃ bs, List.Forall₂ R as bs := by
  induction as with
  | nil => exact ⟨[], .nil⟩
  | cons a as ih =>
    obtain ⟨⟨b, hb⟩, has⟩ := List.forall_mem_cons.1 h
    obtain ⟨bs, hbs⟩ := ih has
    exact ⟨b :: bs, .cons hb hbs⟩

theorem exists_of_forall₂ (h : List.Forall₂ R as bs) : ∀ a ∈ as, ∃ b ∈ bs, R a b := by
  induction h with
  | nil => exact List.forall_mem_nil _
  | cons hab _ ih =>
    refine List.forall_mem_cons.2 ⟨⟨_, List.mem_cons_self, hab⟩, fun a ha => ?_⟩
    obtain ⟨b, hb, hab⟩ := ih a ha
    exact ⟨b, List.mem_cons_of_mem _ hb, hab⟩

/-- What is read of each member in one way can be read in another, with related results. -/
theorem forall₂_transfer (h : List.Forall₂ R as bs)
    (hR : ∀ a b, R a b → ∃ c, S a c ∧ T b c) :
    ∃ cs, List.Forall₂ S as cs ∧ List.Forall₂ T bs cs := by
  induction h with
  | nil => exact ⟨[], .nil, .nil⟩
  | cons hab _ ih =>
    obtain ⟨c, hS, hT⟩ := hR _ _ hab
    obtain ⟨cs, hcs, hbs⟩ := ih
    exact ⟨c :: cs, .cons hS hcs, .cons hT hbs⟩

theorem forall₂_iff_forall {p : α → Prop} {R' : α → β → Prop} (h : List.Forall₂ R as bs)
    (hp : ∀ a ∈ as, ∀ b, R a b → (R' a b ↔ p a)) : List.Forall₂ R' as bs ↔ ∀ a ∈ as, p a := by
  induction h with
  | nil => exact ⟨fun _ => List.forall_mem_nil _, fun _ => .nil⟩
  | cons hab _ ih =>
    obtain ⟨ha, has⟩ := List.forall_mem_cons.1 hp
    rw [List.forall₂_cons, List.forall_mem_cons, ha _ hab, ih has]

end

/-! ### First errors -/

section

variable {errors errors' : List ε} {e : ε}

/-- The check fails with the first of the errors, and succeeds if there are none. -/
def Reports (x : Except ε α) (errors : List ε) : Prop :=
  match x with
  | .ok _ => errors = []
  | .error e => errors.head? = some e

/-- The error of a check that can have only one. -/
def errorsOf : Except ε α → List ε
  | .ok _ => []
  | .error e => [e]

namespace Reports

theorem errorsOf (x : Except ε α) : Reports x (errorsOf x) := by cases x <;> rfl

theorem error_iff (h : Reports x errors) : x = .error e ↔ errors.head? = some e := by
  cases x with
  | ok a =>
    obtain rfl : errors = [] := h
    exact ⟨nofun, nofun⟩
  | error e' =>
    have hhead : errors.head? = some e' := h
    rw [hhead, Except.error.injEq, Option.some.injEq]

/-- The errors of the first step come before those of the next one. -/
theorem bind (hx : Reports x errors) (hf : ∀ a, x = .ok a → Reports (f a) errors') :
    Reports (x >>= f) (errors ++ errors') := by
  cases x with
  | ok a =>
    obtain rfl : errors = [] := hx
    exact hf a rfl
  | error e =>
    have hhead : errors.head? = some e := hx
    show (errors ++ errors').head? = some e
    rw [List.head?_append, hhead]
    rfl

theorem map (g : α → β) (hx : Reports x errors) : Reports (x >>= fun a => pure (g a)) errors := by
  rw [← List.append_nil errors]
  exact hx.bind fun _ _ => rfl

theorem mapM {errors : α → List ε} (h : ∀ a, Reports (f a) (errors a)) (as : List α) :
    Reports (as.mapM f) (as.flatMap errors) := by
  induction as with
  | nil => rfl
  | cons a as ih =>
    rw [List.mapM_cons, List.flatMap_cons]
    exact (h a).bind fun b _ => ih.map (b :: ·)

end Reports

end

/-! ### The rest of a text -/

variable {τ : Type} {r s : List τ}

theorem before_append_left (front r : List τ) : before (front ++ r) r = front := by
  simp [before]

theorem including_append {h : Tail r s} {b : Read (List τ) r} {t : List τ}
    (hb : b.value ++ t = r) : (b.including h).value ++ t = s := by
  show before s r ++ b.value ++ t = s
  rw [List.append_assoc, hb, before_append h.suffix]

/-- What stands in a tail begins some way on. -/
theorem Tail.drop_of_infix {x : List τ} (h : Tail r s) (hx : x <:+: r) :
    ∃ n, 0 < n ∧ x <+: s.drop n := by
  obtain ⟨y, front, rfl⟩ := h
  obtain ⟨front', back, rfl⟩ := hx
  refine ⟨(y :: (front ++ front')).length, by simp, back, ?_⟩
  rw [show y :: (front ++ (front' ++ x ++ back)) = y :: (front ++ front') ++ (x ++ back) by simp,
    List.drop_left]

/-- A run ends where the next member, if there is one, is none of it. -/
theorem takeWhile_append_of_head {p : τ → Bool} (hr : ∀ c ∈ r, p c) (hs : s.head?.all (!p ·)) :
    (r ++ s).takeWhile p = r ∧ (r ++ s).dropWhile p = s := by
  rw [List.takeWhile_append_of_pos hr, List.dropWhile_append_of_pos hr]
  cases s with
  | nil => simp
  | cons c s =>
    have hc : ¬ p c := by simpa using hs
    rw [List.takeWhile_cons_of_neg hc, List.dropWhile_cons_of_neg hc, List.append_nil]
    exact ⟨rfl, rfl⟩

theorem before_isPrefix (s r : List τ) : before s r <+: s := List.take_prefix ..

end DesignTokens
