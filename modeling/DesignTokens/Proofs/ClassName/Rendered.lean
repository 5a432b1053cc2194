import DesignTokens.Proofs.ClassName.Template

/-!
# What expressions come to

`Denotes e o` says that `e` can come to the outcome `o` when it is rendered. Conditions and what is
not looked into can turn out either way, so an expression has many outcomes, and at least one
(`exists_denotes`). Where no template is interpolated, no outcome has a class name that is not
extracted (`rendered_extracted`).
-/

namespace DesignTokens.Script

/-- What is rendered: a text, and whether it counts as true. -/
structure Outcome where
  text : String
  truthy : Bool

/-- A text counts as true unless it is empty. -/
def Outcome.ofText (s : String) : Outcome := ⟨s, !s.isEmpty⟩

/-- The texts of the outcomes that count as true, with spaces between them. -/
def joinedText (os : List Outcome) : String := " ".intercalate ((os.filter (·.truthy)).map (·.text))

mutual

inductive Denotes : Expr → Outcome → Prop
  | string (v : String) : Denotes (.string v) (.ofText v)
  /-- Anything can be interpolated. -/
  | template {qs texts : List String} {es : List Expr} (htexts : texts.length = es.length) :
    Denotes (.template qs es) (.ofText (filled qs texts))
  | call (callee : String) {args : List Expr} {os : List Outcome} (hargs : DenoteAll args os) :
    Denotes (.call callee args) (.ofText (joinedText os))
  /-- An array has the text of its members; it may count as true even if that is empty. -/
  | array {es : List (Option Expr)} {os : List Outcome} (hes : MembersDenote es os) (b : Bool) :
    Denotes (.array es) ⟨joinedText os, b⟩
  | andRight {l r : Expr} {a o : Outcome} (hl : Denotes l a) (ha : a.truthy) (hr : Denotes r o) :
    Denotes (.logical .and l r) o
  | andLeft {l r : Expr} {o : Outcome} (hl : Denotes l o) (ho : o.truthy = false) :
    Denotes (.logical .and l r) o
  | orLeft {l r : Expr} {o : Outcome} (hl : Denotes l o) (ho : o.truthy) :
    Denotes (.logical .or l r) o
  | orRight {l r : Expr} {a o : Outcome} (hl : Denotes l a) (ha : a.truthy = false)
    (hr : Denotes r o) : Denotes (.logical .or l r) o
  | nullishLeft {l r : Expr} {o : Outcome} (hl : Denotes l o) : Denotes (.logical .nullish l r) o
  | nullishRight {l r : Expr} {o : Outcome} (hr : Denotes r o) : Denotes (.logical .nullish l r) o
  | consequent {t c a : Expr} {o : Outcome} (hc : Denotes c o) : Denotes (.conditional t c a) o
  | alternate {t c a : Expr} {o : Outcome} (ha : Denotes a o) : Denotes (.conditional t c a) o
  /-- What is not looked into may count as true or not, but names no class. -/
  | other (kind source : String) {o : Outcome} (ho : classWords o.text = []) :
    Denotes (.other kind source) o

/-- The outcomes of arguments, one for each. -/
inductive DenoteAll : List Expr → List Outcome → Prop
  | nil : DenoteAll [] []
  | cons {e : Expr} {es : List Expr} {o : Outcome} {os : List Outcome} (he : Denotes e o)
    (hes : DenoteAll es os) : DenoteAll (e :: es) (o :: os)

/-- The outcomes of the members of an array; a hole has none. -/
inductive MembersDenote : List (Option Expr) → List Outcome → Prop
  | nil : MembersDenote [] []
  | hole {es : List (Option Expr)} {os : List Outcome} (hes : MembersDenote es os) :
    MembersDenote (none :: es) os
  | member {e : Expr} {es : List (Option Expr)} {o : Outcome} {os : List Outcome}
    (he : Denotes e o) (hes : MembersDenote es os) : MembersDenote (some e :: es) (o :: os)

end

mutual

/-- No template in the expression has interpolations. -/
def Expr.Uninterpolated : Expr → Prop
  | .string _ => True
  | .template _ es => es = []
  | .call _ args => ArgumentsUninterpolated args
  | .array es => MembersUninterpolated es
  | .logical _ l r => l.Uninterpolated ∧ r.Uninterpolated
  | .conditional t c a => t.Uninterpolated ∧ c.Uninterpolated ∧ a.Uninterpolated
  | .other _ _ => True
termination_by structural e => e

def ArgumentsUninterpolated : List Expr → Prop
  | [] => True
  | e :: es => e.Uninterpolated ∧ ArgumentsUninterpolated es
termination_by structural es => es

def MembersUninterpolated : List (Option Expr) → Prop
  | [] => True
  | e :: es => ValueUninterpolated e ∧ MembersUninterpolated es
termination_by structural es => es

def ValueUninterpolated : Option Expr → Prop
  | none => True
  | some e => e.Uninterpolated
termination_by structural e => e

end

/-! ### Every expression has an outcome -/

mutual

theorem exists_denotes : ∀ e : Expr, ∃ o, Denotes e o
  | .string v => ⟨_, .string v⟩
  | .template _ es =>
    have htexts : (List.replicate es.length "").length = es.length := List.length_replicate
    ⟨_, .template htexts⟩
  | .call f args =>
    let ⟨_, hargs⟩ := exists_denoteAll args
    ⟨_, .call f hargs⟩
  | .array es =>
    let ⟨_, hes⟩ := exists_membersDenote es
    ⟨_, .array hes true⟩
  | .logical op l r => by
    obtain ⟨a, hl⟩ := exists_denotes l
    obtain ⟨o, hr⟩ := exists_denotes r
    cases op with
    | nullish => exact ⟨a, .nullishLeft hl⟩
    | and =>
      cases ha : a.truthy with
      | true => exact ⟨o, .andRight hl ha hr⟩
      | false => exact ⟨a, .andLeft hl ha⟩
    | or =>
      cases ha : a.truthy with
      | true => exact ⟨a, .orLeft hl ha⟩
      | false => exact ⟨o, .orRight hl ha hr⟩
  | .conditional _ c _ =>
    let ⟨_, hc⟩ := exists_denotes c
    ⟨_, .consequent hc⟩
  | .other kind source => ⟨⟨"", false⟩, .other kind source rfl⟩

theorem exists_denoteAll : ∀ es : List Expr, ∃ os, DenoteAll es os
  | [] => ⟨[], .nil⟩
  | e :: es =>
    let ⟨_, he⟩ := exists_denotes e
    let ⟨_, hes⟩ := exists_denoteAll es
    ⟨_, .cons he hes⟩

theorem exists_membersDenote : ∀ es : List (Option Expr), ∃ os, MembersDenote es os
  | [] => ⟨[], .nil⟩
  | none :: es =>
    let ⟨_, hes⟩ := exists_membersDenote es
    ⟨_, .hole hes⟩
  | some e :: es =>
    let ⟨_, he⟩ := exists_denotes e
    let ⟨_, hes⟩ := exists_membersDenote es
    ⟨_, .member he hes⟩

end

/-! ### Rendered class names are extracted -/

variable {e : Expr} {o : Outcome} {os : List Outcome} {names : List String}

theorem classWords_joinedText_subset (h : ∀ o ∈ os, classWords o.text ⊆ names) :
    classWords (joinedText os) ⊆ names := by
  rw [joinedText, classWords_intercalate, List.flatMap_map]
  intro c hc
  obtain ⟨o, ho, hc⟩ := List.mem_flatMap.1 hc
  exact h o (List.mem_filter.1 ho).1 hc

mutual

theorem Denotes.subset {e : Expr} {o : Outcome} (h : Denotes e o) (he : e.Uninterpolated) :
    classWords o.text ⊆ e.classNames := by
  cases h with
  | string v => exact List.Subset.refl _
  | @template qs texts es htexts =>
    -- nothing is interpolated, so only the first static piece is rendered
    rw [Expr.Uninterpolated] at he
    subst he
    obtain rfl := List.eq_nil_of_length_eq_zero htexts
    cases qs with
    | nil => exact List.nil_subset _
    | cons q qs => exact List.subset_append_left ..
  | call _ hargs => exact classWords_joinedText_subset (hargs.subset he)
  | array hes _ => exact classWords_joinedText_subset (hes.subset he)
  | andRight _ _ hr => exact List.subset_append_of_subset_left _ (hr.subset he.2)
  | andLeft hl _ => exact List.subset_append_of_subset_right _ (hl.subset he.1)
  | orLeft hl _ => exact List.subset_append_of_subset_right _ (hl.subset he.1)
  | orRight _ _ hr => exact List.subset_append_of_subset_left _ (hr.subset he.2)
  | nullishLeft hl => exact List.subset_append_of_subset_right _ (hl.subset he.1)
  | nullishRight hr => exact List.subset_append_of_subset_left _ (hr.subset he.2)
  | consequent hc => exact List.subset_append_of_subset_left _ (hc.subset he.2.1)
  | alternate ha => exact List.subset_append_of_subset_right _ (ha.subset he.2.2)
  | other _ _ ho =>
    rw [ho]
    exact List.nil_subset _

theorem DenoteAll.subset {es : List Expr} {os : List Outcome} (h : DenoteAll es os)
    (hes : ArgumentsUninterpolated es) : ∀ o ∈ os, classWords o.text ⊆ argumentClassNames es := by
  cases h with
  | nil => exact List.forall_mem_nil _
  | cons he htail =>
    refine List.forall_mem_cons.2 ⟨List.subset_append_of_subset_left _ (he.subset hes.1), ?_⟩
    exact fun o ho => List.subset_append_of_subset_right _ (htail.subset hes.2 o ho)

theorem MembersDenote.subset {es : List (Option Expr)} {os : List Outcome}
    (h : MembersDenote es os) (hes : MembersUninterpolated es) :
    ∀ o ∈ os, classWords o.text ⊆ memberClassNames es := by
  cases h with
  | nil => exact List.forall_mem_nil _
  | hole htail => exact htail.subset hes.2
  | member he htail =>
    refine List.forall_mem_cons.2 ⟨List.subset_append_of_subset_left _ (he.subset hes.1), ?_⟩
    exact fun o ho => List.subset_append_of_subset_right _ (htail.subset hes.2 o ho)

end

/-- Whatever conditions turn out to be, every class name in the rendered text is extracted. -/
theorem rendered_extracted (he : e.Uninterpolated) (h : Denotes e o) :
    ∀ c ∈ classWords o.text, c ∈ e.classNames :=
  h.subset he

/-- A call with a guarded array, in which a hole stands before a template. -/
def guardedArray : Expr :=
  .call "cn" [.string "flex p-2", .logical .and (.other "identifier" "on")
    (.array [none, some (.template [" m-1 "] []),
      some (.logical .or (.string "") (.string "gap-2"))])]

theorem rendered_extracted_guardedArray :
    guardedArray.Uninterpolated ∧
      Denotes guardedArray (.ofText "flex p-2  m-1  gap-2") ∧
      ∀ c ∈ ["flex", "p-2", "m-1", "gap-2"], c ∈ guardedArray.classNames := by
  have hplain : guardedArray.Uninterpolated :=
    ⟨trivial, ⟨trivial, trivial, rfl, ⟨trivial, trivial⟩, trivial⟩, trivial⟩
  have htemplate : Denotes (.template [" m-1 "] []) (.ofText (filled [" m-1 "] [])) :=
    .template rfl
  have hgap : Denotes (.logical .or (.string "") (.string "gap-2")) (.ofText "gap-2") :=
    .orRight (.string "") rfl (.string "gap-2")
  have harray := Denotes.array (.hole (.member htemplate (.member hgap .nil))) true
  have hguarded := Denotes.andRight (.other "identifier" "on" (o := ⟨"", true⟩) rfl) rfl harray
  have hcall := Denotes.call "cn" (.cons (.string "flex p-2") (.cons hguarded .nil))
  exact ⟨hplain, hcall, rendered_extracted hplain hcall⟩

end DesignTokens.Script
