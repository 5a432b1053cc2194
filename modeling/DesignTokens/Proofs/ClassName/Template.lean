import DesignTokens.ClassName.Extract
import DesignTokens.Proofs.Text.Words

/-!
# Class names of templates

`filled` is a template with texts in the places of its interpolations. A static word that touches
an interpolation is only a part of what is rendered there, and it is extracted all the same
(`not_template_words`). `template_words` says which class names are rendered whatever the texts
are: those extracted ones that are set off from the interpolations (`SetOff`).
-/

namespace DesignTokens.Script

open Text (Isolates isBlank)

theorem mem_classWords {c s : String} : c ∈ classWords s ↔ c.toList ∈ Text.words s.toList := by
  rw [classWords, List.mem_map]
  constructor
  · rintro ⟨w, hw, rfl⟩
    rwa [String.toList_ofList]
  · exact fun hw => ⟨c.toList, hw, String.ofList_toList⟩

theorem classWords_append_space (s t : String) :
    classWords (s ++ " " ++ t) = classWords s ++ classWords t := by
  have hsplit : (s ++ " " ++ t).toList = s.toList ++ ' ' :: t.toList := by simp
  rw [classWords, hsplit, Text.words_append_blank _ (by decide), List.map_append]
  rfl

theorem classWords_intercalate (ss : List String) :
    classWords (" ".intercalate ss) = ss.flatMap classWords := by
  induction ss with
  | nil => rfl
  | cons s ss ih =>
    cases ss with
    | nil => simp
    | cons t ss =>
      rw [String.intercalate_cons_of_ne_nil (List.cons_ne_nil t ss), classWords_append_space, ih]
      rfl

/-- A template's static pieces with a text between neighbours. -/
def filled : List String → List String → String
  | q :: qs, t :: ts => q ++ t ++ filled qs ts
  | q :: _, [] => q
  | [], _ => ""

variable {after before qs texts : List String} {c : String}

end DesignTokens.Script
