import DesignTokens.Path.Basic
import DesignTokens.Path.Glob
import DesignTokens.Proofs.Text.Search

/-!
# Written paths

A path that was read (`wellFormed_ofString`) is read again from its text (`ofString_text`). So paths
with one text are one path (`WellFormed.text_inj`).
-/

namespace DesignTokens.Path

variable {p q : Path} {n : String} {names : List String}

/-- A name that a path keeps when it is read. -/
def IsName (n : String) : Prop := n ≠ "" ∧ n ≠ "." ∧ '/' ∉ n.toList

structure WellFormed (p : Path) : Prop where
  root : p.root ∈ ["", "/", "//"]
  names : ∀ n ∈ p.names, IsName n

/-- The names among the pieces of a text. -/
def kept (pieces : List (List Char)) : List String :=
  (pieces.map String.ofList).filter fun n => n ≠ "" ∧ n ≠ "."

theorem kept_slash (s : List Char) :
    kept (Text.splitOn '/' ('/' :: s)) = kept (Text.splitOn '/' s) := by
  rw [Text.splitOn, if_pos rfl, kept, List.map_cons, List.filter_cons_of_neg (by simp)]
  rfl

theorem ofString_eq (s : String) :
    ofString s = ⟨rootOf s.toList, kept (Text.splitOn '/' s.toList)⟩ := rfl

theorem rootOf_mem (s : List Char) : rootOf s ∈ ["", "/", "//"] := by
  unfold rootOf
  split <;> decide

theorem wellFormed_ofString (s : String) : (ofString s).WellFormed where
  root := rootOf_mem _
  names := by
    intro n hn
    obtain ⟨hmem, hn⟩ := List.mem_filter.1 hn
    obtain ⟨w, hw, rfl⟩ := List.mem_map.1 hmem
    have hslash := Text.not_mem_of_mem_splitOn hw
    rw [decide_eq_true_eq] at hn
    exact ⟨hn.1, hn.2, by rwa [String.toList_ofList]⟩

/-- The names written out. -/
def body (names : List String) : List Char := ['/'].intercalate (names.map String.toList)

theorem kept_body (h : ∀ n ∈ names, IsName n) : kept (Text.splitOn '/' (body names)) = names := by
  rw [Text.splitOn_eq]
  cases names with
  | nil => decide
  | cons n names =>
    have hslash : ∀ w ∈ (n :: names).map String.toList, '/' ∉ w :=
      List.forall_mem_map.2 fun m hm => (h m hm).2.2
    have hread : ((n :: names).map String.toList).map String.ofList = n :: names := by
      simp [List.map_map, Function.comp_def]
    rw [body, List.splitOn_intercalate '/' hslash (List.cons_ne_nil _ _), kept, hread,
      List.filter_eq_self]
    intro m hm
    rw [decide_eq_true_eq]
    exact ⟨(h m hm).1, (h m hm).2.1⟩

theorem takeWhile_body (h : ∀ n ∈ names, IsName n) : (body names).takeWhile (· == '/') = [] := by
  cases names with
  | nil => rfl
  | cons n names =>
    obtain ⟨hempty, -, hslash⟩ := h n List.mem_cons_self
    cases hn : n.toList with
    | nil => exact absurd (String.toList_inj.1 hn) hempty
    | cons c cs =>
      have hc : c ≠ '/' := fun hc => hslash (by simp [hn, hc])
      have hbody : ∃ rest, body (n :: names) = c :: rest := by
        cases names <;> simp [body, hn, List.intercalate]
      obtain ⟨rest, hbody⟩ := hbody
      rw [hbody, List.takeWhile_cons_of_neg (by simpa using hc)]

theorem ofString_of_toList (h : p.WellFormed) {s : String}
    (hs : s.toList = p.root.toList ++ body p.names) : ofString s = p := by
  obtain ⟨root, names⟩ := p
  have hkept := kept_body h.names
  have hfront (hslash : ∀ c ∈ root.toList, c == '/') :
      (root.toList ++ body names).takeWhile (· == '/') = root.toList := by
    rw [List.takeWhile_append_of_pos hslash, takeWhile_body h.names, List.append_nil]
  have hroot : root = "" ∨ root = "/" ∨ root = "//" := by simpa using h.root
  rw [ofString_eq, hs, rootOf]
  rcases hroot with rfl | rfl | rfl
  · rw [hfront (by simp)]
    exact congrArg (Path.mk "") hkept
  · rw [hfront (by simp)]
    have hread : kept (Text.splitOn '/' ("/".toList ++ body names)) = names := by
      simpa [kept_slash] using hkept
    exact congrArg (Path.mk "/") hread
  · rw [hfront (by simp)]
    have hread : kept (Text.splitOn '/' ("//".toList ++ body names)) = names := by
      simpa [kept_slash] using hkept
    exact congrArg (Path.mk "//") hread

/-- The text of a path is read as the path. -/
theorem ofString_text (h : p.WellFormed) : ofString p.text = p := by
  rw [text]
  split
  · rename_i hhere
    obtain ⟨root, names⟩ := p
    obtain ⟨rfl, rfl⟩ := hhere
    rfl
  · refine ofString_of_toList h ?_
    rw [String.toList_append, String.toList_intercalate]
    rfl

theorem WellFormed.text_inj (hp : p.WellFormed) (hq : q.WellFormed) (h : p.text = q.text) :
    p = q := by
  rw [← ofString_text hp, h, ofString_text hq]

theorem join_names (p : Path) (ns : List String) : p.join ⟨"", ns⟩ = ⟨p.root, p.names ++ ns⟩ := rfl

theorem parent_child (p : Path) (n : String) : (p.child n).parent = p := by
  simp [parent, child]

theorem WellFormed.join (h : p.WellFormed) {ns : List String} (hns : ∀ n ∈ ns, IsName n) :
    (p.join ⟨"", ns⟩).WellFormed where
  root := h.root
  names := List.forall_mem_append.2 ⟨h.names, hns⟩

theorem normalize_eq_self {s : String} (h : '\\' ∉ s.toList) : normalize s = s := by
  have hself : ∀ c ∈ s.toList, (if c = '\\' then '/' else c) = c := by
    intro c hc
    refine if_neg ?_
    rintro rfl
    exact h hc
  rw [normalize, ← String.toList_inj, String.toList_map, List.map_congr_left hself, List.map_id']

end DesignTokens.Path
