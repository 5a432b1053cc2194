import DesignTokens.Plan.Css
import DesignTokens.Proofs.Plan.Define

/-!
# Reading a style sheet back

The blocks of a style sheet are found again by its lines, whatever the keys of the tokens are, as
long as no line feed is in them: a declaration begins with blanks, so it is no line of the frame,
and no value has a colon, so a line is split at its last one. What is read are the custom properties
of the plan, with their dark values from one block and their light values from the other
(`css_decodes`).
-/

namespace DesignTokens.Plan

variable {p : Plan} {v : Value} {name value line : String} {ls ds front rest : List String}

/-! ### Lines -/

def lines (s : String) : List String := (s.toList.splitOn '\n').map String.ofList

/-- The text is no longer than a line. -/
def OneLine (s : String) : Prop := '\n' ∉ s.toList

instance (s : String) : Decidable (OneLine s) := inferInstanceAs (Decidable ('\n' ∉ s.toList))

@[simp]
theorem oneLine_append {s t : String} : OneLine (s ++ t) ↔ OneLine s ∧ OneLine t := by
  simp [OneLine, not_or]

theorem lines_of_oneLine {s : String} (h : OneLine s) : lines s = [s] := by
  rw [lines, List.splitOn_eq_singleton h, List.map_singleton, String.ofList_toList]

theorem lines_append (s t : String) : lines (s ++ "\n" ++ t) = lines s ++ lines t := by
  have hsplit : (s ++ "\n" ++ t).toList = s.toList ++ '\n' :: t.toList := by simp
  rw [lines, hsplit, List.splitOn_append_cons_self, List.map_append]
  rfl

/-- An empty line stands for no lines. -/
def orEmptyLine (ls : List String) : List String := if ls = [] then [""] else ls

theorem lines_intercalate (h : ∀ l ∈ ls, OneLine l) :
    lines ("\n".intercalate ls) = orEmptyLine ls := by
  by_cases hls : ls = []
  · rw [hls]
    rfl
  · rw [orEmptyLine, if_neg hls, lines, String.toList_intercalate]
    have hsplit : (['\n'].intercalate (ls.map String.toList)).splitOn '\n' = ls.map String.toList :=
      List.splitOn_intercalate '\n' (List.forall_mem_map.2 h) (by simpa using hls)
    rw [show "\n".toList = ['\n'] from rfl, hsplit]
    simp

/-! ### Blocks -/

/-- The lines after the first one that is `line`. -/
def linesAfter (line : String) (ls : List String) : List String :=
  (ls.dropWhile (· != line)).tail

/-- The lines before the first closing brace, without the empty ones. -/
def linesInside (ls : List String) : List String := (ls.takeWhile (· != "\x7d")).filter (· != "")

def darkLines (s : String) : List String :=
  linesInside (linesAfter "  color-scheme: dark;" (lines s))

def lightLines (s : String) : List String :=
  linesInside (linesAfter "  color-scheme: light;"
    (linesAfter "[data-theme=\"light\"] \x7b" (lines s)))

theorem linesAfter_append (h : line ∉ front) : linesAfter line (front ++ line :: rest) = rest := by
  have hfront : ∀ l ∈ front, (l != line) = true := fun l hl => bne_iff_ne.2 fun heq => h (heq ▸ hl)
  rw [linesAfter, List.dropWhile_append_of_pos hfront, List.dropWhile_cons_of_neg (by simp),
    List.tail_cons]

theorem linesInside_append (h : "\x7d" ∉ ls) :
    linesInside (ls ++ "\x7d" :: rest) = ls.filter (· != "") := by
  have hls : ∀ l ∈ ls, (l != "\x7d") = true := fun l hl => bne_iff_ne.2 fun heq => h (heq ▸ hl)
  rw [linesInside, List.takeWhile_append_of_pos hls, List.takeWhile_cons_of_neg (by simp),
    List.append_nil]

theorem lines_block {selector scheme : String} (hselector : OneLine (selector ++ " \x7b"))
    (hscheme : OneLine ("  color-scheme: " ++ scheme ++ ";")) (hds : ∀ d ∈ ds, OneLine d)
    (s : String) : lines (block selector scheme ds ++ s) =
      (selector ++ " \x7b") :: ("  color-scheme: " ++ scheme ++ ";") ::
        (orEmptyLine ds ++ "\x7d" :: lines s) := by
  have hblock : block selector scheme ds ++ s = (selector ++ " \x7b") ++ "\n" ++
      (("  color-scheme: " ++ scheme ++ ";") ++ "\n" ++
        ("\n".intercalate ds ++ "\n" ++ ("\x7d" ++ "\n" ++ s))) := by
    simp [block, ← String.toList_inj]
  rw [hblock, lines_append, lines_append, lines_append, lines_append, lines_of_oneLine hselector,
    lines_of_oneLine hscheme, lines_intercalate hds, lines_of_oneLine (s := "\x7d") (by decide)]
  rfl

/-- The text begins with a blank, as declarations do. -/
def Indented (s : String) : Prop := s.toList.head? = some ' '

instance (s : String) : Decidable (Indented s) :=
  inferInstanceAs (Decidable (s.toList.head? = some ' '))

theorem indented_declaration (name value : String) : Indented (declaration name value) := by
  simp [Indented, declaration]

theorem not_mem_orEmptyLine (hds : ∀ d ∈ ds, Indented d) (hempty : line ≠ "")
    (hline : ¬Indented line) : line ∉ orEmptyLine ds := by
  unfold orEmptyLine
  split
  · rwa [List.mem_singleton]
  · exact fun hmem => hline (hds line hmem)

theorem filter_orEmptyLine (hds : ∀ d ∈ ds, Indented d) :
    (orEmptyLine ds).filter (· != "") = ds := by
  unfold orEmptyLine
  split
  · rename_i hnil
    rw [hnil]
    rfl
  · refine List.filter_eq_self.2 fun d hd => bne_iff_ne.2 ?_
    rintro rfl
    exact absurd (hds "" hd) (by decide)

/-! ### Declarations -/

/-- The text before the last colon with a blank behind it, and the text after both. -/
def splitLast? : List Char → Option (List Char × List Char)
  | [] => none
  | c :: s =>
    match splitLast? s with
    | some (front, back) => some (c :: front, back)
    | none => if [':', ' '].isPrefixOf (c :: s) then some ([], s.tail) else none

/-- The name and the value that a line declares. -/
def declared? (line : String) : Option (String × String) :=
  match line.toList with
  | ' ' :: ' ' :: s =>
    if s.getLast? = some ';' then
      (splitLast? s.dropLast).map fun e => (String.ofList e.1, String.ofList e.2)
    else none
  | _ => none

theorem splitLast?_eq_none {s : List Char} (h : ':' ∉ s) : splitLast? s = none := by
  induction s with
  | nil => rfl
  | cons c s ih =>
    rw [List.mem_cons, not_or] at h
    rw [splitLast?, ih h.2]
    simp [h.1]

theorem splitLast?_append {back : List Char} (h : ':' ∉ back) (front : List Char) :
    splitLast? (front ++ ':' :: ' ' :: back) = some (front, back) := by
  induction front with
  | nil =>
    have hback : splitLast? (' ' :: back) = none := splitLast?_eq_none (by simp [h])
    rw [List.nil_append, splitLast?, hback]
    simp
  | cons c front ih =>
    rw [List.cons_append, splitLast?, ih]

theorem declared?_declaration (h : ':' ∉ value.toList) (name : String) :
    declared? (declaration name value) = some (name, value) := by
  have hline : (declaration name value).toList =
      ' ' :: ' ' :: (name.toList ++ ':' :: ' ' :: value.toList ++ [';']) := by
    simp [declaration]
  unfold declared?
  simp only [hline]
  rw [List.getLast?_append, List.dropLast_concat, splitLast?_append h]
  simp

/-! ### Custom properties that can be read -/

/-- The name and the values stand on one line, and no value has a colon. -/
structure Readable (x : Variable) : Prop where
  name : OneLine x.name
  dark : OneLine x.dark ∧ ':' ∉ x.dark.toList
  light : ∀ l, x.light = some l → OneLine l ∧ ':' ∉ l.toList

/-- No key, no name of a group and no value has a line feed. -/
structure InLines (p : Plan) : Prop where
  space : ∀ e ∈ p.space, OneLine e.1 ∧ OneLine e.2
  radius : ∀ e ∈ p.radius, OneLine e.1 ∧ OneLine e.2
  color : ∀ g ∈ p.color, OneLine g.1 ∧
    ∀ e ∈ g.2, OneLine e.1 ∧ OneLine e.2.dark ∧ OneLine e.2.light

theorem not_colon_of_isLength {s : List Char} (h : isLength s) : ':' ∉ s :=
  not_mem_of_isLength h (by decide) (by decide) (by decide)

theorem not_colon_of_isHexColor {s : List Char} (h : isHexColor s) : ':' ∉ s :=
  not_mem_of_isHexColor h (by decide) (by decide) (by decide)

theorem readable_lengthVariable {group : String} {e : String × String} (hgroup : OneLine group)
    (he : OneLine e.1 ∧ OneLine e.2) (hlength : isLength e.2.toList) :
    Readable (lengthVariable group e) where
  name := by
    have hdashes : OneLine "--brand-" ∧ OneLine "-" := by decide
    show OneLine ("--brand-" ++ group ++ "-" ++ e.1)
    simp [hdashes, hgroup, he]
  dark := ⟨he.2, not_colon_of_isLength hlength⟩
  light := nofun

theorem readable_colorVariable {group : String} {e : String × ColorPair} (hgroup : OneLine group)
    (he : OneLine e.1 ∧ OneLine e.2.dark ∧ OneLine e.2.light) (hpair : ValidPair e.2) :
    Readable (colorVariable group e) where
  name := by
    have hdashes : OneLine "--brand-color-" ∧ OneLine "-" := by decide
    show OneLine ("--brand-color-" ++ group ++ "-" ++ e.1)
    simp [hdashes, hgroup, he]
  dark := ⟨he.2.1, not_colon_of_isHexColor hpair.dark⟩
  light := by
    rintro l ⟨⟩
    exact ⟨he.2.2, not_colon_of_isHexColor hpair.light⟩

theorem readable_customProperties (hp : p.Valid) (hlines : p.InLines) :
    ∀ x ∈ p.customProperties, Readable x := by
  intro x hx
  rw [(customProperties_perm p).mem_iff, List.mem_append, List.mem_append] at hx
  rcases hx with (hx | hx) | hx
  · obtain ⟨e, he, rfl⟩ := List.mem_map.1 hx
    exact readable_lengthVariable (by decide) (hlines.space e he) (hp.space e he)
  · obtain ⟨e, he, rfl⟩ := List.mem_map.1 hx
    exact readable_lengthVariable (by decide) (hlines.radius e he) (hp.radius e he)
  · obtain ⟨g, hg, hx⟩ := List.mem_flatMap.1 hx
    obtain ⟨e, he, rfl⟩ := List.mem_map.1 hx
    obtain ⟨hgroup, htokens⟩ := hlines.color g hg
    exact readable_colorVariable hgroup (htokens e he) (hp.color g hg e he)

/-! ### The blocks of a plan -/

theorem indented_of_mem_darkDeclarations {xs : List Variable} :
    ∀ d ∈ darkDeclarations xs, Indented d := by
  intro d hd
  obtain ⟨x, -, rfl⟩ := List.mem_map.1 hd
  exact indented_declaration ..

theorem indented_of_mem_lightDeclarations {xs : List Variable} :
    ∀ d ∈ lightDeclarations xs, Indented d := by
  intro d hd
  obtain ⟨x, -, hx⟩ := List.mem_filterMap.1 hd
  obtain ⟨l, -, rfl⟩ := Option.map_eq_some_iff.1 hx
  exact indented_declaration ..

theorem oneLine_declaration (hname : OneLine name) (hvalue : OneLine value) :
    OneLine (declaration name value) := by
  have hmarks : OneLine "  " ∧ OneLine ": " ∧ OneLine ";" := by decide
  simp [declaration, hmarks, hname, hvalue]

theorem lines_css (hp : ∀ x ∈ p.customProperties, Readable x) :
    lines p.css = ["@import \"tailwindcss\";", "", ":root \x7b"] ++ "  color-scheme: dark;" ::
      (orEmptyLine (darkDeclarations p.customProperties) ++ "\x7d" :: "" ::
        "[data-theme=\"light\"] \x7b" :: "  color-scheme: light;" ::
          (orEmptyLine (lightDeclarations p.customProperties) ++ ["\x7d", ""])) := by
  have hdark : ∀ d ∈ darkDeclarations p.customProperties, OneLine d := by
    intro d hd
    obtain ⟨x, hx, rfl⟩ := List.mem_map.1 hd
    exact oneLine_declaration (hp x hx).name (hp x hx).dark.1
  have hlight : ∀ d ∈ lightDeclarations p.customProperties, OneLine d := by
    intro d hd
    obtain ⟨x, hx, hd⟩ := List.mem_filterMap.1 hd
    obtain ⟨l, hl, rfl⟩ := Option.map_eq_some_iff.1 hd
    exact oneLine_declaration (hp x hx).name ((hp x hx).light l hl).1
  have hframe (dark light : String) : "@import \"tailwindcss\";\n\n" ++ dark ++ "\n" ++ light =
      "@import \"tailwindcss\";" ++ "\n" ++
        ("" ++ "\n" ++ (dark ++ ("" ++ "\n" ++ (light ++ "")))) := by
    have himport : "@import \"tailwindcss\";\n\n" =
        "@import \"tailwindcss\";" ++ "\n" ++ "\n" := rfl
    simp only [himport, String.append_assoc, String.empty_append, String.append_empty]
  have hempty : lines "" = [""] := lines_of_oneLine (by decide)
  have hfirst : lines "@import \"tailwindcss\";" = ["@import \"tailwindcss\";"] :=
    lines_of_oneLine (by decide)
  refine (congrArg lines (hframe _ _)).trans ?_
  rw [lines_append, hfirst, lines_append, hempty,
    lines_block (by decide) (by decide) hdark, lines_append, hempty,
    lines_block (by decide) (by decide) hlight, hempty]
  rfl

theorem darkLines_css (hp : ∀ x ∈ p.customProperties, Readable x) :
    darkLines p.css = darkDeclarations p.customProperties := by
  rw [darkLines, lines_css hp, linesAfter_append (by decide), linesInside_append,
    filter_orEmptyLine indented_of_mem_darkDeclarations]
  exact not_mem_orEmptyLine indented_of_mem_darkDeclarations (by decide) (by decide)

theorem lightLines_css (hp : ∀ x ∈ p.customProperties, Readable x) :
    lightLines p.css = lightDeclarations p.customProperties := by
  have hfront : "[data-theme=\"light\"] \x7b" ∉
      ["@import \"tailwindcss\";", "", ":root \x7b", "  color-scheme: dark;"] ++
        orEmptyLine (darkDeclarations p.customProperties) ++ ["\x7d", ""] := by
    rw [List.mem_append, List.mem_append, not_or, not_or]
    refine ⟨⟨by decide, ?_⟩, by decide⟩
    exact not_mem_orEmptyLine indented_of_mem_darkDeclarations (by decide) (by decide)
  have hlines : lines p.css =
      ["@import \"tailwindcss\";", "", ":root \x7b", "  color-scheme: dark;"] ++
        orEmptyLine (darkDeclarations p.customProperties) ++ ["\x7d", ""] ++
          "[data-theme=\"light\"] \x7b" :: ([] ++ "  color-scheme: light;" ::
            (orEmptyLine (lightDeclarations p.customProperties) ++ ["\x7d", ""])) := by
    rw [lines_css hp]
    simp only [List.append_assoc, List.cons_append, List.nil_append]
  rw [lightLines, hlines, linesAfter_append hfront, linesAfter_append (by decide),
    linesInside_append, filter_orEmptyLine indented_of_mem_lightDeclarations]
  exact not_mem_orEmptyLine indented_of_mem_lightDeclarations (by decide) (by decide)

/-- The style sheet of a defined plan is read back as its custom properties. -/
theorem css_decodes (h : define v = .ok p) (hlines : p.InLines) :
    (darkLines p.css).map declared? = p.customProperties.map (fun x => some (x.name, x.dark)) ∧
      (lightLines p.css).map declared? =
        p.customProperties.filterMap (fun x => x.light.map fun l => some (x.name, l)) ∧
      p.customProperties.Perm
        (p.space.map (lengthVariable "space") ++ p.radius.map (lengthVariable "radius") ++
          p.color.flatMap fun g => g.2.map (colorVariable g.1)) := by
  have hp := readable_customProperties (of_define h).2 hlines
  refine ⟨?_, ?_, customProperties_perm p⟩
  · rw [darkLines_css hp, darkDeclarations, List.map_map]
    exact List.map_congr_left fun x hx => declared?_declaration (hp x hx).dark.2 x.name
  · rw [lightLines_css hp, lightDeclarations, List.map_filterMap]
    refine List.filterMap_congr fun x hx => ?_
    rw [Option.map_map]
    cases hl : x.light with
    | none => rfl
    | some l => exact congrArg some (declared?_declaration ((hp x hx).light l hl).2 x.name)

/-- A length and a color whose names have the marks of the style sheet in them. -/
def punctuated : Plan :=
  ⟨[("a: b;\x7d", "1rem")], [], [("\x7d", [("dark: #fff", ⟨"#000", "#fff"⟩)])]⟩

theorem css_decodes_punctuated : define punctuated.toValue = .ok punctuated ∧
    punctuated.InLines ∧ (darkLines punctuated.css).map declared? =
      [some ("--brand-space-a: b;\x7d", "1rem"), some ("--brand-color-\x7d-dark: #fff", "#000")] ∧
    (lightLines punctuated.css).map declared? =
      [some ("--brand-color-\x7d-dark: #fff", "#fff")] := by
  have hdefine : define punctuated.toValue = .ok punctuated :=
    define_toValue ⟨⟨by decide, by decide, by decide, by decide⟩, by decide, by decide, by decide⟩
  have hlines : punctuated.InLines := ⟨by decide, by decide, by decide⟩
  have hproperties : punctuated.customProperties =
      [⟨"--brand-space-a: b;\x7d", "1rem", none⟩,
        ⟨"--brand-color-\x7d-dark: #fff", "#000", some "#fff"⟩] := by
    simp only [customProperties, lengthVariables, colorVariables, Table.sorted, punctuated,
      List.mergeSort_nil, List.mergeSort_singleton, List.flatMap_singleton]
    decide
  obtain ⟨hdark, hlight, -⟩ := css_decodes hdefine hlines
  rw [hdark, hlight, hproperties]
  exact ⟨hdefine, hlines, rfl, rfl⟩

end DesignTokens.Plan
