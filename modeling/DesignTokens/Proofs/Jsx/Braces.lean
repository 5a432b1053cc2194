import Mathlib
import DesignTokens.Proofs.Jsx.Passing
import DesignTokens.Proofs.Script.Quiet

/-!
# Where a braced expression ends

The walk over script counts brackets and the bracket reader matches them, and each has its own way
to pass over strings and templates. `braces_agree`: on quiet script both end at the same brace, so
the value of an attribute is the whole expression between its braces.
-/

namespace DesignTokens.Jsx

open Script (Closes Expr Lexeme Quiet Template bracketed? readBracketed tokenInterpolations
  tokenize)

section

variable {source : List Char} {i e : Nat}

/-- What follows the bracket that closes the one that the text begins with. -/
def afterBracket? (s : List Char) : Option (List Char) :=
  match bracketed? s with
  | some (.ok b) => some b.rest
  | _ => none

/-- The offset of the bracket that closes the one at `i`. -/
def closing? (source : List Char) (i : Nat) : Option Nat :=
  (afterBracket? (source.drop i)).map fun rest => source.length - rest.length - 1

/-- The text from offset `i` up to offset `j`. -/
def slice (source : List Char) (i j : Nat) : List Char := (source.drop i).take (j - i)

theorem drop_of_getElem? {c : Char} (h : source[i]? = some c) :
    source.drop i = c :: source.drop (i + 1) := by
  obtain ⟨hi, rfl⟩ := List.getElem?_eq_some_iff.1 h
  exact List.drop_eq_getElem_cons hi

theorem closes_of_afterBracket? {r rest : List Char} (h : afterBracket? ('\x7b' :: r) = some rest) :
    Closes (r.length + 1) '\x7d' [] r rest := by
  have hbrace : bracketed? ('\x7b' :: r) =
      some ((readBracketed (r.length + 1) '\x7d' [] r).map (·.after (.one _ r))) := rfl
  rw [afterBracket?, hbrace] at h
  cases hb : readBracketed (r.length + 1) '\x7d' [] r with
  | error f =>
    rw [hb] at h
    cases h
  | ok b =>
    rw [hb] at h
    exact ⟨b, hb, Option.some.inj h⟩

/-- The brace and the one that closes it enclose text that the bracket reader takes. -/
theorem closes_of_closing? (hopen : source[i]? = some '\x7b')
    (hclosing : closing? source i = some e) :
    ∃ rest, source.drop (i + 1) = slice source (i + 1) e ++ '\x7d' :: rest ∧
      source.drop e = '\x7d' :: rest ∧
      ∃ left, Closes left '\x7d' [] (slice source (i + 1) e ++ '\x7d' :: rest) rest := by
  have hdrop := drop_of_getElem? hopen
  rw [closing?, hdrop] at hclosing
  obtain ⟨rest, hrest, he⟩ := Option.map_eq_some_iff.1 hclosing
  have hcloses := closes_of_afterBracket? hrest
  obtain ⟨body, hbody⟩ := hcloses.split
  have hlength := congrArg List.length hdrop
  have hlength' := congrArg List.length hbody
  simp only [List.length_append, List.length_cons, List.length_drop] at hlength hlength'
  have hslice : slice source (i + 1) e = body := by
    have hgap : e - (i + 1) = body.length := by omega
    rw [slice, hgap, hbody, List.take_left]
  have hend : source.drop e = '\x7d' :: rest := by
    have hstart : e = i + 1 + body.length := by omega
    rw [hstart, ← List.drop_drop, hbody, List.drop_left]
  rw [hslice]
  exact ⟨rest, hbody, hend, _, hbody ▸ hcloses⟩

end

/-! ### The value of an attribute -/

section

variable {closer : Option Char} {depth size : Nat} {operand : Bool} {s u body : List Char}
  {source : List Char} {i e : Nat} {v : Expr}

theorem finds_of_scriptWalk (h : scriptWalk closer depth operand s = pure u) :
    ScriptFinds size closer depth operand (· = u) s [] := by
  obtain ⟨stop, hstop, hrest⟩ := Walk.eq_of_map_eq_pure h
  rw [ScriptFinds, hstop]
  exact ⟨stop, rfl, hrest, .nil⟩

/-- The text of a `div` with the body between the braces of its `className`. -/
def bracedDiv (body : List Char) : List Char :=
  "<div className=\x7b".toList ++ body ++ "\x7d />".toList

/-- The text is the one of an element with names for its tag and its attribute. -/
theorem bracedDiv_chars (body : List Char) :
    ∃ (tag : Name isTagNamePart) (name : Name isAttributeNamePart),
      tag.chars = ['d', 'i', 'v'] ∧ name.text = "className" ∧
      bracedDiv body = '<' :: (tag.chars ++ ' ' :: (name.chars ++
        '=' :: '\x7b' :: (body ++ '\x7d' :: ' ' :: tagEnd true))) :=
  ⟨⟨'d', ['i', 'v'], rfl, List.all_eq_true.1 rfl⟩,
    ⟨'c', ['l', 'a', 's', 's', 'N', 'a', 'm', 'e'], rfl, List.all_eq_true.1 rfl⟩, rfl, rfl,
    rfl⟩

theorem scan_bracedDiv
    (hbody : ∀ size, ScriptFinds size (some '\x7d') 0 true (· = '\x7d' :: ' ' :: tagEnd true)
      (body ++ '\x7d' :: ' ' :: tagEnd true) [])
    (hparse : Script.parseLeniently body = .ok v) :
    scan (bracedDiv body) = .ok [⟨"div", 0, [⟨"className", 5, some v⟩]⟩] := by
  obtain ⟨tag, name, htag, hname, hchars⟩ := bracedDiv_chars body
  obtain ⟨size, hsize⟩ : ∃ size, (bracedDiv body).length = size := ⟨_, rfl⟩
  have hlength := hsize
  rw [hchars] at hlength
  have hend : HeadFinds size true [] (tagEnd true ++ []) [] [] := head_end
  rw [List.append_nil] at hend
  have hattribute := head_attribute name rfl (.braced (hbody size) hparse)
    (head_of_trimLeft (s := ' ' :: tagEnd true) hend)
  have hoffset : size - (name.chars ++
      '=' :: '\x7b' :: (body ++ '\x7d' :: ' ' :: tagEnd true)).length = 5 := by
    have htag : tag.chars.length = 3 := congrArg List.length htag
    simp only [List.length_cons, List.length_append] at hlength ⊢
    omega
  rw [hoffset, hname] at hattribute
  have htrim (t : List Char) : Text.trimLeft (' ' :: (name.chars ++ t)) = name.chars ++ t :=
    trimLeft_of_isNameStart name.starts
  rw [← htrim] at hattribute
  have helement := element_finds tag rfl (.inl rfl)
    (Nat.sub_eq_of_eq_add (hlength.symm.trans (Nat.zero_add _).symm))
    (head_of_trimLeft hattribute) ⟨rfl, rfl⟩
  have hscript : ScriptFinds size none 0 true (· = []) _ _ :=
    script_element (by simp [opensTag, Name.chars, tag.starts]) helement script_done
  rw [← hchars, ← hsize, Name.text, htag] at hscript
  have hordered : Ordered 0 1 [⟨"div", 0, [⟨"className", 5, some v⟩]⟩] := ⟨by simp, by simp⟩
  exact scan_of_finds hscript hordered

/-- On quiet script the walk over script and the bracket reader end at the same brace; so an
attribute has the whole text between the braces as its value. -/
theorem braces_agree (hopen : source[i]? = some '\x7b') (hclosing : closing? source i = some e)
    (hquiet : Quiet (slice source (i + 1) e)) :
    (∃ stop, walkScript (some '\x7d') 0 true (source.drop (i + 1)) = ⟨[], .ok stop⟩ ∧
      stop.rest = source.drop e) ∧
    ∃ v, Script.parseLeniently (slice source (i + 1) e) = .ok v ∧
      scan (bracedDiv (slice source (i + 1) e)) =
        .ok [⟨"div", 0, [⟨"className", 5, some v⟩]⟩] := by
  obtain ⟨rest, hdrop, hend, left, hcloses⟩ := closes_of_closing? hopen hclosing
  have hbalanced := hquiet.balanced left rest hcloses
  have hwalk (u : List Char) : scriptWalk (some '\x7d') 0 true
      (slice source (i + 1) e ++ '\x7d' :: u) = pure ('\x7d' :: u) :=
    (walk_balanced hbalanced u true).1
  refine ⟨?_, ?_⟩
  · have hsource := hwalk rest
    rw [← hdrop, ← hend] at hsource
    exact Walk.eq_of_map_eq_pure hsource
  · obtain ⟨v, hv⟩ := hquiet.parses
    exact ⟨v, hv, scan_bracedDiv (fun _ => finds_of_scriptWalk (hwalk _)) hv⟩

end

/-- The text `x={f(`${y ? `}${[z]}` : '}'}`) /* } */};`, with braces in a template, in a string and
in a comment. -/
def nestedBraces : List Char :=
  "x=\x7bf(`$\x7by ? `\x7d$\x7b[z]\x7d` : '\x7d'\x7d`) /* \x7d */\x7d;".toList

theorem quiet_nestedBraces : Quiet (slice nestedBraces 3 38) := by
  have hz : tokenize ['[', 'z', ']'] =
      .ok [⟨.punct "[", 0⟩, ⟨.ident "z", 1⟩, ⟨.punct "]", 2⟩, ⟨.eof, 3⟩] := by cbv
  have hy : tokenize "y ? `\x7d$\x7b[z]\x7d` : '\x7d'".toList =
      .ok [⟨.ident "y", 0⟩, ⟨.punct "?", 2⟩,
        ⟨.template "`\x7d$\x7b[z]\x7d`" ⟨['\x7d'], [(['[', 'z', ']'], [])]⟩, 4⟩, ⟨.punct ":", 14⟩,
        ⟨.string "\x7d", 16⟩, ⟨.eof, 19⟩] := by cbv
  have hf : tokenize (slice nestedBraces 3 38) =
      .ok [⟨.ident "f", 0⟩, ⟨.punct "(", 1⟩,
        ⟨.template "`$\x7by ? `\x7d$\x7b[z]\x7d` : '\x7d'\x7d`"
          ⟨[], [("y ? `\x7d$\x7b[z]\x7d` : '\x7d'".toList, [])]⟩, 2⟩,
        ⟨.punct ")", 26⟩, ⟨.eof, 35⟩] := by cbv
  have hinner : Quiet ['[', 'z', ']'] :=
    .intro hz (by decide) (by simp [tokenInterpolations, Lexeme.interpolations])
  have houter : Quiet "y ? `\x7d$\x7b[z]\x7d` : '\x7d'".toList := by
    refine .intro hy (by decide) ?_
    simpa [tokenInterpolations, Lexeme.interpolations, Template.interpolations] using hinner
  refine .intro hf (by decide) ?_
  simpa [tokenInterpolations, Lexeme.interpolations, Template.interpolations] using houter

theorem braces_agree_nested :
    nestedBraces[2]? = some '\x7b' ∧ closing? nestedBraces 2 = some 38 ∧
      Quiet (slice nestedBraces 3 38) ∧
      (∃ stop, walkScript (some '\x7d') 0 true (nestedBraces.drop 3) = ⟨[], .ok stop⟩ ∧
        stop.rest = nestedBraces.drop 38) ∧
      ∃ v, Script.parseLeniently (slice nestedBraces 3 38) = .ok v ∧
        scan (bracedDiv (slice nestedBraces 3 38)) =
          .ok [⟨"div", 0, [⟨"className", 5, some v⟩]⟩] := by
  have hopen : nestedBraces[2]? = some '\x7b' := by decide
  have hclosing : closing? nestedBraces 2 = some 38 := by cbv
  exact ⟨hopen, hclosing, quiet_nestedBraces, braces_agree hopen hclosing quiet_nestedBraces⟩

end DesignTokens.Jsx
