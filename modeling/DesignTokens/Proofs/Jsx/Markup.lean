import DesignTokens.Jsx.Scan

/-!
# Markup trees

A tree of elements, fragments, text and guarded nodes `name && node` in braces, the text it is
written as (`Markup.chars`), and its elements with their places in that text
(`Markup.elementsAt`). Names and texts carry what makes them readable, so every tree can be
written.
-/

namespace DesignTokens.Jsx

/-! ### Trees -/

/-- A name whose later characters satisfy `p`. -/
structure Name (p : Char → Bool) where
  first : Char
  more : List Char
  starts : isNameStart first
  parts : ∀ c ∈ more, p c

/-- The value of an attribute between quotes. -/
structure QuotedText where
  quote : Char
  chars : List Char
  isQuote : quote = '"' ∨ quote = '\''
  closed : quote ∉ chars

/-- Text between tags. -/
structure PlainText where
  chars : List Char
  noTag : '<' ∉ chars
  noBrace : '\x7b' ∉ chars

def isIdentifierPart (c : Char) : Bool := Text.isWordChar c || c == '$'

mutual

/-- An element without or with children, or a fragment. -/
inductive Markup
  | leaf (tag : Name isTagNamePart) (attributes : List MarkupAttribute)
  | element (tag : Name isTagNamePart) (attributes : List MarkupAttribute) (children : List Node)
  | fragment (children : List Node)

/-- An attribute without a value, with a quoted one, or with markup in braces. -/
inductive MarkupAttribute
  | bare (name : Name isAttributeNamePart)
  | quoted (name : Name isAttributeNamePart) (value : QuotedText)
  | braced (name : Name isAttributeNamePart) (value : Markup)

/-- What stands between tags; a guarded node is written in braces behind its guard. -/
inductive Node
  | markup (m : Markup)
  | text (t : PlainText)
  | guarded (guard : Name isIdentifierPart) (n : Node)

end

/-! ### The written tree -/

namespace Name

variable {p : Char → Bool}

def chars (n : Name p) : List Char := n.first :: n.more

def text (n : Name p) : String := String.ofList n.chars

end Name

mutual

def Markup.chars : Markup → List Char
  | .leaf tag as => '<' :: tag.chars ++ attributesChars as ++ ['/', '>']
  | .element tag as ns =>
    '<' :: tag.chars ++ attributesChars as ++ '>' :: nodesChars ns ++
      '<' :: '/' :: tag.chars ++ ['>']
  | .fragment ns => '<' :: '>' :: nodesChars ns ++ ['<', '/', '>']
termination_by structural m => m

def MarkupAttribute.chars : MarkupAttribute → List Char
  | .bare name => name.chars
  | .quoted name v => name.chars ++ '=' :: v.quote :: v.chars ++ [v.quote]
  | .braced name m => name.chars ++ '=' :: '\x7b' :: m.chars ++ ['\x7d']
termination_by structural a => a

/-- Attributes, with a space before each. -/
def attributesChars : List MarkupAttribute → List Char
  | [] => []
  | a :: as => ' ' :: a.chars ++ attributesChars as
termination_by structural as => as

def Node.chars : Node → List Char
  | .markup m => m.chars
  | .text t => t.chars
  | .guarded guard n => '\x7b' :: guard.chars ++ [' ', '&', '&', ' '] ++ n.chars ++ ['\x7d']
termination_by structural n => n

def nodesChars : List Node → List Char
  | [] => []
  | n :: ns => n.chars ++ nodesChars ns
termination_by structural ns => ns

end

/-! ### The elements of a tree -/

namespace MarkupAttribute

def name : MarkupAttribute → String
  | bare name | quoted name _ | braced name _ => name.text

/-- Markup in braces stands for itself. -/
def value : MarkupAttribute → Option Script.Expr
  | bare _ => none
  | quoted _ v => some (.string (String.ofList v.chars))
  | braced _ m => some (.other "unparsed" (String.ofList m.chars))

end MarkupAttribute

def attributesAt (o : Nat) : List MarkupAttribute → List Attribute
  | [] => []
  | a :: as => ⟨a.name, o + 1, a.value⟩ :: attributesAt (o + 1 + a.chars.length) as

mutual

/-- The elements of markup that is written at `o`, in the order of their tags. -/
def Markup.elementsAt (o : Nat) : Markup → List Element
  | .leaf tag as =>
    ⟨tag.text, o, attributesAt (o + 1 + tag.chars.length) as⟩ ::
      attributeElementsAt (o + 1 + tag.chars.length) as
  | .element tag as ns =>
    ⟨tag.text, o, attributesAt (o + 1 + tag.chars.length) as⟩ ::
      (attributeElementsAt (o + 1 + tag.chars.length) as ++
        nodesElementsAt (o + 1 + tag.chars.length + (attributesChars as).length + 1) ns)
  | .fragment ns => nodesElementsAt (o + 2) ns
termination_by structural m => m

def MarkupAttribute.elementsAt (o : Nat) : MarkupAttribute → List Element
  | .bare _ | .quoted .. => []
  | .braced name m => m.elementsAt (o + name.chars.length + 2)
termination_by structural a => a

def attributeElementsAt (o : Nat) : List MarkupAttribute → List Element
  | [] => []
  | a :: as => a.elementsAt (o + 1) ++ attributeElementsAt (o + 1 + a.chars.length) as
termination_by structural as => as

def Node.elementsAt (o : Nat) : Node → List Element
  | .markup m => m.elementsAt o
  | .text _ => []
  | .guarded guard n => n.elementsAt (o + 1 + guard.chars.length + 4)
termination_by structural n => n

def nodesElementsAt (o : Nat) : List Node → List Element
  | [] => []
  | n :: ns => n.elementsAt o ++ nodesElementsAt (o + n.chars.length) ns
termination_by structural ns => ns

end

/-! ### Guarded text

In braces everything but markup is script, so text behind a guard is read as script. -/

/-- The characters that begin a string, a template, a regular expression, a comment or a bracket. -/
def scriptOpeners : List Char := ['"', '\'', '`', '/', '(', '[']

mutual

def Markup.guardedTexts : Markup → List PlainText
  | .leaf _ as => attributeGuardedTexts as
  | .element _ as ns => attributeGuardedTexts as ++ nodesGuardedTexts ns
  | .fragment ns => nodesGuardedTexts ns
termination_by structural m => m

def MarkupAttribute.guardedTexts : MarkupAttribute → List PlainText
  | .bare _ | .quoted .. => []
  | .braced _ m => m.guardedTexts
termination_by structural a => a

def attributeGuardedTexts : List MarkupAttribute → List PlainText
  | [] => []
  | a :: as => a.guardedTexts ++ attributeGuardedTexts as
termination_by structural as => as

def Node.guardedTexts (behindGuard : Bool) : Node → List PlainText
  | .markup m => m.guardedTexts
  | .text t => if behindGuard then [t] else []
  | .guarded _ n => n.guardedTexts true
termination_by structural n => n

def nodesGuardedTexts : List Node → List PlainText
  | [] => []
  | n :: ns => n.guardedTexts false ++ nodesGuardedTexts ns
termination_by structural ns => ns

end

/-- Nothing begins in the texts that script would read to its own end. -/
def Passable (ts : List PlainText) : Prop := ∀ t ∈ ts, ∀ c ∈ t.chars, c ∉ scriptOpeners

instance (ts : List PlainText) : Decidable (Passable ts) :=
  decidable_of_iff (ts.all fun t => t.chars.all (!scriptOpeners.contains ·)) (by simp [Passable])

/-! ### Elements come in order -/

/-- Elements in order of their tags, which open between `lo` and `hi`. -/
structure Ordered (lo hi : Nat) (es : List Element) : Prop where
  range : ∀ e ∈ es, lo ≤ e.offset ∧ e.offset < hi
  sorted : es.Pairwise fun a b => a.offset < b.offset

namespace Ordered

variable {lo mid hi lo' hi' : Nat} {es es' : List Element} {e : Element}

theorem nil : Ordered lo hi [] := ⟨by simp, .nil⟩

theorem append (h : Ordered lo mid es) (h' : Ordered mid hi es') (hlo : lo ≤ mid)
    (hhi : mid ≤ hi) : Ordered lo hi (es ++ es') where
  range e he := by
    rcases List.mem_append.1 he with he | he
    · have := h.range e he
      omega
    · have := h'.range e he
      omega
  sorted := by
    refine List.pairwise_append.2 ⟨h.sorted, h'.sorted, fun a ha b hb => ?_⟩
    have := h.range a ha
    have := h'.range b hb
    omega

theorem mono (h : Ordered lo hi es) (hlo : lo' ≤ lo) (hhi : hi ≤ hi') : Ordered lo' hi' es :=
  ⟨fun e he => by have := h.range e he; omega, h.sorted⟩

theorem cons (he : e.offset = lo) (h : Ordered mid hi es) (hlo : lo < mid) (hhi : mid ≤ hi) :
    Ordered lo hi (e :: es) where
  range e' he' := by
    rcases List.mem_cons.1 he' with rfl | he'
    · omega
    · have := h.range e' he'
      omega
  sorted := by
    refine List.pairwise_cons.2 ⟨fun e' he' => ?_, h.sorted⟩
    have := h.range e' he'
    omega

theorem eq_of_offset {a b : Element} (h : Ordered lo hi es) (ha : a ∈ es) (hb : b ∈ es)
    (hab : a.offset = b.offset) : a = b := by
  obtain ⟨i, hi, rfl⟩ := List.getElem_of_mem ha
  obtain ⟨j, hj, rfl⟩ := List.getElem_of_mem hb
  rcases Nat.lt_trichotomy i j with hij | rfl | hij
  · have := List.pairwise_iff_getElem.1 h.sorted i j hi hj hij
    omega
  · rfl
  · have := List.pairwise_iff_getElem.1 h.sorted j i hj hi hij
    omega

end Ordered

mutual

theorem Markup.ordered (o : Nat) : (m : Markup) → Ordered o (o + m.chars.length) (m.elementsAt o)
  | .leaf tag as => by
    have has := attributes_ordered (o + 1 + tag.chars.length) as
    refine (Ordered.cons rfl has (by dsimp only; omega) (by omega)).mono (Nat.le_refl _) ?_
    simp only [Markup.chars, List.length_append, List.length_cons]
    omega
  | .element tag as ns => by
    have has := attributes_ordered (o + 1 + tag.chars.length) as
    have hns := nodes_ordered (o + 1 + tag.chars.length + (attributesChars as).length + 1) ns
    have hboth := (has.mono (Nat.le_refl _) (Nat.le_succ _)).append hns (by omega) (by omega)
    refine (Ordered.cons rfl hboth (by dsimp only; omega) (by omega)).mono (Nat.le_refl _) ?_
    simp only [Markup.chars, List.length_append, List.length_cons]
    omega
  | .fragment ns => by
    refine (nodes_ordered (o + 2) ns).mono (by omega) ?_
    simp only [Markup.chars, List.length_append, List.length_cons]
    omega
termination_by structural m => m

theorem MarkupAttribute.ordered (o : Nat) :
    (a : MarkupAttribute) → Ordered o (o + a.chars.length) (a.elementsAt o)
  | .bare _ | .quoted .. => .nil
  | .braced name m => by
    refine (m.ordered (o + name.chars.length + 2)).mono (by omega) ?_
    simp only [MarkupAttribute.chars, List.length_append, List.length_cons]
    omega
termination_by structural a => a

theorem attributes_ordered (o : Nat) : (as : List MarkupAttribute) →
    Ordered o (o + (attributesChars as).length) (attributeElementsAt o as)
  | [] => .nil
  | a :: as => by
    have ha := a.ordered (o + 1)
    have has := attributes_ordered (o + 1 + a.chars.length) as
    refine (ha.append has (by omega) (by omega)).mono (by omega) ?_
    simp only [attributesChars, List.length_append, List.length_cons]
    omega
termination_by structural as => as

theorem Node.ordered (o : Nat) : (n : Node) → Ordered o (o + n.chars.length) (n.elementsAt o)
  | .markup m => m.ordered o
  | .text _ => .nil
  | .guarded guard n => by
    refine (n.ordered (o + 1 + guard.chars.length + 4)).mono (by omega) ?_
    simp only [Node.chars, List.length_append, List.length_cons, List.length_nil]
    omega
termination_by structural n => n

theorem nodes_ordered (o : Nat) :
    (ns : List Node) → Ordered o (o + (nodesChars ns).length) (nodesElementsAt o ns)
  | [] => .nil
  | n :: ns => by
    have hn := n.ordered o
    have hns := nodes_ordered (o + n.chars.length) ns
    refine (hn.append hns (by omega) (by omega)).mono (Nat.le_refl _) ?_
    simp only [nodesChars, List.length_append]
    omega
termination_by structural ns => ns

end

end DesignTokens.Jsx
