import DesignTokens.Text.Reading
import DesignTokens.Value.Table
import DesignTokens.Yaml.Graph
import DesignTokens.Yaml.Token

/-! # Nodes

Tokens are read into a graph of nodes. A collection has its place in the graph, and its anchor can
be referred to, before its parts are read. -/

namespace DesignTokens.Yaml

/-- What tags stand for, by their handles. -/
abbrev Handles := Table String

def defaultHandles : Handles := [("!", "!"), ("!!", Tag.common)]

/-- The kind of the next token, unless nothing can be read any more. -/
def front (s : List Token) : Except Fault Lexeme :=
  match s with
  | [] => .ok .streamEnd
  | t :: _ =>
    match t.lexeme with
    | .fault c => .error (.malformed c t.location)
    | l => .ok l

/-- Where the next token stands. -/
def place (s : List Token) : Location := (s.head?.map (·.location)).getD .start

def faultAt {α : Type} (s : List Token) (cause : Cause) : Except Fault α :=
  .error (.malformed cause (place s))

/-- Where an indicator of one character ends. -/
def Token.stop (t : Token) : Location := ⟨t.location.line, t.location.column + 1⟩

/-! ### Properties -/

/-- What stands before the content of a node. -/
structure Properties where
  anchor : Option String
  tag : Option WrittenTag
  tagLocation : Location

/-- The property that a token is. -/
def Properties.ofLexeme? (l : Lexeme) (location : Location) : Option Properties :=
  match l with
  | .anchor name => some ⟨name, none, location⟩
  | .tag w => some ⟨none, w, location⟩
  | _ => none

/-- The properties with another one that was read at a location, if it is of the other kind. -/
def Properties.extend? (p : Properties) (l : Lexeme) (location : Location) : Option Properties :=
  match p, l with
  | ⟨some a, none, _⟩, .tag w => some ⟨a, w, location⟩
  | ⟨none, some w, l⟩, .anchor a => some ⟨a, w, l⟩
  | _, _ => none

/-- Reads an anchor, a tag or both, in either order; none if there is neither. -/
def readProperties (s : List Token) : Except Fault (Option (Read Properties s)) :=
  match s with
  | [] => .ok none
  | t :: r => do
    match Properties.ofLexeme? (← front (t :: r)) t.location with
    | none => return none
    | some p =>
      match p.extend? (← front r) (place r) with
      | none => return some ⟨p, r, .one t r⟩
      | some p => return some ⟨p, r.drop 1, .trans_suffix (List.drop_suffix 1 r) (.one t r)⟩

/-- What a node is before its content is known. -/
structure Heading where
  anchor : Option String
  /-- The uri of its tag, if it has one. -/
  uri : Option String
  location : Location

/-- The heading that the properties at a location give. -/
def Properties.heading (p : Properties) (handles : Handles) (l : Location) :
    Except Fault Heading :=
  match p.tag with
  | none => .ok ⟨p.anchor, none, l⟩
  | some ⟨none, suffix⟩ => .ok ⟨p.anchor, suffix, l⟩
  | some ⟨some h, suffix⟩ =>
    match handles.get? h with
    | none => .error (.malformed (.unknownHandle h) p.tagLocation)
    | some uri => .ok ⟨p.anchor, uri ++ suffix, l⟩

namespace Heading

/-- The scalar with a text. Only a plain scalar, or one tagged by an exclamation mark alone, has
the tag that its text implies. -/
def scalar (h : Heading) (text : String) (isPlain : Bool) : Node :=
  let tag := match h.uri with
    | none => if isPlain then Tag.implied text else .str
    | some uri => if uri = "!" then Tag.implied text else Tag.ofUri uri
  ⟨tag, .scalar text, h.location⟩

/-- The collection that has no parts yet; it has the given tag where it has no other. -/
def collection (h : Heading) (default : Tag) (c : Content) : Node :=
  let tag := match h.uri with
    | none => default
    | some uri => if uri = "!" then default else Tag.ofUri uri
  ⟨tag, c, h.location⟩

end Heading

/-! ### Drafts -/

/-- The nodes that were read so far, and those with anchors. -/
structure Draft where
  graph : Graph
  anchors : Table Ref

namespace Draft

def empty : Draft := ⟨.empty, []⟩

/-- The draft with one more node, and the place of that node. -/
def add (d : Draft) (n : Node) : Ref × Draft :=
  let (r, g) := d.graph.add n
  (r, { d with graph := g })

/-- The draft with one more node under the anchor of its heading. -/
def addUnder (d : Draft) (h : Heading) (n : Node) : Ref × Draft :=
  let (r, d) := d.add n
  match h.anchor with
  | none => (r, d)
  | some a => (r, { d with anchors := d.anchors.insert a r })

/-- The draft with a sequence that has no items yet. -/
def addSequence (d : Draft) (h : Heading) : Ref × Draft :=
  d.addUnder h (h.collection .seq (.sequence []))

/-- The draft with a mapping that has no pairs yet. -/
def addMapping (d : Draft) (h : Heading) : Ref × Draft :=
  d.addUnder h (h.collection .map (.mapping []))

/-- The draft in which the sequence at a place has its items. -/
def completeSequence (r : Ref) (read : List Ref × Draft) : Ref × Draft :=
  (r, { read.2 with graph := read.2.graph.setContent r (.sequence read.1) })

/-- The draft in which the mapping at a place has its pairs. -/
def completeMapping (r : Ref) (read : List (Ref × Ref) × Draft) : Ref × Draft :=
  (r, { read.2 with graph := read.2.graph.setContent r (.mapping read.1) })

/-- An anchor must be new. -/
def check (d : Draft) (h : Heading) : Except Fault Unit :=
  match h.anchor with
  | none => .ok ()
  | some a =>
    if (d.anchors.get? a).isSome then .error (.malformed .repeatedAnchor h.location) else .ok ()

end Draft

/-! ### Reading nodes -/

/-- Where a node stands. -/
inductive Context
  | flow
  | block
  /-- In a block mapping, where a sequence need not be indented. -/
  | blockPart
  deriving DecidableEq

/-- How pairs stand, and which tokens say that a part of one is left out. -/
structure PairStyle where
  context : Context
  endsKey : Lexeme → Bool
  endsValue : Lexeme → Bool

def blockStyle : PairStyle :=
  let ends (l : Lexeme) : Bool := l == .key || l == .value || l == .blockEnd
  ⟨.blockPart, ends, ends⟩

def flowStyle (closer : Lexeme) : PairStyle :=
  let ends (l : Lexeme) : Bool := l == .flowEntry || l == closer
  ⟨.flow, fun l => l == .value || ends l, ends⟩

/-- The end of a block sequence, or of one that is not indented. -/
def endsEntry (indented : Bool) (l : Lexeme) : Bool :=
  l == .blockEntry || l == .blockEnd || (!indented && (l == .key || l == .value))

/-- Reads an alias; none if the next token is not one. -/
def readAlias (found : Lexeme) (d : Draft) (s : List Token) :
    Except Fault (Option (Read (Ref × Draft) s)) :=
  match found, s with
  | .reference name, t :: r =>
    match d.anchors.get? name with
    | some n => .ok (some ⟨(n, d), r, .one t r⟩)
    | none => faultAt (t :: r) (.unknownAlias name)
  | _, _ => .ok none

mutual

def readNode (handles : Handles) (context : Context) (d : Draft) (s : List Token) :
    Except Fault (Read (Ref × Draft) s) := do
  match ← readProperties s with
  | some p =>
    have := p.tail.length_lt
    let h ← p.value.heading handles (place s)
    match ← readContent handles context d h p.rest with
    | some n => return n.after p.tail
    | none => return ⟨d.addUnder h (h.scalar "" true), p.rest, p.tail⟩
  | none =>
    let found ← front s
    match ← readAlias found d s with
    | some n => return n
    | none =>
      match ← readContent handles context d ⟨none, none, place s⟩ s with
      | some n => return n
      | none => faultAt s (.contentExpected found.kind)
termination_by (s.length, 3)

/-- Reads the content of a node; none if there is no content. -/
def readContent (handles : Handles) (context : Context) (d : Draft) (h : Heading)
    (s : List Token) : Except Fault (Option (Read (Ref × Draft) s)) :=
  match s with
  | [] => do
    d.check h
    return none
  | t :: r => do
    let found ← front (t :: r)
    d.check h
    match found, context with
    | .scalar text isPlain, _ =>
      return some ⟨d.addUnder h (h.scalar text isPlain), r, .one t r⟩
    | .flowSequenceStart, _ =>
      let (n, d) := d.addSequence h
      let items := (← readFlowItems handles d r).after (.one t r)
      return some (items.map (Draft.completeSequence n))
    | .flowMappingStart, _ =>
      let (n, d) := d.addMapping h
      let pairs := (← readFlowPairs handles d r).after (.one t r)
      return some (pairs.map (Draft.completeMapping n))
    | .blockEntry, .blockPart =>
      let (n, d) := d.addSequence h
      let items ← readEntries handles d t r
      return some (items.map (Draft.completeSequence n))
    | _, .flow => return none
    | .blockSequenceStart, _ =>
      let (n, d) := d.addSequence h
      let items := (← readBlockItems handles d r).after (.one t r)
      return some (items.map (Draft.completeSequence n))
    | .blockMappingStart, _ =>
      let (n, d) := d.addMapping h
      let pairs := (← readBlockPairs handles d r).after (.one t r)
      return some (pairs.map (Draft.completeMapping n))
    | _, _ => return none
termination_by (s.length, 2)

/-- Reads a node after an indicator, or leaves it out before a token that `ends` it. -/
def readPart (handles : Handles) (context : Context) (ends : Lexeme → Bool) (d : Draft)
    (t : Token) (r : List Token) : Except Fault (Read (Ref × Draft) (t :: r)) := do
  if ends (← front r) then return ⟨d.add (.absent t.stop), r, .one t r⟩
  else return (← readNode handles context d r).after (.one t r)
termination_by (r.length + 1, 0)

/-- Reads a pair from the token that announces its key. -/
def readPair (handles : Handles) (style : PairStyle) (d : Draft) (t : Token)
    (r : List Token) : Except Fault (Read ((Ref × Ref) × Draft) (t :: r)) := do
  let key ← readPart handles style.context style.endsKey d t r
  have := key.tail.length_lt
  let found ← front key.rest
  match h : key.rest with
  | t' :: r' =>
    if found = .value then
      have : r'.length + 1 < r.length + 1 := by simpa [h] using this
      let v ← readPart handles style.context style.endsValue key.value.2 t' r'
      have tail : Tail v.rest (t :: r) := v.tail.trans (h ▸ key.tail)
      return ⟨((key.value.1, v.value.1), v.value.2), v.rest, tail⟩
    else
      let (absent, d) := key.value.2.add (.absent t'.location)
      return ⟨((key.value.1, absent), d), t' :: r', h ▸ key.tail⟩
  | [] => faultAt [] (.contentExpected found.kind)
termination_by (r.length + 1, 1)

/-- Reads the items of a flow sequence from one on, or from its end. -/
def readFlowItems (handles : Handles) (d : Draft) (s : List Token) :
    Except Fault (Read (List Ref × Draft) s) :=
  match s with
  | [] => faultAt [] (.contentExpected Lexeme.streamEnd.kind)
  | t :: r => do
    let found ← front (t :: r)
    if found = .flowSequenceEnd then return ⟨([], d), r, .one t r⟩
    let item : Read (Ref × Draft) (t :: r) ←
      if found = .key then do
        let p ← readPair handles (flowStyle .flowSequenceEnd) d t r
        pure (p.map fun (p, d) => d.add ⟨.map, .mapping [p], t.location⟩)
      else readNode handles .flow d (t :: r)
    have := item.tail.length_lt
    let found ← front item.rest
    match h : item.rest with
    | t' :: r' =>
      have tail : Tail r' (t :: r) := (Tail.one t' r').trans (h ▸ item.tail)
      if found = .flowSequenceEnd then return ⟨([item.value.1], item.value.2), r', tail⟩
      else if found = .flowEntry then
        have := tail.length_lt
        let items ← readFlowItems handles item.value.2 r'
        return (items.map fun (xs, d) => (item.value.1 :: xs, d)).after tail
      else faultAt (t' :: r') (.closerExpected "]" found.kind)
    | [] => faultAt [] (.contentExpected found.kind)
termination_by (s.length, 4)

/-- Reads the pairs of a flow mapping from one on, or from its end. -/
def readFlowPairs (handles : Handles) (d : Draft) (s : List Token) :
    Except Fault (Read (List (Ref × Ref) × Draft) s) :=
  match s with
  | [] => faultAt [] (.contentExpected Lexeme.streamEnd.kind)
  | t :: r => do
    let found ← front (t :: r)
    if found = .flowMappingEnd then return ⟨([], d), r, .one t r⟩
    let pair : Read ((Ref × Ref) × Draft) (t :: r) ←
      if found = .key then readPair handles (flowStyle .flowMappingEnd) d t r
      else do
        let key ← readNode handles .flow d (t :: r)
        let _ ← front key.rest
        pure (key.map fun (k, d) =>
          let (absent, d) := d.add (.absent (place key.rest))
          ((k, absent), d))
    let found ← front pair.rest
    match h : pair.rest with
    | t' :: r' =>
      have tail : Tail r' (t :: r) := (Tail.one t' r').trans (h ▸ pair.tail)
      if found = .flowMappingEnd then return ⟨([pair.value.1], pair.value.2), r', tail⟩
      else if found = .flowEntry then
        have := tail.length_lt
        let pairs ← readFlowPairs handles pair.value.2 r'
        return (pairs.map fun (ps, d) => (pair.value.1 :: ps, d)).after tail
      else faultAt (t' :: r') (.closerExpected "\x7d" found.kind)
    | [] => faultAt [] (.contentExpected found.kind)
termination_by (s.length, 4)

/-- Reads the items of a block sequence, and its end. -/
def readBlockItems (handles : Handles) (d : Draft) (s : List Token) :
    Except Fault (Read (List Ref × Draft) s) :=
  match s with
  | [] => faultAt [] (.blockEndExpected Lexeme.streamEnd.kind)
  | t :: r => do
    let found ← front (t :: r)
    if found = .blockEnd then return ⟨([], d), r, .one t r⟩
    else if found = .blockEntry then
      let item ← readPart handles .block (endsEntry true) d t r
      have := item.tail.length_lt
      let items ← readBlockItems handles item.value.2 item.rest
      return (items.map fun (xs, d) => (item.value.1 :: xs, d)).after item.tail
    else faultAt (t :: r) (.blockEndExpected found.kind)
termination_by (s.length, 4)

/-- Reads the items of a sequence that is not indented, from one on. -/
def readEntries (handles : Handles) (d : Draft) (t : Token) (r : List Token) :
    Except Fault (Read (List Ref × Draft) (t :: r)) := do
  let item ← readPart handles .block (endsEntry false) d t r
  have := item.tail.length_lt
  let found ← front item.rest
  match h : item.rest with
  | t' :: r' =>
    if found = .blockEntry then
      have : r'.length + 1 < r.length + 1 := by simpa [h] using this
      let items ← readEntries handles item.value.2 t' r'
      return (items.map fun (xs, d) => (item.value.1 :: xs, d)).after (h ▸ item.tail)
    else return ⟨([item.value.1], item.value.2), t' :: r', h ▸ item.tail⟩
  | [] => return ⟨([item.value.1], item.value.2), [], h ▸ item.tail⟩
termination_by (r.length + 1, 1)

/-- Reads the pairs of a block mapping, and its end. -/
def readBlockPairs (handles : Handles) (d : Draft) (s : List Token) :
    Except Fault (Read (List (Ref × Ref) × Draft) s) :=
  match s with
  | [] => faultAt [] (.blockEndExpected Lexeme.streamEnd.kind)
  | t :: r => do
    let found ← front (t :: r)
    if found = .blockEnd then return ⟨([], d), r, .one t r⟩
    else if found = .key then
      let pair ← readPair handles blockStyle d t r
      have := pair.tail.length_lt
      let pairs ← readBlockPairs handles pair.value.2 pair.rest
      return (pairs.map fun (ps, d) => (pair.value.1 :: ps, d)).after pair.tail
    else faultAt (t :: r) (.blockEndExpected found.kind)
termination_by (s.length, 4)

end

/-! ### Reading documents -/

/-- The directives before a document. -/
structure Directives where
  hasVersion : Bool
  handles : Handles

def readDirectives (d : Directives) (s : List Token) : Except Fault (Handles × List Token) := do
  match ← front s, s with
  | .directive (.version major), t :: r =>
    if d.hasVersion then faultAt (t :: r) .repeatedVersion
    else if major ≠ 1 then faultAt (t :: r) .otherVersion
    else readDirectives { d with hasVersion := true } r
  | .directive (.handle h uri), t :: r =>
    if (d.handles.get? h).isSome then faultAt (t :: r) (.repeatedHandle h)
    else readDirectives { d with handles := d.handles.insert h uri } r
  | .directive .other, _ :: r => readDirectives d r
  | _, s => return (d.handles ++ defaultHandles, s)
termination_by s.length

/-- Reads what begins a document explicitly. -/
def readDocumentStart (s : List Token) : Except Fault (Handles × List Token) := do
  let (handles, rest) ← readDirectives ⟨false, []⟩ s
  match ← front rest with
  | .documentStart => return (handles, rest.drop 1)
  | found => faultAt rest (.documentStartExpected found.kind)

/-- Nothing but ends of documents may follow the only document. -/
def checkEnd (s : List Token) : Except Fault Unit := do
  match ← front s, s with
  | .documentEnd, _ :: r => checkEnd r
  | .streamEnd, _ => return ()
  | _, s =>
    let _ ← readDocumentStart s
    faultAt s .anotherDocument
termination_by s.length

/-- The graph that the tokens are, with the place of its top node, if there is a document. -/
def Graph.ofTokens? (s : List Token) : Except Fault (Option (Ref × Graph)) := do
  match ← front s with
  | .streamEnd => return none
  | .directive _ | .documentStart =>
    let (handles, rest) ← readDocumentStart s
    match ← front rest with
    | .directive _ | .documentStart | .documentEnd | .streamEnd =>
      checkEnd rest
      return some (Graph.empty.add (.absent (place rest)))
    | _ =>
      let n ← readNode handles .block .empty rest
      checkEnd n.rest
      return some (n.value.1, n.value.2.graph)
  | _ =>
    let n ← readNode defaultHandles .block .empty s
    checkEnd n.rest
    return some (n.value.1, n.value.2.graph)

end DesignTokens.Yaml
