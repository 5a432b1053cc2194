import DesignTokens.Toml.Scalar
import DesignTokens.Value.Table

/-! # TOML documents

A document is read statement by statement into a tree of tables. A table that was declared or
opened by a dotted key cannot be declared again, and an inline table or an array is frozen: nothing
can be added to it later. The last of an array of tables is open until the next one is declared. -/

namespace DesignTokens.Toml

/-- What stands under a name. -/
inductive Node
  | leaf (v : Value)
  | table (entries : List (String × Node))
  | tables (earlier : List Value) (entries : List (String × Node))

mutual

def Node.toValue : Node → Value
  | .leaf v => v
  | .table es => .map (entriesToValues es)
  | .tables earlier es => .list (earlier ++ [.map (entriesToValues es)])
termination_by structural n => n

def entriesToValues : List (String × Node) → Entries
  | [] => []
  | e :: es => entryToValue e :: entriesToValues es
termination_by structural es => es

def entryToValue : String × Node → Value × Value
  | (k, n) => (.text k, n.toValue)
termination_by structural e => e

end

/-! ### Changing tables -/

/-- Changes the table that the key leads to. Tables that do not exist are made on the way, and an
array of tables stands for its last one. -/
def changeTable (f : Table Node → Except Cause (Table Node)) :
    Key → Table Node → Except Cause (Table Node)
  | [], es => f es
  | k :: ks, es => do
    match es.get? k with
    | none => return es.insert k (.table (← changeTable f ks []))
    | some (.table t) => return es.insert k (.table (← changeTable f ks t))
    | some (.tables earlier t) => return es.insert k (.tables earlier (← changeTable f ks t))
    | some (.leaf _) => .error .valueOverwritten

/-- Gives the table an entry under a new name. -/
def addEntry (name : String) (v : Value) (repeated : Cause) (es : Table Node) :
    Except Cause (Table Node) :=
  if (es.get? name).isSome then .error repeated else .ok (es.insert name (.leaf v))

/-- Begins the next table of the array under a name. -/
def nextTable (name : String) (es : Table Node) : Except Cause (Table Node) :=
  match es.get? name with
  | none => .ok (es.insert name (.tables [] []))
  | some (.tables earlier t) =>
    .ok (es.insert name (.tables (earlier ++ [(Node.table t).toValue]) []))
  | some _ => .error .valueOverwritten

/-- Some beginning of the key, or the key itself, is frozen. -/
def isFrozen (frozen : List Key) (key : Key) : Bool := frozen.any (·.isPrefixOf key)

/-- The value holds others. -/
def isComposite : Value → Bool
  | .map _ | .list _ => true
  | _ => false

/-- All of a key but its last name, and the last name. -/
def splitLast : Key → Key × String
  | [] => ([], "")
  | [k] => ([], k)
  | k :: ks => (k :: (splitLast ks).1, (splitLast ks).2)

/-! ### Values -/

/-- An inline table of which some pairs were read. -/
structure Inline where
  entries : Table Node
  frozen : List Key

/-- Adds a pair to an inline table. -/
def Inline.add (t : Inline) (key : Key) (v : Value) : Except Cause Inline := do
  if isFrozen t.frozen key then throw (.frozen key)
  let (parent, name) := splitLast key
  return ⟨← changeTable (addEntry name v (.nameRepeated name)) parent t.entries,
    if isComposite v then key :: t.frozen else t.frozen⟩

def Inline.toValue (t : Inline) : Value := (Node.table t.entries).toValue

def readPairKey (s : List Char) : Except Fault (Read Key s) := do
  let key ← readKey s
  match h : key.rest with
  | '=' :: r =>
    have equals : Tail r s := .suffix_trans (.one '=' r) (h ▸ key.tail.suffix)
    return ⟨key.value, skipGap r, tail_skipGap equals⟩
  | r => .error ⟨.equalsExpected, r.length⟩

mutual

/-- Reads a value of any kind. -/
def readValue (s : List Char) : Except Fault (Read Value s) :=
  match s with
  | [] => .error ⟨.valueExpected, 0⟩
  | c :: r =>
    if c = '[' then do
      let rest ← skipLines r
      let items := r.drop (r.length - rest.length)
      if items.head? = some ']' then return .upTo (.list []) c r (items.drop 1)
      else return (← readItems [] items).after (.drop_succ _ c r)
    else if c = '\x7b' then do
      let pairs := skipGap r
      have := (skipGap_suffix r).length_le
      if pairs.head? = some '\x7d' then return .upTo (.map []) c r (pairs.drop 1)
      else return (← readPairs ⟨[], []⟩ pairs).after (.cons c (skipGap_suffix r))
    else do
      let (v, rest) ← readScalar (c :: r)
      return .upTo v c r rest
termination_by (s.length, 0)

/-- Reads the items of an array from the next one on. -/
def readItems (items : List Value) (s : List Char) : Except Fault (Read Value s) := do
  let item ← readValue s
  let items := items ++ [item.value]
  let rest ← skipLines item.rest
  match h : item.rest.drop (item.rest.length - rest.length) with
  | [] => .error ⟨.unclosedArray, 0⟩
  | c :: r => do
    have tail : Tail r s := .suffix_trans (.one c r) (h ▸ (List.drop_suffix _ _).trans item.tail.suffix)
    if c = ']' then return ⟨.list items, r, tail⟩
    else if c = ',' then
      let rest ← skipLines r
      let next := r.drop (r.length - rest.length)
      have next_suffix : next <:+ r := List.drop_suffix _ _
      if next.head? = some ']' then
        have end_suffix := (List.drop_suffix 1 next).trans next_suffix
        return ⟨.list items, next.drop 1, .trans_suffix end_suffix tail⟩
      else
        have tail := Tail.trans_suffix next_suffix tail
        have : r.length - (r.length - rest.length) < s.length := by
          simpa [next] using tail.length_lt
        return (← readItems items next).after tail
    else .error ⟨.unclosedArray, r.length + 1⟩
termination_by (s.length, 1)

/-- Reads the pairs of an inline table from the next one on. -/
def readPairs (t : Inline) (s : List Char) : Except Fault (Read Value s) := do
  let key ← readPairKey s
  have := key.tail.length_lt
  let v ← readValue key.rest
  let t ← (t.add key.value v.value).mapError (⟨·, v.rest.length⟩)
  have read := v.tail.trans key.tail
  match h : skipGap v.rest with
  | [] => .error ⟨.unclosedInlineTable, 0⟩
  | c :: r => do
    have tail : Tail r s := .suffix_trans (.one c r) (h ▸ (skipGap_suffix _).trans read.suffix)
    if c = '\x7d' then return ⟨t.toValue, r, tail⟩
    else if c = ',' then
      have tail := tail_skipGap tail
      have := tail.length_lt
      return (← readPairs t (skipGap r)).after tail
    else .error ⟨.unclosedInlineTable, r.length + 1⟩
termination_by (s.length, 1)

end

/-! ### Statements -/

/-- What was read of a document. -/
structure Document where
  entries : Table Node
  /-- The table to which the next pairs belong. -/
  header : Key
  /-- Tables that cannot be declared. -/
  declared : List Key
  frozen : List Key
  /-- Tables opened by dotted keys since the last header. -/
  opened : List Key

namespace Document

def empty : Document := ⟨[], [], [], [], []⟩

/-- Tables that were opened count as declared from the next header on. -/
def close (d : Document) : Document := { d with declared := d.opened ++ d.declared, opened := [] }

def declareTable (d : Document) (key : Key) : Except Cause Document := do
  if d.declared.contains key || isFrozen d.frozen key then throw (.tableRepeated key)
  return { d with
    entries := ← changeTable .ok key d.entries
    header := key
    declared := key :: d.declared }

/-- Declares the next table of an array; what was declared below the last one is free again. -/
def declareNext (d : Document) (key : Key) : Except Cause Document := do
  if isFrozen d.frozen key then throw (.frozen key)
  let (parent, name) := splitLast key
  return { d with
    entries := ← changeTable (nextTable name) parent d.entries
    header := key
    declared := key :: d.declared.filter (!key.isPrefixOf ·)
    frozen := d.frozen.filter (!key.isPrefixOf ·) }

/-- The proper beginnings of a key, from the shortest one. -/
def beginnings (key : Key) : List Key := (List.range (key.length - 1)).map fun n => key.take (n + 1)

/-- Adds a pair to the table of the header. -/
def add (d : Document) (key : Key) (v : Value) : Except Cause Document := do
  let opened := (beginnings key).map (d.header ++ ·)
  match opened.find? d.declared.contains with
  | some k => throw (.tableReopened k)
  | none => pure ()
  let full := d.header ++ key
  let (parent, name) := splitLast full
  if isFrozen d.frozen parent then throw (.frozen parent)
  return { d with
    entries := ← changeTable (addEntry name v .valueOverwritten) parent d.entries
    frozen := if isComposite v then full :: d.frozen else d.frozen
    opened := opened ++ d.opened }

def toValue (d : Document) : Value := (Node.table d.entries).toValue

end Document

/-- Reads a header after its opening brackets, with what it does and how it ends. -/
def readHeader (s : List Char) (closer : List Char) (expected : Cause)
    (declare : Key → Except Cause Document) : Except Fault (Read Document s) := do
  let key ← readKey (skipGap s)
  let d ← (declare key.value).mapError (⟨·, key.rest.length⟩)
  if closer.isPrefixOf key.rest then
    return ⟨d, key.rest.drop closer.length,
      .trans_suffix (List.drop_suffix _ _) (key.tail.suffix_trans (skipGap_suffix s))⟩
  else .error ⟨expected, key.rest.length⟩

/-- Reads a statement: a header or a pair. -/
def readStatement (d : Document) (s : List Char) : Except Fault (Read Document s) :=
  match s with
  | [] => .error ⟨.statementExpected, 0⟩
  | '[' :: '[' :: r => do
    return (← readHeader r [']', ']'] .tablesEndExpected d.close.declareNext).after
      ((Tail.one '[' r).trans (.one '[' _))
  | '[' :: r => do
    return (← readHeader r [']'] .tableEndExpected d.close.declareTable).after (.one '[' r)
  | c :: r =>
    if startsKey c then do
      let key ← readPairKey (c :: r)
      let v ← readValue key.rest
      let d ← (d.add key.value v.value).mapError (⟨·, v.rest.length⟩)
      return ⟨d, v.rest, v.tail.trans key.tail⟩
    else .error ⟨.statementExpected, r.length + 1⟩

/-- Reads the lines that are left, each with a statement, a comment or nothing. -/
def readLines (d : Document) (s : List Char) : Except Fault Document := do
  match h : skipGap s with
  | [] => return d
  | c :: r => do
    have start : Tail r s := .suffix_trans (.one c r) (h ▸ skipGap_suffix s)
    let (d, rest) ← if c = '\n' ∨ c = '#' then pure (d, c :: r) else do
      let statement ← readStatement d (c :: r)
      pure (statement.value, skipGap statement.rest)
    match ← skipComment rest with
    | [] => return d
    | c' :: r' =>
      if c' = '\n' then
        let next := r.drop (r.length - r'.length)
        have tail : Tail next s := .trans_suffix (List.drop_suffix _ _) start
        have : r.length - (r.length - r'.length) < s.length := by
          simpa [next] using tail.length_lt
        readLines d next
      else .error ⟨.statementEndExpected, r'.length + 1⟩
termination_by s.length

/-- The table that a document holds. -/
def read (s : List Char) : Except Fault Value := do return (← readLines .empty s).toValue

end DesignTokens.Toml
