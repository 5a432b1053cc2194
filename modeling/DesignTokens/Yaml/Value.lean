import DesignTokens.Yaml.Merge
import DesignTokens.Yaml.ScalarValue

/-! # Values of nodes

The tag of a node says what its value is made of. The parts of a collection are met after all that
was met before the collection itself, so of several faults the one on the level next to the top
counts. A key that is a collection is refused before its parts are met. -/

namespace DesignTokens.Yaml

def Tag.isComposite : Tag → Bool
  | .seq | .map | .set | .omap | .pairs => true
  | _ => false

namespace Graph

/-- The value of a node that is tagged as a scalar. -/
def scalarValue (g : Graph) (r : Ref) : Except Fault Value := do
  let n := g.node r
  match n.tag with
  | .other _ | .merge | .value => n.fault (.unknownTag n.tag.uri)
  | tag =>
    let s ← g.text r
    if tag = .timestamp ∧ n.kind = "mapping" then n.fault (.scalar .mappingForMoment)
    else match readScalar? tag s with
      | some (.ok v) => return v
      | some (.error c) => n.fault c
      | none => n.fault (.unknownTag tag.uri)

/-- The text of the node names what is not a number. -/
def namesNaN (g : Graph) (r : Ref) : Bool :=
  match g.text r with
  | .ok s => (readNumberSign s).toOption.any fun number => Yaml.namesNaN number.2
  | .error _ => false

/-- The only pair of a mapping. -/
def singlePair (g : Graph) (r : Ref) : Except Fault (Ref × Ref) :=
  let n := g.node r
  match n.content with
  | .mapping [p] => .ok p
  | .mapping ps => n.fault (.singlePairExpected ps.length)
  | _ => n.fault (.collectionExpected "mapping of length 1" n.kind)

end Graph

/-! ### Parts -/

/-- What the value of a node is made of. -/
inductive Parts
  | value (v : Value)
  | list (items : List Ref)
  | map (entries : List (Value × Ref))
  | set (items : List Value)
  | pairs (items : List (Ref × Ref))

/-- A part under a key, which is the value of a node. -/
structure Entry where
  key : Value
  keyNode : Ref
  part : Ref

def isNaN : Value → Bool
  | .float x => x.isNaN
  | _ => false

/-- Two entries have the same key. What is not a number is the same only under its name, or as the
same node. -/
def Entry.sameKey (g : Graph) (e f : Entry) : Bool :=
  e.key.same f.key || (isNaN e.key && isNaN f.key &&
    (e.keyNode == f.keyNode || (g.namesNaN e.keyNode && g.namesNaN f.keyNode)))

/-- Adds an entry; one with a known key gives its part to that key, which keeps its place. -/
def Entry.addTo (g : Graph) (f : Entry) : List Entry → List Entry
  | [] => [f]
  | e :: es => if e.sameKey g f then { e with part := f.part } :: es else e :: addTo g f es

/-- A graph whose nodes are given values. -/
structure Valuation where
  graph : Graph
  /-- The parts of the nodes that were met; those of a collection are not known at first. -/
  parts : Array (Option Parts)
  /-- The collections whose parts are not known, the latest first. -/
  pending : List Ref

namespace Valuation

def ofGraph (g : Graph) : Valuation := ⟨g, Array.replicate g.size none, []⟩

def setParts (v : Valuation) (r : Ref) (p : Parts) : Valuation :=
  { v with parts := v.parts.setIfInBounds r (some p) }

/-- Meets a node: a scalar gets its value, a collection has to wait. -/
def meet (v : Valuation) (r : Ref) : Except Fault Valuation := do
  if (v.parts.getD r none).isSome then return v
  else if (v.graph.node r).tag.isComposite then
    let v := v.setParts r (.list [])
    return { v with pending := r :: v.pending }
  else
    let value ← v.graph.scalarValue r
    return v.setParts r (.value value)

/-- Meets a key, and gives its value. -/
def meetKey (v : Valuation) (r : Ref) : Except Fault (Value × Valuation) := do
  let v ← v.meet r
  match v.parts.getD r none with
  | some (.value k) => return (k, v)
  | _ => (v.graph.node r).fault .keyNotHashable

def meetEntry (s : List Entry × Valuation) (p : Ref × Ref) :
    Except Fault (List Entry × Valuation) := do
  let (k, v) ← s.2.meetKey p.1
  return (Entry.addTo v.graph ⟨k, p.1, p.2⟩ s.1, ← v.meet p.2)

def meetPair (s : List (Ref × Ref) × Valuation) (r : Ref) :
    Except Fault (List (Ref × Ref) × Valuation) := do
  let p ← s.2.graph.singlePair r
  return (s.1 ++ [p], ← (← s.2.meet p.1).meet p.2)

/-- Merges what a mapping brings under its merge keys, and meets its keys and values. -/
def meetMapping (v : Valuation) (r : Ref) : Except Fault (List Entry × Valuation) := do
  let graph ← v.graph.merge r
  (graph.node r).pairs.foldlM meetEntry ([], { v with graph })

/-- Meets the parts of a collection. -/
def meetParts (v : Valuation) (r : Ref) : Except Fault Valuation := do
  let n := v.graph.node r
  match n.tag, n.content with
  | .seq, .sequence xs => return (← xs.foldlM meet v).setParts r (.list xs)
  | .seq, _ => n.fault (.nodeExpected "sequence" n.kind)
  | .map, .mapping _ =>
    let (es, v) ← v.meetMapping r
    return v.setParts r (.map (es.map fun e => (e.key, e.part)))
  | .set, .mapping _ =>
    let (es, v) ← v.meetMapping r
    return v.setParts r (.set (es.map (·.key)))
  | .map, _ | .set, _ => n.fault (.nodeExpected "mapping" n.kind)
  | .omap, .sequence xs | .pairs, .sequence xs =>
    let (ps, v) ← xs.foldlM meetPair ([], v)
    return v.setParts r (.pairs ps)
  | .omap, _ | .pairs, _ => n.fault (.collectionExpected "sequence" n.kind)
  | _, _ => return v

/-- Meets the parts of so many levels of collections. -/
def meetLevels : Nat → Valuation → Except Fault Valuation
  | 0, v => .ok v
  | k + 1, v => do
    if v.pending.isEmpty then return v
    meetLevels k (← v.pending.reverse.foldlM meetParts { v with pending := [] })

end Valuation

/-! ### Documents -/

/-- A document: the parts of all its nodes, from its top node on. -/
structure Document where
  top : Ref
  parts : Array (Option Parts)

namespace Document

/-- The document without a node. -/
def empty : Document := ⟨0, #[]⟩

def partsOf (d : Document) (r : Ref) : Parts := (d.parts.getD r none).getD (.value .null)

/-- The document that a graph is. On every level a collection is met, so there are no more levels
than nodes. -/
def ofGraph (g : Graph) (top : Ref) : Except Fault Document := do
  let v ← (Valuation.ofGraph g).meet top
  return ⟨top, (← v.meetLevels g.size).parts⟩

/-- The value of a node, if it has no more levels of collections than that. -/
def valueWithin? (d : Document) : Nat → Ref → Option Value
  | k, r =>
    match d.partsOf r, k with
    | .value v, _ => some v
    | .set vs, _ => some (.set vs)
    | .list xs, k + 1 => .list <$> xs.mapM (d.valueWithin? k)
    | .map es, k + 1 => .map <$> es.mapM fun e => (e.1, ·) <$> d.valueWithin? k e.2
    | .pairs ps, k + 1 => .list <$> ps.mapM fun p => do
      return .list [← d.valueWithin? k p.1, ← d.valueWithin? k p.2]
    | _, 0 => none

/-- The value of the document; one that holds itself has none. -/
def value? (d : Document) : Option Value := d.valueWithin? d.parts.size d.top

/-- The value of a node down to so many levels; collections further down are left empty. -/
def valueDownTo (d : Document) : Nat → Ref → Value
  | k, r =>
    match d.partsOf r, k with
    | .value v, _ => v
    | .set vs, _ => .set vs
    | .list _, 0 | .pairs _, 0 => .list []
    | .map _, 0 => .map []
    | .list xs, k + 1 => .list (xs.map (d.valueDownTo k))
    | .map es, k + 1 => .map (es.map fun e => (e.1, d.valueDownTo k e.2))
    | .pairs ps, k + 1 => .list (ps.map fun p =>
      .list [d.valueDownTo k p.1, d.valueDownTo k p.2])

/-- The value of the document down to so many levels. -/
def front (d : Document) (levels : Nat) : Value := d.valueDownTo levels d.top

/-- The document holds nothing. -/
def isEmpty (d : Document) : Bool :=
  match d.partsOf d.top with
  | .value .null => true
  | _ => false

end Document

end DesignTokens.Yaml
