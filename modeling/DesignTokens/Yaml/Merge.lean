import DesignTokens.Yaml.Graph

/-! # Merge keys

A mapping takes the pairs of the mapping, or of each of several, that stands under a merge key.
They come before its own pairs, so that its own ones win, and of several mappings the later ones
come first. A mapping that is merged loses its merge keys for good. -/

namespace DesignTokens.Yaml

namespace Graph

def isMerge (g : Graph) (p : Ref × Ref) : Bool := (g.node p.1).tag = .merge

/-- The number of pairs under merge keys. -/
def mergeCount (g : Graph) : Nat :=
  g.nodes.foldl (fun n x => n + x.pairs.countP g.isMerge) 0

/-- The first value under a merge key of a mapping, and the graph without that pair. -/
def takeMerge? (g : Graph) (r : Ref) : Option (Ref × Graph) :=
  let ps := (g.node r).pairs
  match ps.find? g.isMerge with
  | none => none
  | some p => some (p.2, g.setContent r (.mapping (ps.eraseP g.isMerge)))

/-- A key that is tagged as a value is a text. -/
def retagKey (g : Graph) (p : Ref × Ref) : Graph :=
  if (g.node p.1).tag = .value then g.setTag p.1 .str else g

/-- The graph in which a mapping has the given pairs before its own. -/
def addPairs (g : Graph) (r : Ref) (before : List (Ref × Ref)) : Graph :=
  let ps := before ++ (g.node r).pairs
  ps.foldl retagKey (g.setContent r (.mapping ps))

/-- Merges so many levels of mappings into one that has been brought some pairs already. -/
def mergeWithin : Nat → Ref → List (Ref × Ref) → Graph → Except Fault Graph
  | 0, r, brought, g => .ok (g.addPairs r brought)
  | k + 1, r, brought, g =>
    match g.takeMerge? r with
    | none => .ok (g.addPairs r brought)
    | some (v, g) => do
      let n := g.node v
      match n.content with
      | .mapping _ =>
        let g ← mergeWithin k v [] g
        mergeWithin k r (brought ++ (g.node v).pairs) g
      | .sequence xs =>
        let item (s : List (Ref × Ref) × Graph) (x : Ref) : Except Fault _ := do
          let n := s.2.node x
          match n.content with
          | .mapping _ =>
            let g ← mergeWithin k x [] s.2
            return ((g.node x).pairs ++ s.1, g)
          | _ => n.fault (.mergeItemExpected n.kind)
        let (ps, g) ← xs.foldlM item ([], g)
        mergeWithin k r (brought ++ ps) g
      | .scalar _ => n.fault (.mergeExpected n.kind)

/-- Merges into a mapping what stands under its merge keys. -/
def merge (g : Graph) (r : Ref) : Except Fault Graph := mergeWithin g.mergeCount r [] g

end Graph

end DesignTokens.Yaml
