import DesignTokens.Yaml.Fault
import DesignTokens.Yaml.Tag

/-! # Graphs of nodes

A document is a graph of nodes. An alias refers to the node with its anchor, so a node may have
several parents, and a collection may hold itself. -/

namespace DesignTokens.Yaml

/-- The place of a node in its graph. -/
abbrev Ref := Nat

inductive Content
  | scalar (text : String)
  | sequence (items : List Ref)
  | mapping (pairs : List (Ref × Ref))
  deriving DecidableEq, Repr

/-- The kind of a content as it is shown in messages. -/
def Content.kind : Content → String
  | scalar _ => "scalar"
  | sequence _ => "sequence"
  | mapping _ => "mapping"

structure Node where
  tag : Tag
  content : Content
  location : Location
  deriving DecidableEq, Repr

namespace Node

/-- The node that stands where nothing is written. -/
def absent (l : Location) : Node := ⟨Tag.implied "", .scalar "", l⟩

def fault {α : Type} (n : Node) (cause : Cause) : Except Fault α :=
  .error (.malformed cause n.location)

def kind (n : Node) : String := n.content.kind

/-- The items of a sequence. -/
def items (n : Node) : List Ref :=
  match n.content with
  | .sequence xs => xs
  | _ => []

/-- The pairs of a mapping. -/
def pairs (n : Node) : List (Ref × Ref) :=
  match n.content with
  | .mapping ps => ps
  | _ => []

end Node

structure Graph where
  nodes : Array Node
  deriving DecidableEq, Repr

namespace Graph

def empty : Graph := ⟨#[]⟩

def size (g : Graph) : Nat := g.nodes.size

def node (g : Graph) (r : Ref) : Node := g.nodes.getD r (.absent .start)

/-- The graph with one more node, and the place of that node. -/
def add (g : Graph) (n : Node) : Ref × Graph := (g.size, ⟨g.nodes.push n⟩)

def setContent (g : Graph) (r : Ref) (c : Content) : Graph :=
  ⟨g.nodes.modify r fun n => { n with content := c }⟩

def setTag (g : Graph) (r : Ref) (t : Tag) : Graph :=
  ⟨g.nodes.modify r fun n => { n with tag := t }⟩

/-! ### Texts -/

/-- What a mapping holds under a key tagged as its value. -/
def value? (g : Graph) (r : Ref) : Option Ref :=
  ((g.node r).pairs.find? fun p => (g.node p.1).tag = .value).map (·.2)

/-- The text of a node that is reached in so many steps from mappings to their values. -/
def textWithin (g : Graph) : Nat → Ref → Except Fault String
  | k, r =>
    let n := g.node r
    match n.content, g.value? r, k with
    | .scalar s, _, _ => .ok s
    | _, none, _ => n.fault (.nodeExpected "scalar" n.kind)
    | _, some _, 0 => n.fault (.scalar .endlessText)
    | _, some v, k + 1 => g.textWithin k v

/-- The text of a scalar, or of the value of a mapping. -/
def text (g : Graph) (r : Ref) : Except Fault String := g.textWithin g.size r

end Graph

end DesignTokens.Yaml
