/-! # Tables

Values under distinct names, in the order in which the names were first given. -/

namespace DesignTokens

abbrev Table (α : Type) := List (String × α)

namespace Table

variable {α : Type}

def get? (t : Table α) (name : String) : Option α := (t.find? (·.1 == name)).map (·.2)

/-- Gives the name a value; a known name keeps its place. -/
def insert (name : String) (a : α) : Table α → Table α
  | [] => [(name, a)]
  | e :: t => if e.1 == name then (name, a) :: t else e :: insert name a t

/-- The table with later values of repeated names in the place of the first. -/
def ofList (es : List (String × α)) : Table α := es.foldl (fun t e => insert e.1 e.2 t) []

/-- The entries in the order of their names. -/
def sorted (t : Table α) : Table α := t.mergeSort fun a b => a.1 ≤ b.1

end Table

end DesignTokens
