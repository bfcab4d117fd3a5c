import Crowfoot.Schema.Basic

/-!
# Reference graphs

For a layout a schema is reduced to numbers: its tables are counted from zero, and every foreign key
to another table of the schema is an edge from the referring table, the child, to the referenced
one, the parent.
-/

namespace Crowfoot

/-- A foreign key between two tables. -/
structure Edge where
  child : Nat
  parent : Nat
  deriving DecidableEq, Repr

/-- Tables as numbers, with the foreign keys between them. -/
structure Graph where
  /-- The number of columns of every table. -/
  columnCounts : List Nat
  edges : List Edge
  /-- The tables that every table refers to. -/
  parents : List (List Nat)
  /-- The tables that refer to every table. -/
  children : List (List Nat)
  deriving DecidableEq, Repr

namespace Graph

/-- The number of tables. -/
def size (graph : Graph) : Nat :=
  graph.columnCounts.length

/-- Tables without foreign keys. -/
def isolated (columnCounts : List Nat) : Graph where
  columnCounts := columnCounts
  edges := []
  parents := columnCounts.map fun _ => []
  children := columnCounts.map fun _ => []

/-- Adds a foreign key. -/
def addEdge (graph : Graph) (edge : Edge) : Graph :=
  { graph with
    edges := graph.edges ++ [edge]
    parents := graph.parents.modify edge.child (· ++ [edge.parent])
    children := graph.children.modify edge.parent (· ++ [edge.child]) }

/-- The tables that a table refers to. -/
def parentsOf (graph : Graph) (node : Nat) : List Nat :=
  graph.parents.getD node []

/-- The tables that refer to a table. -/
def childrenOf (graph : Graph) (node : Nat) : List Nat :=
  graph.children.getD node []

end Graph

namespace Schema

/-- The edge of a reference from a table, unless it is dangling or refers to the table itself. -/
def referenceEdge? (schema : Schema) (child : Nat) (reference : ColumnReference) : Option Edge :=
  (schema.tableIndex? reference.table).bind fun parent =>
    if parent = child then none else some ⟨child, parent⟩

/-- The edges of all foreign keys in the order of the columns. -/
def referenceEdges (schema : Schema) : List Edge :=
  schema.tables.zipIdx.flatMap fun (table, child) =>
    table.foreignKeys.filterMap fun (_, reference) => schema.referenceEdge? child reference

/-- The graph of a schema. -/
def graph (schema : Schema) : Graph :=
  schema.referenceEdges.foldl Graph.addEdge
    (Graph.isolated (schema.tables.map fun table => table.columns.length))

end Schema

end Crowfoot
