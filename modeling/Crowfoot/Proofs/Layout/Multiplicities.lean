import Crowfoot.Proofs.Layout.References
import Crowfoot.Proofs.Layout.Traversals

/-!
# Multiplicities of edges

The graph of a schema is exactly its references that lead to other tables.  There are
as many edges between two tables as columns of the one that refer to the other, and
the lists of parents and children hold every edge as often.  Nothing else is among
them: no reference without a table, and no reference of a table to itself.
-/

namespace Crowfoot

namespace Schema

/-- The column refers to the table at the place, the first that has the name it gives. -/
def RefersTo (schema : Schema) (column : Column) (place : Nat) : Prop :=
  ∃ reference, column.references = some reference ∧ schema.IsFirst reference.table place

theorem refersTo_iff {schema : Schema} {column : Column} {place : Nat} :
    schema.RefersTo column place ↔
      column.references.bind (fun reference => schema.tableIndex? reference.table) =
        some place := by
  simp only [RefersTo, isFirst_iff, Option.bind_eq_some_iff]

instance (schema : Schema) (column : Column) (place : Nat) :
    Decidable (schema.RefersTo column place) :=
  decidable_of_iff _ refersTo_iff.symm

end Schema

/-- The graph has a node for every table and an edge for every column that refers to
another table, and it holds every edge as often in all three forms. -/
structure Graph.Represents (graph : Graph) (schema : Schema) : Prop where
  columnCounts : graph.columnCounts = schema.tables.map fun table => table.columns.length
  length_parents : graph.parents.length = schema.tables.length
  length_children : graph.children.length = schema.tables.length
  edges_inRange : ∀ edge ∈ graph.edges,
    edge.child < schema.tables.length ∧ edge.parent < schema.tables.length
  parents_inRange : ∀ parents ∈ graph.parents, ∀ parent ∈ parents, parent < schema.tables.length
  children_inRange : ∀ children ∈ graph.children, ∀ child ∈ children, child < schema.tables.length
  loopless : ∀ edge ∈ graph.edges, edge.child ≠ edge.parent
  count_edges : ∀ child parent table, schema.tables[child]? = some table → child ≠ parent →
    graph.edges.count ⟨child, parent⟩ =
      table.columns.countP fun column => schema.RefersTo column parent
  count_parentsOf : ∀ child parent,
    (graph.parentsOf child).count parent = graph.edges.count ⟨child, parent⟩
  count_childrenOf : ∀ child parent,
    (graph.childrenOf parent).count child = graph.edges.count ⟨child, parent⟩

namespace Schema

variable {schema : Schema} {child parent : Nat}

/-- The edges of one table are as many as its columns that refer to the other one. -/
theorem count_tableEdges (table : Table) (hother : child ≠ parent) :
    (table.foreignKeys.filterMap fun (_, reference) =>
      schema.referenceEdge? child reference).count ⟨child, parent⟩ =
        table.columns.countP fun column => schema.RefersTo column parent := by
  rw [Table.foreignKeys, List.filterMap_filterMap, List.count_filterMap]
  apply List.countP_congr
  intro column _
  cases hreference : column.references with
  | none => simp [RefersTo, hreference]
  | some reference =>
    simp [RefersTo, hreference, referenceEdge?_eq_some_iff, isFirst_iff, hother.symm]

/-- Edges of tables in front of the child, or behind it, are other edges. -/
theorem count_edges_elsewhere (parent : Nat) {tables : List Table} {start : Nat}
    (helsewhere : child < start ∨ start + tables.length ≤ child) :
    ((tables.zipIdx start).flatMap fun (table, place) =>
      table.foreignKeys.filterMap fun (_, reference) =>
        schema.referenceEdge? place reference).count ⟨child, parent⟩ = 0 := by
  rw [List.count_eq_zero]
  intro hmem
  obtain ⟨⟨table, place⟩, hplace, hedge⟩ := List.mem_flatMap.1 hmem
  obtain ⟨⟨column, reference⟩, -, hsome⟩ := List.mem_filterMap.1 hedge
  obtain ⟨-, -, rfl⟩ := referenceEdge?_eq_some_iff.1 hsome
  have hrange := List.mem_zipIdx hplace
  omega

/-- The edges between two tables are as many as the columns of the one that refer to the other. -/
theorem count_referenceEdges {table : Table} (htable : schema.tables[child]? = some table)
    (hother : child ≠ parent) :
    schema.referenceEdges.count ⟨child, parent⟩ =
      table.columns.countP fun column => schema.RefersTo column parent := by
  obtain ⟨hchild, hget⟩ := List.getElem?_eq_some_iff.1 htable
  have hsplit : schema.tables =
      schema.tables.take child ++ table :: schema.tables.drop (child + 1) := by
    rw [← hget, ← List.drop_eq_getElem_cons hchild, List.take_append_drop]
  have hlength : (schema.tables.take child).length = child :=
    List.length_take_of_le (Nat.le_of_lt hchild)
  -- the edge can only come from the table at its own place
  have hfront : child < 0 ∨ 0 + (schema.tables.take child).length ≤ child := by omega
  have hback : child < child + 1 ∨
      child + 1 + (schema.tables.drop (child + 1)).length ≤ child := by omega
  rw [referenceEdges, hsplit, List.zipIdx_append, List.zipIdx_cons, hlength, Nat.zero_add,
    List.flatMap_append, List.flatMap_cons, List.count_append, List.count_append,
    count_edges_elsewhere parent hfront, count_edges_elsewhere parent hback]
  dsimp only
  rw [count_tableEdges table hother, Nat.zero_add, Nat.add_zero]

end Schema

/-- The graph of a schema is made of exactly its references to other tables. -/
theorem Schema.represents_graph (schema : Schema) : schema.graph.Represents schema := by
  have hcoherent := schema.isCoherent_graph
  have hsize := schema.size_graph
  refine
    { columnCounts := columnCounts_foldl_addEdge _ _
      length_parents := hcoherent.length_parents.trans hsize
      length_children := hcoherent.length_children.trans hsize
      edges_inRange := hsize ▸ hcoherent.inRange
      parents_inRange := hsize ▸ hcoherent.isInRange.parents
      children_inRange := hsize ▸ hcoherent.isInRange.children
      loopless := fun edge hedge => ?_
      count_edges := fun child parent table htable hother => ?_
      count_parentsOf := fun child parent => hcoherent.count_parentsOf ⟨child, parent⟩
      count_childrenOf := fun child parent => hcoherent.count_childrenOf ⟨child, parent⟩ }
  · rw [edges_graph, mem_referenceEdges] at hedge
    obtain ⟨table, htable, column, hcolumn, reference, hreference, hindex, hother⟩ := hedge
    exact hother.symm
  · rw [edges_graph, count_referenceEdges htable hother]

end Crowfoot
