import Crowfoot.Proofs.Layout.Positions

/-!
# Coherent graphs

A graph holds every edge three times: in the list of its edges, among the parents
of the child and among the children of the parent.  Adding an edge keeps the three
in step, so that they agree in the graph of any schema.
-/

namespace Crowfoot

namespace Graph

/-- The nodes of all edges are there, and every edge is as often among the parents of
its child and the children of its parent as among the edges. -/
structure IsCoherent (graph : Graph) : Prop where
  length_parents : graph.parents.length = graph.size
  length_children : graph.children.length = graph.size
  inRange : ∀ edge ∈ graph.edges, edge.child < graph.size ∧ edge.parent < graph.size
  count_parentsOf : ∀ edge : Edge,
    (graph.parentsOf edge.child).count edge.parent = graph.edges.count edge
  count_childrenOf : ∀ edge : Edge,
    (graph.childrenOf edge.parent).count edge.child = graph.edges.count edge

/-- The edge is there in all three forms. -/
structure HasEdge (graph : Graph) (edge : Edge) : Prop where
  listed : edge ∈ graph.edges
  parent : edge.parent ∈ graph.parentsOf edge.child
  child : edge.child ∈ graph.childrenOf edge.parent

theorem IsCoherent.hasEdge_iff {graph : Graph} (hcoherent : graph.IsCoherent) (edge : Edge) :
    graph.HasEdge edge ↔ edge ∈ graph.edges := by
  refine ⟨HasEdge.listed, fun hmem => ⟨hmem, ?_, ?_⟩⟩
  · rw [← List.count_pos_iff, hcoherent.count_parentsOf, List.count_pos_iff]
    exact hmem
  · rw [← List.count_pos_iff, hcoherent.count_childrenOf, List.count_pos_iff]
    exact hmem

/-! ## Adding edges -/

/-- The neighbours of a node after one was added for another node. -/
theorem getD_modify_append (lists : List (List Nat)) {place : Nat} (hplace : place < lists.length)
    (node added : Nat) :
    (lists.modify place (· ++ [added])).getD node [] =
      lists.getD node [] ++ if place = node then [added] else [] := by
  simp only [List.getD_eq_getElem?_getD, List.getElem?_modify]
  by_cases hsame : place = node
  · subst hsame
    simp [List.getElem?_eq_getElem hplace]
  · simp [hsame]

theorem isCoherent_isolated (columnCounts : List Nat) : (isolated columnCounts).IsCoherent where
  length_parents := List.length_map _
  length_children := List.length_map _
  inRange := by simp [isolated]
  count_parentsOf edge := by
    simp only [isolated, parentsOf, List.getD_eq_getElem?_getD, List.getElem?_map]
    cases columnCounts[edge.child]? <;> rfl
  count_childrenOf edge := by
    simp only [isolated, childrenOf, List.getD_eq_getElem?_getD, List.getElem?_map]
    cases columnCounts[edge.parent]? <;> rfl

/-- Adding an edge between nodes that are there keeps a graph coherent. -/
theorem IsCoherent.addEdge {graph : Graph} (hcoherent : graph.IsCoherent) {edge : Edge}
    (hchild : edge.child < graph.size) (hparent : edge.parent < graph.size) :
    (graph.addEdge edge).IsCoherent where
  length_parents := (List.length_modify _ _ _).trans hcoherent.length_parents
  length_children := (List.length_modify _ _ _).trans hcoherent.length_children
  inRange := List.forall_mem_append.2
    ⟨hcoherent.inRange, List.forall_mem_singleton.2 ⟨hchild, hparent⟩⟩
  count_parentsOf other := by
    have hplace : edge.child < graph.parents.length := hcoherent.length_parents ▸ hchild
    have hbefore := hcoherent.count_parentsOf other
    rw [parentsOf] at hbefore
    rw [parentsOf, Graph.addEdge, getD_modify_append _ hplace, List.count_append, List.count_append,
      hbefore, List.count_singleton]
    obtain ⟨child, parent⟩ := edge
    obtain ⟨otherChild, otherParent⟩ := other
    by_cases hsame : child = otherChild <;> simp [hsame, List.count_singleton]
  count_childrenOf other := by
    have hplace : edge.parent < graph.children.length := hcoherent.length_children ▸ hparent
    have hbefore := hcoherent.count_childrenOf other
    rw [childrenOf] at hbefore
    rw [childrenOf, Graph.addEdge, getD_modify_append _ hplace, List.count_append, List.count_append,
      hbefore, List.count_singleton]
    obtain ⟨child, parent⟩ := edge
    obtain ⟨otherChild, otherParent⟩ := other
    by_cases hsame : parent = otherParent <;> simp [hsame, List.count_singleton]

theorem IsCoherent.foldl_addEdge {graph : Graph} (hcoherent : graph.IsCoherent)
    {edges : List Edge}
    (hrange : ∀ edge ∈ edges, edge.child < graph.size ∧ edge.parent < graph.size) :
    (edges.foldl Graph.addEdge graph).IsCoherent := by
  induction edges generalizing graph with
  | nil => exact hcoherent
  | cons edge rest ih =>
    obtain ⟨⟨hchild, hparent⟩, hrest⟩ := List.forall_mem_cons.1 hrange
    exact ih (hcoherent.addEdge hchild hparent) hrest

theorem edges_foldl_addEdge (graph : Graph) (edges : List Edge) :
    (edges.foldl Graph.addEdge graph).edges = graph.edges ++ edges := by
  induction edges generalizing graph with
  | nil => exact (List.append_nil _).symm
  | cons edge rest ih =>
    rw [List.foldl_cons, ih, addEdge, List.append_assoc, List.singleton_append]

end Graph

/-! ## Graphs of schemas -/

namespace Schema

theorem edges_graph (schema : Schema) : schema.graph.edges = schema.referenceEdges :=
  Graph.edges_foldl_addEdge _ _

/-- A reference is an edge to the table it is resolved to, if that is another one. -/
theorem referenceEdge?_eq_some_iff {schema : Schema} {child : Nat} {reference : ColumnReference}
    {edge : Edge} :
    schema.referenceEdge? child reference = some edge ↔
      schema.tableIndex? reference.table = some edge.parent ∧ edge.parent ≠ edge.child ∧
        child = edge.child := by
  simp only [referenceEdge?, Option.bind_eq_some_iff]
  obtain ⟨edgeChild, edgeParent⟩ := edge
  constructor
  · rintro ⟨parent, hparent, hsome⟩
    split at hsome
    · cases hsome
    · rename_i hother
      obtain ⟨rfl, rfl⟩ := Edge.mk.inj (Option.some.inj hsome)
      exact ⟨hparent, hother, rfl⟩
  · rintro ⟨hparent, hother, rfl⟩
    exact ⟨edgeParent, hparent, if_neg hother⟩

/-- The edges of a schema are the references that lead to other tables. -/
theorem mem_referenceEdges {schema : Schema} {edge : Edge} :
    edge ∈ schema.referenceEdges ↔
      ∃ table, schema.tables[edge.child]? = some table ∧
        ∃ column ∈ table.columns, ∃ reference, column.references = some reference ∧
          schema.tableIndex? reference.table = some edge.parent ∧ edge.parent ≠ edge.child := by
  simp only [referenceEdges, List.mem_flatMap, Prod.exists, List.mem_zipIdx_iff_getElem?,
    List.mem_filterMap, referenceEdge?_eq_some_iff, Table.foreignKeys, Option.map_eq_some_iff,
    Prod.mk.injEq]
  constructor
  · rintro ⟨table, child, htable, _, reference, ⟨column, hcolumn, _, hreference, rfl, rfl⟩,
      hindex, hother, rfl⟩
    exact ⟨table, htable, column, hcolumn, _, hreference, hindex, hother⟩
  · rintro ⟨table, htable, column, hcolumn, reference, hreference, hindex, hother⟩
    exact ⟨table, edge.child, htable, column, reference,
      ⟨column, hcolumn, reference, hreference, rfl, rfl⟩, hindex, hother, rfl⟩

theorem tableIndex?_lt {schema : Schema} {name : String} {index : Nat}
    (hindex : schema.tableIndex? name = some index) : index < schema.tables.length :=
  (List.findIdx?_eq_some_iff_getElem.1 hindex).1

/-- The graph of a schema is coherent. -/
theorem isCoherent_graph (schema : Schema) : schema.graph.IsCoherent := by
  apply (Graph.isCoherent_isolated _).foldl_addEdge
  intro edge hedge
  obtain ⟨table, htable, column, -, reference, -, hindex, -⟩ := mem_referenceEdges.1 hedge
  have hchild := (List.getElem?_eq_some_iff.1 htable).1
  simp only [Graph.size, Graph.isolated, List.length_map]
  exact ⟨hchild, tableIndex?_lt hindex⟩

end Schema

end Crowfoot
