import Crowfoot.Proofs.Layout.Coherence
import Mathlib.Combinatorics.SimpleGraph.Acyclic
import Mathlib.Data.Finset.Max

/-!
# Forests

Where the edges of a graph close no cycle, even when their direction is not heeded, the
nodes of every tree have heights: each child lies one above each of its parents, and
the root of the tree that is listed first lies at zero.
-/

namespace Crowfoot

/-! ## Edges without direction -/

/-- Both nodes of the edge in no order. -/
def Edge.ends (edge : Edge) : Sym2 Nat :=
  s(edge.child, edge.parent)

/-- The edges without their direction. -/
def undirected (edges : List Edge) : SimpleGraph Nat :=
  SimpleGraph.fromRel fun child parent => ⟨child, parent⟩ ∈ edges

/-- Without direction the edges close no cycle and none is repeated. -/
structure IsForest (edges : List Edge) : Prop where
  loopless : ∀ edge ∈ edges, edge.child ≠ edge.parent
  distinct : (edges.map Edge.ends).Nodup
  acyclic : (undirected edges).IsAcyclic

theorem undirected_cons (edge : Edge) (rest : List Edge) :
    undirected (edge :: rest) = undirected rest ⊔ SimpleGraph.edge edge.child edge.parent := by
  obtain ⟨child, parent⟩ := edge
  ext left right
  simp only [undirected, SimpleGraph.fromRel_adj, List.mem_cons, Edge.mk.injEq,
    SimpleGraph.sup_adj, SimpleGraph.edge_adj]
  tauto

theorem adj_of_mem {edges : List Edge} {edge : Edge} (hedge : edge ∈ edges)
    (hother : edge.child ≠ edge.parent) : (undirected edges).Adj edge.child edge.parent :=
  (SimpleGraph.fromRel_adj _ _ _).2 ⟨hother, Or.inl hedge⟩

/-- Adjacent nodes are the ends of an edge, one way or the other. -/
theorem mem_or_mem_of_adj {edges : List Edge} {left right : Nat}
    (hadj : (undirected edges).Adj left right) : ⟨left, right⟩ ∈ edges ∨ ⟨right, left⟩ ∈ edges :=
  ((SimpleGraph.fromRel_adj _ _ _).1 hadj).2

namespace IsForest

variable {edges : List Edge}

theorem of_cons {edge : Edge} (hforest : IsForest (edge :: edges)) : IsForest edges where
  loopless := (List.forall_mem_cons.1 hforest.loopless).2
  distinct := (List.nodup_cons.1 hforest.distinct).2
  acyclic := by
    have hacyclic := hforest.acyclic
    rw [undirected_cons] at hacyclic
    exact hacyclic.anti le_sup_left

/-- An edge of a forest joins two trees of the others. -/
theorem not_reachable {edge : Edge} (hforest : IsForest (edge :: edges)) :
    ¬ (undirected edges).Reachable edge.child edge.parent := by
  have hacyclic := hforest.acyclic
  rw [undirected_cons, SimpleGraph.isAcyclic_sup_fromEdgeSet_iff] at hacyclic
  intro hreachable
  rcases hacyclic.2 hreachable with hloop | hadj
  · exact (List.forall_mem_cons.1 hforest.loopless).1 hloop
  · apply (List.nodup_cons.1 hforest.distinct).1
    rcases mem_or_mem_of_adj hadj with hsame | hturned
    · exact List.mem_map_of_mem hsame
    · exact List.mem_map.2 ⟨_, hturned, Sym2.eq_swap⟩

theorem nil : IsForest [] where
  loopless _ hedge := (List.not_mem_nil hedge).elim
  distinct := List.nodup_nil
  acyclic := by
    have hbot : undirected [] = ⊥ := by
      ext left right
      simp [undirected]
    rw [hbot]
    exact SimpleGraph.isAcyclic_bot

/-- An edge to a child that has none yet closes no cycle. -/
theorem cons_leaf {edge : Edge} (hforest : IsForest edges) (hother : edge.child ≠ edge.parent)
    (hleaf : ∀ other ∈ edges, other.child ≠ edge.child ∧ other.parent ≠ edge.child) :
    IsForest (edge :: edges) where
  loopless := List.forall_mem_cons.2 ⟨hother, hforest.loopless⟩
  distinct := by
    refine List.nodup_cons.2 ⟨fun hmem => ?_, hforest.distinct⟩
    obtain ⟨other, hmem, hends⟩ := List.mem_map.1 hmem
    have hchild : edge.child ∈ other.ends := hends ▸ Sym2.mem_mk_left _ _
    rcases Sym2.mem_iff.1 hchild with hsame | hsame
    · exact (hleaf other hmem).1 hsame.symm
    · exact (hleaf other hmem).2 hsame.symm
  acyclic := by
    obtain ⟨child, parent⟩ := edge
    rw [undirected_cons, SimpleGraph.isAcyclic_sup_fromEdgeSet_iff]
    refine ⟨hforest.acyclic, fun hreachable => ?_⟩
    obtain ⟨walk⟩ := hreachable
    cases walk with
    | nil => exact absurd rfl hother
    | cons hadj _ =>
      rcases mem_or_mem_of_adj hadj with hedge | hedge
      · exact absurd rfl (hleaf _ hedge).1
      · exact absurd rfl (hleaf _ hedge).2

/-- The nodes of a forest can be given heights such that every edge rises by one. -/
theorem exists_rising (hforest : IsForest edges) :
    ∃ height : Nat → Int, ∀ edge ∈ edges, height edge.child = height edge.parent + 1 := by
  classical
  induction edges with
  | nil => exact ⟨fun _ => 0, fun edge hedge => (List.not_mem_nil hedge).elim⟩
  | cons edge rest ih =>
    obtain ⟨height, hrises⟩ := ih hforest.of_cons
    -- The tree of the child is lifted as a whole, which leaves the parent where it is.
    let lift := height edge.parent + 1 - height edge.child
    let inTree (node : Nat) : Prop := (undirected rest).Reachable edge.child node
    refine ⟨fun node => if inTree node then height node + lift else height node, ?_⟩
    refine List.forall_mem_cons.2 ⟨?_, fun other hother => ?_⟩
    · have hchild : inTree edge.child := SimpleGraph.Reachable.refl _
      have hparent : ¬ inTree edge.parent := hforest.not_reachable
      simp only [hchild, hparent, if_true, if_false, lift]
      omega
    · have hadj := adj_of_mem hother (hforest.of_cons.loopless other hother)
      have hsame : inTree other.child ↔ inTree other.parent :=
        ⟨fun htree => htree.trans hadj.reachable, fun htree => htree.trans hadj.reachable.symm⟩
      have hrise := hrises other hother
      by_cases htree : inTree other.parent
      · simp only [hsame.2 htree, htree, if_true, hrise]
        omega
      · simp only [mt hsame.1 htree, htree, if_false, hrise]

end IsForest

/-! ## Heights of tables -/

namespace Graph

/-- The two nodes are of the same tree. -/
def SameTree (graph : Graph) (left right : Nat) : Prop :=
  (undirected graph.edges).Reachable left right

/-- The root of the tree of a node that is listed first. -/
structure IsStart (graph : Graph) (node start : Nat) : Prop where
  root : start ∈ graph.roots
  tree : graph.SameTree start node
  first : ∀ root ∈ graph.roots, graph.SameTree root node → start ≤ root

/-- Heights that rise by one from parent to child and are zero at the first root. -/
structure IsElevation (graph : Graph) (height : Nat → Int) : Prop where
  rises : ∀ edge ∈ graph.edges, height edge.child = height edge.parent + 1
  starts : ∀ node start, graph.IsStart node start → height start = 0

variable {graph : Graph}

theorem IsStart.unique {node left right : Nat} (hleft : graph.IsStart node left)
    (hright : graph.IsStart node right) : left = right :=
  Nat.le_antisymm (hleft.first right hright.root hright.tree)
    (hright.first left hleft.root hleft.tree)

theorem IsStart.of_sameTree {left right start : Nat} (hsame : graph.SameTree left right)
    (hstart : graph.IsStart left start) : graph.IsStart right start where
  root := hstart.root
  tree := hstart.tree.trans hsame
  first root hroot htree := hstart.first root hroot (htree.trans hsame.symm)

/-- A forest has heights that start at the first roots. -/
theorem exists_isElevation (hforest : IsForest graph.edges) :
    ∃ height, graph.IsElevation height := by
  classical
  obtain ⟨height, hrises⟩ := hforest.exists_rising
  let ground (node : Nat) : Int :=
    if hstart : ∃ start, graph.IsStart node start then height hstart.choose else 0
  have hground {node start : Nat} (hstart : graph.IsStart node start) :
      ground node = height start := by
    have hsome : ∃ start, graph.IsStart node start := ⟨start, hstart⟩
    simp only [ground, hsome, dif_pos, hsome.choose_spec.unique hstart]
  have hsame {left right : Nat} (htree : graph.SameTree left right) :
      ground left = ground right := by
    by_cases hstart : ∃ start, graph.IsStart left start
    · obtain ⟨start, hstart⟩ := hstart
      rw [hground hstart, hground (hstart.of_sameTree htree)]
    · have hright : ¬ ∃ start, graph.IsStart right start :=
        fun ⟨start, hfound⟩ => hstart ⟨start, hfound.of_sameTree htree.symm⟩
      simp only [ground, hstart, hright, dif_neg, not_false_eq_true]
  refine ⟨fun node => height node - ground node, fun edge hedge => ?_, fun node start hstart => ?_⟩
  · have hadj := adj_of_mem hedge (hforest.loopless edge hedge)
    rw [hrises edge hedge, hsame hadj.reachable]
    omega
  · rw [hground (hstart.of_sameTree hstart.tree.symm), Int.sub_self]

/-! ## Roots -/

section Roots

variable (hcoherent : graph.IsCoherent)

include hcoherent

theorem mem_parentsOf {child parent : Nat} :
    parent ∈ graph.parentsOf child ↔ ⟨child, parent⟩ ∈ graph.edges := by
  rw [← List.count_pos_iff, ← List.count_pos_iff (a := (⟨child, parent⟩ : Edge)),
    ← hcoherent.count_parentsOf]

theorem mem_childrenOf {child parent : Nat} :
    child ∈ graph.childrenOf parent ↔ ⟨child, parent⟩ ∈ graph.edges := by
  rw [← List.count_pos_iff, ← List.count_pos_iff (a := (⟨child, parent⟩ : Edge)),
    ← hcoherent.count_childrenOf]

/-- A node that is adjacent to another is there. -/
theorem lt_size_of_adj {left right : Nat} (hadj : (undirected graph.edges).Adj left right) :
    right < graph.size := by
  rcases mem_or_mem_of_adj hadj with hedge | hedge
  · exact (hcoherent.inRange _ hedge).2
  · exact (hcoherent.inRange _ hedge).1

/-- Every tree has a root: from any node the walk to parents, each one lower than the
last, ends at one that has none. -/
theorem exists_root {height : Nat → Int}
    (hrises : ∀ edge ∈ graph.edges, height edge.child = height edge.parent + 1)
    (hforest : IsForest graph.edges) {node : Nat} (hnode : node < graph.size) :
    ∃ root ∈ graph.roots, graph.SameTree root node := by
  classical
  let tree := (Finset.range graph.size).filter fun other => graph.SameTree other node
  have hmem : node ∈ tree :=
    Finset.mem_filter.2 ⟨Finset.mem_range.2 hnode, SimpleGraph.Reachable.refl _⟩
  obtain ⟨lowest, hlowest, hleast⟩ := Finset.exists_min_image tree height ⟨node, hmem⟩
  obtain ⟨hrange, htree⟩ := Finset.mem_filter.1 hlowest
  have hparentless : graph.parentsOf lowest = [] := by
    rw [List.eq_nil_iff_forall_not_mem]
    intro parent hparent
    have hedge := (mem_parentsOf hcoherent).1 hparent
    have hadj := adj_of_mem hedge (hforest.loopless _ hedge)
    have hin : parent ∈ tree := Finset.mem_filter.2
      ⟨Finset.mem_range.2 (hcoherent.inRange _ hedge).2, hadj.reachable.symm.trans htree⟩
    have hle := hleast parent hin
    have hrise := hrises _ hedge
    simp only at hrise
    omega
  refine ⟨lowest, List.mem_filter.2 ⟨List.mem_range.2 (Finset.mem_range.1 hrange), ?_⟩, htree⟩
  rw [hparentless]
  rfl

/-- Every node of a forest has a first root. -/
theorem exists_isStart (hforest : IsForest graph.edges) {node : Nat} (hnode : node < graph.size) :
    ∃ start, graph.IsStart node start := by
  classical
  obtain ⟨height, hrises⟩ := hforest.exists_rising
  obtain ⟨root, hroot, htree⟩ := exists_root hcoherent hrises hforest hnode
  have hsome : ∃ start, start ∈ graph.roots ∧ graph.SameTree start node := ⟨root, hroot, htree⟩
  obtain ⟨hstart, hstartTree⟩ := Nat.find_spec hsome
  exact ⟨Nat.find hsome, hstart, hstartTree, fun other hother hsame =>
    Nat.find_min' hsome ⟨hother, hsame⟩⟩

end Roots

end Graph

end Crowfoot
