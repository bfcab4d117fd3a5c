import Crowfoot.Proofs.Layout.Forests
import Mathlib.Logic.Relation

/-!
# Traversals of any graph

References may run in circles, a table may refer to itself, and a graph may fall into
any number of components.  The walk that gives out levels comes to its end all the
same, since it follows the references of a node only when it gives it its first level.
A node is then no further from zero than the number of nodes that had levels before,
which bounds all levels; a component without roots is never entered, and its nodes
stay together.
-/

namespace Crowfoot

namespace Graph

/-- The lists of neighbours belong to the nodes of the graph and hold no others. -/
structure IsInRange (graph : Graph) : Prop where
  length_parents : graph.parents.length = graph.size
  length_children : graph.children.length = graph.size
  parents : ∀ parents ∈ graph.parents, ∀ parent ∈ parents, parent < graph.size
  children : ∀ children ∈ graph.children, ∀ child ∈ children, child < graph.size

/-- A walk through some pending nodes, with the nodes whose neighbours it takes in and
the levels that it ends with.  It finds every node that it visits in the graph. -/
inductive WalksTo (graph : Graph) : Levels → List (Nat × Int) → List Nat → Levels → Prop
  | finish (levels : Levels) : WalksTo graph levels [] [] levels
  | again {levels last : Levels} {node : Nat} {current level : Int} {rest : List (Nat × Int)}
      {expanded : List Nat} (hnode : levels[node]? = some (some current))
      (hrest : WalksTo graph (levels.set node (some (max current level))) rest expanded last) :
      WalksTo graph levels ((node, level) :: rest) expanded last
  | expand {levels last : Levels} {node : Nat} {level : Int} {rest : List (Nat × Int)}
      {expanded : List Nat} (hnode : levels[node]? = some none)
      (hrest : WalksTo graph (levels.set node (some level))
        (graph.neighbours node level ++ rest) expanded last) :
      WalksTo graph levels ((node, level) :: rest) (node :: expanded) last

/-- One of the nodes refers to the other. -/
def Linked (graph : Graph) (node next : Nat) : Prop :=
  next ∈ graph.parentsOf node ∨ next ∈ graph.childrenOf node

/-- The nodes hang together. -/
def SameComponent (graph : Graph) : Nat → Nat → Prop :=
  Relation.EqvGen graph.Linked

/-- Every node that hangs together with the node has parents and children. -/
def IsRootless (graph : Graph) (node : Nat) : Prop :=
  ∀ other, graph.SameComponent node other →
    graph.parentsOf other ≠ [] ∧ graph.childrenOf other ≠ []

variable {graph : Graph}

theorem IsCoherent.isInRange (hcoherent : graph.IsCoherent) : graph.IsInRange where
  length_parents := hcoherent.length_parents
  length_children := hcoherent.length_children
  parents parents hparents parent hparent := by
    obtain ⟨child, hchild⟩ := List.mem_iff_getElem?.1 hparents
    have hmem : parent ∈ graph.parentsOf child := by
      rwa [parentsOf, List.getD_eq_getElem?_getD, hchild, Option.getD_some]
    exact (hcoherent.inRange _ ((mem_parentsOf hcoherent).1 hmem)).2
  children children hchildren child hchild := by
    obtain ⟨parent, hparent⟩ := List.mem_iff_getElem?.1 hchildren
    have hmem : child ∈ graph.childrenOf parent := by
      rwa [childrenOf, List.getD_eq_getElem?_getD, hparent, Option.getD_some]
    exact (hcoherent.inRange _ ((mem_childrenOf hcoherent).1 hmem)).1

/-! ## The walk ends -/

theorem mem_of_mem_getD {lists : List (List Nat)} {place node : Nat}
    (hmem : node ∈ lists.getD place []) : ∃ list ∈ lists, node ∈ list := by
  rw [List.getD_eq_getElem?_getD] at hmem
  cases hlist : lists[place]? with
  | none => simp [hlist] at hmem
  | some list =>
    rw [hlist, Option.getD_some] at hmem
    exact ⟨list, List.mem_of_getElem? hlist, hmem⟩

theorem mem_neighbours_iff {node next : Nat} {level nextLevel : Int} :
    (next, nextLevel) ∈ graph.neighbours node level ↔
      next ∈ graph.parentsOf node ∧ nextLevel = level - 1 ∨
        next ∈ graph.childrenOf node ∧ nextLevel = level + 1 := by
  simp only [neighbours, List.mem_append, List.mem_map, Prod.mk.injEq]
  grind

theorem IsInRange.lt_of_linked (hrange : graph.IsInRange) {node next : Nat}
    (hlinked : graph.Linked node next) : next < graph.size := by
  rcases hlinked with hparent | hchild
  · obtain ⟨parents, hparents, hmem⟩ := mem_of_mem_getD hparent
    exact hrange.parents parents hparents next hmem
  · obtain ⟨children, hchildren, hmem⟩ := mem_of_mem_getD hchild
    exact hrange.children children hchildren next hmem

theorem linked_of_mem_neighbours {node : Nat} {level : Int} {entry : Nat × Int}
    (hentry : entry ∈ graph.neighbours node level) : graph.Linked node entry.1 :=
  (mem_neighbours_iff.1 hentry).imp And.left And.left

/-- The walk through nodes of the graph comes to an end and meets no other nodes. -/
theorem IsInRange.walksTo_visit (hrange : graph.IsInRange) {levels : Levels}
    {pending : List (Nat × Int)} (hlength : levels.length = graph.size)
    (hpending : ∀ entry ∈ pending, entry.1 < graph.size) :
    ∃ expanded, graph.WalksTo levels pending expanded (graph.visit levels pending) := by
  fun_induction graph.visit levels pending with
  | case1 levels => exact ⟨[], .finish levels⟩
  | case2 levels node level rest hnode ih =>
    -- `visit` skips places outside of the graph, and none are pending
    have hbound := (List.forall_mem_cons.1 hpending).1
    rw [← hlength] at hbound
    exact absurd hbound (Nat.not_lt.2 (List.getElem?_eq_none_iff.1 hnode))
  | case3 levels node level rest current hnode ih =>
    obtain ⟨expanded, hwalk⟩ :=
      ih (List.length_set.trans hlength) (List.forall_mem_cons.1 hpending).2
    exact ⟨expanded, .again hnode hwalk⟩
  | case4 levels node level rest hnode ih =>
    have hnext : ∀ entry ∈ graph.neighbours node level, entry.1 < graph.size := fun entry hentry =>
      hrange.lt_of_linked (linked_of_mem_neighbours hentry)
    obtain ⟨expanded, hwalk⟩ := ih (List.length_set.trans hlength)
      (List.forall_mem_append.2 ⟨hnext, (List.forall_mem_cons.1 hpending).2⟩)
    exact ⟨node :: expanded, .expand hnode hwalk⟩

section Walks

variable {levels last : Levels} {pending : List (Nat × Int)} {expanded : List Nat}

theorem WalksTo.length_eq (hwalk : graph.WalksTo levels pending expanded last) :
    last.length = levels.length := by
  induction hwalk with
  | finish => rfl
  | again _ _ ih => exact ih.trans List.length_set
  | expand _ _ ih => exact ih.trans List.length_set

/-- A node that has no level afterwards is another one and had none before. -/
theorem getElem?_eq_none_of_set {levels : Levels} {node other : Nat} {level : Int}
    (hother : (levels.set node (some level))[other]? = some none) :
    node ≠ other ∧ levels[other]? = some none := by
  have hne : node ≠ other := by
    rintro rfl
    rw [List.getElem?_set_self'] at hother
    cases hnode : levels[node]? <;> simp [hnode] at hother
  rw [List.getElem?_set_ne hne] at hother
  exact ⟨hne, hother⟩

/-- The neighbours of a node are taken in when it has no level yet. -/
theorem WalksTo.fresh (hwalk : graph.WalksTo levels pending expanded last) :
    ∀ node ∈ expanded, levels[node]? = some none := by
  induction hwalk with
  | finish => simp
  | again _ _ ih => exact fun other hother => (getElem?_eq_none_of_set (ih other hother)).2
  | expand hnode _ ih =>
    exact List.forall_mem_cons.2
      ⟨hnode, fun other hother => (getElem?_eq_none_of_set (ih other hother)).2⟩

/-- The neighbours of a node are taken in once at most. -/
theorem WalksTo.nodup (hwalk : graph.WalksTo levels pending expanded last) : expanded.Nodup := by
  induction hwalk with
  | finish => exact List.nodup_nil
  | again _ _ ih => exact ih
  | expand hnode hrest ih =>
    exact List.nodup_cons.2 ⟨fun hmem => (getElem?_eq_none_of_set (hrest.fresh _ hmem)).1 rfl, ih⟩

/-! ## How far levels go -/

/-- No pending level is further from zero than there are nodes with levels, and no level
is further from zero than there are nodes; only a node that is met again may be as high. -/
structure IsBounded (levels : Levels) (pending : List (Nat × Int)) : Prop where
  pending : ∀ entry ∈ pending,
    -entry.2 + levels.count none ≤ levels.length ∧ entry.2 + levels.count none ≤ levels.length
  levels : ∀ level, some level ∈ levels → -levels.length < level ∧ level ≤ levels.length

/-- What holds of all levels and of a new one holds of all levels once it is given out. -/
theorem forall_some_mem_set {holds : Int → Prop} {node : Nat} {new : Int}
    (hlevels : ∀ level, some level ∈ levels → holds level) (hnew : holds new) :
    ∀ level, some level ∈ levels.set node (some new) → holds level := by
  intro level hlevel
  rcases List.mem_or_eq_of_mem_set hlevel with hmem | heq
  · exact hlevels level hmem
  · exact Option.some.inj heq ▸ hnew

theorem IsBounded.again {node : Nat} {current level : Int} {rest : List (Nat × Int)}
    (hbounded : IsBounded levels ((node, level) :: rest))
    (hnode : levels[node]? = some (some current)) :
    IsBounded (levels.set node (some (max current level))) rest := by
  obtain ⟨⟨-, hhigh⟩, hrest⟩ := List.forall_mem_cons.1 hbounded.pending
  have hcurrent := hbounded.levels current (List.mem_of_getElem? hnode)
  simp only at hhigh
  refine ⟨?_, ?_⟩
  · rwa [count_none_set_of_some hnode, List.length_set]
  · rw [List.length_set]
    exact forall_some_mem_set hbounded.levels (by omega)

theorem IsBounded.expand {node : Nat} {level : Int} {rest : List (Nat × Int)}
    (hbounded : IsBounded levels ((node, level) :: rest)) (hnode : levels[node]? = some none) :
    IsBounded (levels.set node (some level)) (graph.neighbours node level ++ rest) := by
  obtain ⟨⟨hlow, hhigh⟩, hrest⟩ := List.forall_mem_cons.1 hbounded.pending
  have hfewer : (levels.set node (some level)).count none < levels.count none :=
    count_none_set_of_none hnode
  simp only at hlow hhigh
  refine ⟨List.forall_mem_append.2 ⟨fun entry hentry => ?_, fun entry hentry => ?_⟩, ?_⟩
  · rw [List.length_set]
    rcases mem_neighbours_iff.1 hentry with ⟨-, hnext⟩ | ⟨-, hnext⟩ <;> omega
  · have hbound := hrest entry hentry
    rw [List.length_set]
    omega
  · rw [List.length_set]
    exact forall_some_mem_set hbounded.levels (by omega)

theorem WalksTo.isBounded (hwalk : graph.WalksTo levels pending expanded last)
    (hbounded : IsBounded levels pending) : IsBounded last [] := by
  induction hwalk with
  | finish => exact hbounded
  | again hnode _ ih => exact ih (hbounded.again hnode)
  | expand hnode _ ih => exact ih (hbounded.expand hnode)

/-! ## Components without roots -/

/-- A walk that starts outside of a part of the graph that hangs together stays outside. -/
theorem WalksTo.getElem?_apart {apart : Nat → Prop}
    (happart : ∀ node next, graph.Linked node next → apart next → apart node)
    (hwalk : graph.WalksTo levels pending expanded last)
    (hpending : ∀ entry ∈ pending, ¬ apart entry.1) {other : Nat} (hother : apart other) :
    last[other]? = levels[other]? := by
  induction hwalk with
  | finish => rfl
  | @again levels last node current level rest expanded hnode _ ih =>
    obtain ⟨hfirst, hrest⟩ := List.forall_mem_cons.1 hpending
    have hne : node ≠ other := by
      rintro rfl
      exact hfirst hother
    exact (ih hrest).trans (List.getElem?_set_ne hne)
  | @expand levels last node level rest expanded hnode _ ih =>
    obtain ⟨hfirst, hrest⟩ := List.forall_mem_cons.1 hpending
    have hne : node ≠ other := by
      rintro rfl
      exact hfirst hother
    have hnext : ∀ entry ∈ graph.neighbours node level, ¬ apart entry.1 := fun entry hentry hin =>
      hfirst (happart node entry.1 (linked_of_mem_neighbours hentry) hin)
    exact (ih (List.forall_mem_append.2 ⟨hnext, hrest⟩)).trans (List.getElem?_set_ne hne)

end Walks

theorem IsRootless.of_linked {node next : Nat} (hlinked : graph.Linked node next)
    (hrootless : graph.IsRootless next) : graph.IsRootless node :=
  fun other hother => hrootless other
    (Relation.EqvGen.trans _ _ _ (Relation.EqvGen.symm _ _ (Relation.EqvGen.rel _ _ hlinked)) hother)

theorem not_isRootless_of_mem_roots {root : Nat} (hroot : root ∈ graph.roots) :
    ¬ graph.IsRootless root := by
  intro hrootless
  obtain ⟨hparents, hchildren⟩ := hrootless root (Relation.EqvGen.refl root)
  have hempty := (List.mem_filter.1 hroot).2
  simp [hparents, hchildren] at hempty

/-! ## Levels -/

theorem leastLevel_spec {levels : List Int} (hsome : levels ≠ []) :
    leastLevel levels ∈ levels ∧ ∀ level ∈ levels, leastLevel levels ≤ level := by
  obtain ⟨first, rest, rfl⟩ := List.exists_cons_of_ne_nil hsome
  exact List.min?_eq_some_iff.1 List.min?_cons'

/-- The levels that the walk from the roots ends with. -/
def walkedLevels (graph : Graph) : Levels :=
  graph.visit (List.replicate graph.size none) (graph.roots.map (·, 0))

/-- The walked levels, zero where the walk gave none. -/
def filledLevels (graph : Graph) : List Int :=
  graph.walkedLevels.map fun level => level.getD 0

theorem levels_eq (graph : Graph) :
    graph.levels = graph.filledLevels.map (· - leastLevel graph.filledLevels) := rfl

theorem lt_size_of_mem_roots {root : Nat} (hroot : root ∈ graph.roots) : root < graph.size :=
  List.mem_range.1 (List.mem_filter.1 hroot).1

theorem length_filledLevels (graph : Graph) : graph.filledLevels.length = graph.size := by
  rw [filledLevels, List.length_map, walkedLevels, length_visit, List.length_replicate]

theorem zero_mem_levels (hsome : 0 < graph.size) : 0 ∈ graph.levels := by
  rw [← length_filledLevels] at hsome
  obtain ⟨hleast, -⟩ := leastLevel_spec (List.ne_nil_of_length_pos hsome)
  rw [levels_eq]
  exact List.mem_map.2 ⟨_, hleast, Int.sub_self _⟩

section InRange

variable (hrange : graph.IsInRange)

include hrange

theorem exists_walksTo_walkedLevels :
    ∃ expanded, graph.WalksTo (List.replicate graph.size none) (graph.roots.map (·, 0)) expanded
      graph.walkedLevels := by
  apply hrange.walksTo_visit List.length_replicate
  intro entry hentry
  obtain ⟨root, hroot, rfl⟩ := List.mem_map.1 hentry
  exact lt_size_of_mem_roots hroot

/-- Levels go up and down from zero by fewer steps than there are nodes, and one more up
for nodes that are met again. -/
theorem filledLevels_bounds :
    ∀ level ∈ graph.filledLevels, -graph.size < level ∧ level ≤ graph.size := by
  obtain ⟨expanded, hwalk⟩ := exists_walksTo_walkedLevels hrange
  -- all nodes are still without levels, which leaves no room but for zero
  have hstart : IsBounded (List.replicate graph.size none) (graph.roots.map (·, 0)) := by
    refine ⟨fun entry hentry => ?_, fun level hlevel => ?_⟩
    · obtain ⟨root, -, rfl⟩ := List.mem_map.1 hentry
      simp
    · cases (List.mem_replicate.1 hlevel).2
  have hend := (hwalk.isBounded hstart).levels
  rw [hwalk.length_eq, List.length_replicate] at hend
  intro level hlevel
  obtain ⟨walked, hwalked, rfl⟩ := List.mem_map.1 hlevel
  have hsome := List.length_pos_of_mem hlevel
  rw [length_filledLevels] at hsome
  cases walked with
  | none =>
    rw [Option.getD_none]
    omega
  | some level => exact hend level hwalked

theorem levels_bounds : ∀ level ∈ graph.levels, 0 ≤ level ∧ level < 2 * graph.size := by
  rw [levels_eq]
  intro level hlevel
  obtain ⟨filled, hfilled, rfl⟩ := List.mem_map.1 hlevel
  obtain ⟨hleast, hlower⟩ := leastLevel_spec (List.ne_nil_of_mem hfilled)
  have hle := hlower filled hfilled
  have hhigh := filledLevels_bounds hrange filled hfilled
  have hlow := filledLevels_bounds hrange _ hleast
  omega

/-- The walk leaves the level of a node in a component without roots at zero. -/
theorem levels_of_isRootless {node : Nat} (hnode : node < graph.size)
    (hrootless : graph.IsRootless node) :
    graph.levels[node]? = some (0 - leastLevel graph.filledLevels) := by
  obtain ⟨expanded, hwalk⟩ := exists_walksTo_walkedLevels hrange
  have hroots : ∀ entry ∈ graph.roots.map (·, (0 : Int)), ¬ graph.IsRootless entry.1 := by
    intro entry hentry
    obtain ⟨root, hroot, rfl⟩ := List.mem_map.1 hentry
    exact not_isRootless_of_mem_roots hroot
  have hwalked : graph.walkedLevels[node]? = some none :=
    (hwalk.getElem?_apart (fun _ _ => IsRootless.of_linked) hroots hrootless).trans
      (List.getElem?_replicate_of_lt hnode)
  rw [levels_eq, filledLevels, List.getElem?_map, List.getElem?_map, hwalked]
  rfl

end InRange

/-- How the levels of any graph are found and where they lie: a walk from the roots that
takes in the neighbours of every node once at most comes to its end; every node has a
level, between zero, which is one of them, and twice the number of nodes; and all nodes
in components without roots are on the same level. -/
structure IsLeveling (graph : Graph) (levels : List Int) : Prop where
  walk : ∃ expanded walked least,
    graph.WalksTo (List.replicate graph.size none) (graph.roots.map (·, 0)) expanded walked ∧
      expanded.Nodup ∧ levels = walked.map fun level => level.getD 0 - least
  length : levels.length = graph.size
  bounds : ∀ level ∈ levels, 0 ≤ level ∧ level < 2 * graph.size
  zero : 0 < graph.size → 0 ∈ levels
  rootless : ∃ shared, ∀ node < graph.size, graph.IsRootless node → levels[node]? = some shared

/-- The levels of a graph are such levels, whatever its edges are. -/
theorem isLeveling_levels (hrange : graph.IsInRange) : graph.IsLeveling graph.levels := by
  obtain ⟨expanded, hwalk⟩ := exists_walksTo_walkedLevels hrange
  refine
    { walk := ⟨expanded, graph.walkedLevels, leastLevel graph.filledLevels, hwalk, hwalk.nodup, ?_⟩
      length := graph.length_levels
      bounds := levels_bounds hrange
      zero := zero_mem_levels
      rootless := ⟨_, fun node hnode hrootless => levels_of_isRootless hrange hnode hrootless⟩ }
  simp only [levels_eq, filledLevels, List.map_map]
  rfl

/-- A circle below a root that refers into it twice, a node that refers to itself, a circle
without roots and a node alone. -/
def ringedGraph : Graph :=
  [⟨0, 1⟩, ⟨1, 0⟩, ⟨2, 0⟩, ⟨2, 0⟩, ⟨3, 3⟩, ⟨4, 5⟩, ⟨5, 4⟩].foldl Graph.addEdge
    (Graph.isolated [1, 1, 2, 1, 1, 1, 0])

theorem isLeveling_ringedGraph :
    ringedGraph.IsInRange ∧ ringedGraph.IsLeveling [0, 1, 1, 1, 1, 1, 1] := by
  have hrange : ringedGraph.IsInRange :=
    ((isCoherent_isolated _).foldl_addEdge (by decide)).isInRange
  have hlevels : ringedGraph.levels = [0, 1, 1, 1, 1, 1, 1] := by cbv
  exact ⟨hrange, hlevels ▸ isLeveling_levels hrange⟩

end Graph

end Crowfoot
