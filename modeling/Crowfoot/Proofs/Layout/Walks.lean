import Crowfoot.Proofs.Layout.Traversals

/-!
# Walks through graphs

The walk that gives out levels takes one pending node after the other.  In a tree that
has no levels yet it reaches everything that hangs together with the node it starts at
and gives each node its height; it changes nothing elsewhere.
-/

namespace Crowfoot

/-- The walk has given the node a level. -/
def HasLevel (levels : Levels) (node : Nat) : Prop :=
  ∃ level, levels[node]? = some (some level)

namespace Graph

variable {graph : Graph}

/-! ## Steps of a walk -/

section Steps

variable {levels : Levels} {node : Nat} {level : Int} {rest : List (Nat × Int)}

theorem visit_absent (hnode : levels[node]? = none) :
    graph.visit levels ((node, level) :: rest) = graph.visit levels rest := by
  rw [visit]
  split <;> simp_all

theorem visit_again {current : Int} (hnode : levels[node]? = some (some current)) :
    graph.visit levels ((node, level) :: rest) =
      graph.visit (levels.set node (some (max current level))) rest := by
  rw [visit]
  split <;> simp_all

theorem visit_new (hnode : levels[node]? = some none) :
    graph.visit levels ((node, level) :: rest) =
      graph.visit (levels.set node (some level)) (graph.neighbours node level ++ rest) := by
  rw [visit]
  split <;> simp_all

end Steps

/-- A walk goes on with what is pending. -/
theorem visit_append (levels : Levels) (first second : List (Nat × Int)) :
    graph.visit levels (first ++ second) = graph.visit (graph.visit levels first) second := by
  fun_induction graph.visit levels first with
  | case1 => rfl
  | case2 levels node level rest hnode ih => rw [List.cons_append, visit_absent hnode, ih]
  | case3 levels node level rest current hnode ih => rw [List.cons_append, visit_again hnode, ih]
  | case4 levels node level rest hnode ih =>
    rw [List.cons_append, visit_new hnode, ← List.append_assoc, ih]

theorem hasLevel_set {levels : Levels} {node other : Nat} {level : Int}
    (hother : HasLevel levels other) : HasLevel (levels.set node (some level)) other := by
  obtain ⟨current, hcurrent⟩ := hother
  by_cases hsame : node = other
  · subst hsame
    exact ⟨level, List.getElem?_set_self (List.getElem?_eq_some_iff.1 hcurrent).1⟩
  · exact ⟨current, (List.getElem?_set_ne hsame).trans hcurrent⟩

/-- A node keeps having a level, and those that are pending get one if they are there. -/
theorem hasLevel_visit (levels : Levels) (pending : List (Nat × Int)) {other : Nat}
    (hother : HasLevel levels other ∨ other < levels.length ∧ other ∈ pending.map Prod.fst) :
    HasLevel (graph.visit levels pending) other := by
  fun_induction graph.visit levels pending with
  | case1 => simpa using hother
  | case2 levels node level rest hnode ih =>
    refine ih (hother.imp_right fun hpending => ⟨hpending.1, ?_⟩)
    refine (List.mem_cons.1 hpending.2).resolve_left ?_
    rintro rfl
    exact absurd hpending.1 (Nat.not_lt.2 (List.getElem?_eq_none_iff.1 hnode))
  | case3 levels node level rest current hnode ih =>
    rcases hother with hlevel | ⟨hbound, hpending⟩
    · exact ih (Or.inl (hasLevel_set hlevel))
    · rcases List.mem_cons.1 hpending with rfl | hrest
      · exact ih (Or.inl (hasLevel_set ⟨current, hnode⟩))
      · exact ih (Or.inr ⟨by rwa [List.length_set], hrest⟩)
  | case4 levels node level rest hnode ih =>
    rcases hother with hlevel | ⟨hbound, hpending⟩
    · exact ih (Or.inl (hasLevel_set hlevel))
    · rcases List.mem_cons.1 hpending with rfl | hrest
      · exact ih (Or.inl ⟨level, List.getElem?_set_self hbound⟩)
      · refine ih (Or.inr ⟨by rwa [List.length_set], ?_⟩)
        rw [List.map_append]
        exact List.mem_append_right _ hrest

/-! ## Walks in a tree -/

/-- The tree holds the neighbours of its nodes, and the heights rise by one. -/
structure IsTree (graph : Graph) (height : Nat → Int) (tree : Nat → Prop) : Prop where
  rises : ∀ edge ∈ graph.edges, height edge.child = height edge.parent + 1
  adjacent : ∀ node next, tree node → (undirected graph.edges).Adj node next → tree next

/-- A walk in a tree gives out heights, and it has the neighbours of every node with a
level behind or in front of it. -/
structure IsWalk (graph : Graph) (height : Nat → Int) (tree : Nat → Prop) (levels : Levels)
    (pending : List (Nat × Int)) : Prop where
  length : levels.length = graph.size
  ahead : ∀ entry ∈ pending, tree entry.1 ∧ entry.2 = height entry.1
  heights : ∀ node level, tree node → levels[node]? = some (some level) → level = height node
  closed : ∀ node, tree node → HasLevel levels node → ∀ next,
    (undirected graph.edges).Adj node next → HasLevel levels next ∨ next ∈ pending.map Prod.fst

section Run

variable (hcoherent : graph.IsCoherent) (hforest : IsForest graph.edges) {height : Nat → Int}
  {tree : Nat → Prop} {levels : Levels} {node : Nat} {level : Int} {rest : List (Nat × Int)}

include hcoherent

theorem mem_neighbours {next : Nat} {nextLevel : Int} :
    (next, nextLevel) ∈ graph.neighbours node level ↔
      ⟨node, next⟩ ∈ graph.edges ∧ nextLevel = level - 1 ∨
        ⟨next, node⟩ ∈ graph.edges ∧ nextLevel = level + 1 := by
  rw [mem_neighbours_iff, mem_parentsOf hcoherent, mem_childrenOf hcoherent]

theorem mem_neighbours_of_adj {next : Nat} (hadj : (undirected graph.edges).Adj node next)
    (level : Int) : next ∈ (graph.neighbours node level).map Prod.fst := by
  rcases mem_or_mem_of_adj hadj with hparent | hchild
  · exact List.mem_map.2 ⟨_, (mem_neighbours hcoherent).2 (Or.inl ⟨hparent, rfl⟩), rfl⟩
  · exact List.mem_map.2 ⟨_, (mem_neighbours hcoherent).2 (Or.inr ⟨hchild, rfl⟩), rfl⟩

/-- A pending node that is not there is no neighbour of any. -/
theorem IsWalk.skip (hwalk : graph.IsWalk height tree levels ((node, level) :: rest))
    (hnode : levels[node]? = none) : graph.IsWalk height tree levels rest where
  length := hwalk.length
  ahead := (List.forall_mem_cons.1 hwalk.ahead).2
  heights := hwalk.heights
  closed other hother hlevel next hadj := by
    refine (hwalk.closed other hother hlevel next hadj).imp_right fun hpending => ?_
    refine (List.mem_cons.1 hpending).resolve_left ?_
    rintro rfl
    have hbound := lt_size_of_adj hcoherent hadj
    rw [← hwalk.length] at hbound
    exact absurd hbound (Nat.not_lt.2 (List.getElem?_eq_none_iff.1 hnode))

omit hcoherent in
/-- A node that is met again has its height and keeps it. -/
theorem IsWalk.again {current : Int}
    (hwalk : graph.IsWalk height tree levels ((node, level) :: rest))
    (hnode : levels[node]? = some (some current)) :
    levels.set node (some (max current level)) = levels ∧
      graph.IsWalk height tree levels rest := by
  obtain ⟨⟨hin, hlevel⟩, hrest⟩ := List.forall_mem_cons.1 hwalk.ahead
  have hcurrent := hwalk.heights node current hin hnode
  have hsame : max current level = current := by
    simp only at hlevel
    omega
  obtain ⟨hbound, hget⟩ := List.getElem?_eq_some_iff.1 hnode
  refine ⟨?_, hwalk.length, hrest, hwalk.heights, fun other hother hhas next hadj => ?_⟩
  · rw [hsame, ← hget, List.set_getElem_self]
  · rcases hwalk.closed other hother hhas next hadj with hnext | hpending
    · exact Or.inl hnext
    · rcases List.mem_cons.1 hpending with rfl | hahead
      · exact Or.inl ⟨current, hnode⟩
      · exact Or.inr hahead

include hforest

/-- The neighbours of a node at its height are to get theirs. -/
theorem IsTree.neighbours (htree : graph.IsTree height tree) (hnode : tree node) :
    ∀ entry ∈ graph.neighbours node (height node), tree entry.1 ∧ entry.2 = height entry.1 := by
  rintro ⟨next, level⟩ hentry
  rcases (mem_neighbours hcoherent).1 hentry with ⟨hedge, rfl⟩ | ⟨hedge, rfl⟩
  · have hadj := adj_of_mem hedge (hforest.loopless _ hedge)
    have hrise := htree.rises _ hedge
    exact ⟨htree.adjacent node next hnode hadj, by simp only at hrise ⊢; omega⟩
  · have hadj := adj_of_mem hedge (hforest.loopless _ hedge)
    have hrise := htree.rises _ hedge
    exact ⟨htree.adjacent node next hnode hadj.symm, by simp only at hrise ⊢; omega⟩

/-- A node without a level gets its height, and its neighbours come next. -/
theorem IsWalk.new (htree : graph.IsTree height tree)
    (hwalk : graph.IsWalk height tree levels ((node, level) :: rest))
    (hnode : levels[node]? = some none) :
    graph.IsWalk height tree (levels.set node (some level))
      (graph.neighbours node level ++ rest) := by
  obtain ⟨⟨hin, hlevel⟩, hrest⟩ := List.forall_mem_cons.1 hwalk.ahead
  obtain rfl : level = height node := hlevel
  have hbound := (List.getElem?_eq_some_iff.1 hnode).1
  have hself := List.getElem?_set_self (a := some (height node)) hbound
  refine ⟨(List.length_set).trans hwalk.length,
    List.forall_mem_append.2 ⟨htree.neighbours hcoherent hforest hin, hrest⟩, ?_, ?_⟩
  · intro other level hother hlevel
    by_cases hsame : node = other
    · subst hsame
      exact (Option.some.inj (Option.some.inj (hself.symm.trans hlevel))).symm
    · rw [List.getElem?_set_ne hsame] at hlevel
      exact hwalk.heights other level hother hlevel
  · intro other hother hhas next hadj
    rw [List.map_append, List.mem_append]
    by_cases hsame : node = other
    · subst hsame
      exact Or.inr (Or.inl (mem_neighbours_of_adj hcoherent hadj _))
    · obtain ⟨level, hlevel⟩ := hhas
      rw [List.getElem?_set_ne hsame] at hlevel
      rcases hwalk.closed other hother ⟨level, hlevel⟩ next hadj with hnext | hpending
      · exact Or.inl (hasLevel_set hnext)
      · rcases List.mem_cons.1 hpending with rfl | hahead
        · exact Or.inl ⟨_, hself⟩
        · exact Or.inr (Or.inr hahead)

/-- A walk in a tree comes to its end, and it changes nothing elsewhere. -/
theorem IsWalk.visit (htree : graph.IsTree height tree) {pending : List (Nat × Int)}
    (hwalk : graph.IsWalk height tree levels pending) :
    graph.IsWalk height tree (graph.visit levels pending) [] ∧
      ∀ other, ¬ tree other → (graph.visit levels pending)[other]? = levels[other]? := by
  fun_induction graph.visit levels pending with
  | case1 => exact ⟨hwalk, fun other _ => rfl⟩
  | case2 levels node level rest hnode ih => exact ih (hwalk.skip hcoherent hnode)
  | case3 levels node level rest current hnode ih =>
    obtain ⟨hsame, hrest⟩ := hwalk.again hnode
    rw [hsame] at ih ⊢
    exact ih hrest
  | case4 levels node level rest hnode ih =>
    obtain ⟨hend, helsewhere⟩ := ih (hwalk.new hcoherent hforest htree hnode)
    refine ⟨hend, fun other hother => (helsewhere other hother).trans ?_⟩
    obtain ⟨⟨hin, -⟩, -⟩ := List.forall_mem_cons.1 hwalk.ahead
    apply List.getElem?_set_ne
    rintro rfl
    exact hother hin

end Run

/-- A walk from a node at its height, in a tree without levels, gives all nodes of the
tree their heights. -/
theorem visit_freshTree (hcoherent : graph.IsCoherent) (hforest : IsForest graph.edges)
    {height : Nat → Int}
    (hrises : ∀ edge ∈ graph.edges, height edge.child = height edge.parent + 1)
    {levels : Levels} (hlength : levels.length = graph.size) {root : Nat}
    (hroot : root < graph.size)
    (hfresh : ∀ node, graph.SameTree root node → ¬ HasLevel levels node) (node : Nat) :
    (graph.SameTree root node →
      (graph.visit levels [(root, height root)])[node]? = some (some (height node))) ∧
    (¬ graph.SameTree root node →
      (graph.visit levels [(root, height root)])[node]? = levels[node]?) := by
  have htree : graph.IsTree height (graph.SameTree root) :=
    ⟨hrises, fun _ _ hnode hadj => hnode.trans hadj.reachable⟩
  have hstart : graph.IsWalk height (graph.SameTree root) levels [(root, height root)] :=
    ⟨hlength, List.forall_mem_singleton.2 ⟨SimpleGraph.Reachable.refl _, rfl⟩,
      fun other level hother hlevel => absurd ⟨level, hlevel⟩ (hfresh other hother),
      fun other hother hlevel => absurd hlevel (hfresh other hother)⟩
  obtain ⟨hend, helsewhere⟩ := hstart.visit hcoherent hforest htree
  refine ⟨fun hnode => ?_, helsewhere node⟩
  have hlevel : HasLevel (graph.visit levels [(root, height root)]) node := by
    induction (SimpleGraph.reachable_iff_reflTransGen _ _).1 hnode with
    | refl => exact hasLevel_visit _ _ (Or.inr ⟨hlength ▸ hroot, List.mem_singleton_self _⟩)
    | @tail before after hbefore hadj ih =>
      have hreached := (SimpleGraph.reachable_iff_reflTransGen _ _).2 hbefore
      exact (hend.closed before hreached (ih hreached) after hadj).resolve_right
        List.not_mem_nil
  obtain ⟨level, hlevel⟩ := hlevel
  rw [hlevel, hend.heights node level hnode hlevel]

end Graph

end Crowfoot
