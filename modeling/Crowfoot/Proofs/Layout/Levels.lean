import Crowfoot.Proofs.Layout.Walks

/-!
# Levels of forests

In a forest the walk from the first root of a tree gives every node of the tree its
height.  The walks from the other roots find levels there and only lift these roots to
zero where they lie below it.  An edge thus rises by exactly one level unless one of its
ends is a lifted root.
-/

namespace Crowfoot

namespace Graph

variable {graph : Graph}

/-! ## Walks from the roots -/

theorem pairwise_roots (graph : Graph) : graph.roots.Pairwise (· < ·) :=
  List.pairwise_lt_range.filter _

/-- The level that walks from all roots give a node in the end: its height, but a root is
lifted to zero. -/
def liftedHeight (graph : Graph) (height : Nat → Int) (node : Nat) : Int :=
  if node ∈ graph.roots then max (height node) 0 else height node

/-- The levels after walks from some of the roots: heights in their trees, with the roots
lifted to zero, and no levels elsewhere. -/
structure IsLeveled (graph : Graph) (height : Nat → Int) (done : List Nat) (levels : Levels) :
    Prop where
  length : levels.length = graph.size
  reached : ∀ node < graph.size, (∃ root ∈ done, graph.SameTree root node) →
    levels[node]? = some (some (if node ∈ done then max (height node) 0 else height node))
  unreached : ∀ node < graph.size, (¬ ∃ root ∈ done, graph.SameTree root node) →
    levels[node]? = some none

section Roots

variable {height : Nat → Int} {done rest : List Nat} {root : Nat} {levels : Levels}

theorem isLeveled_start (graph : Graph) (height : Nat → Int) :
    graph.IsLeveled height [] (List.replicate graph.size none) where
  length := List.length_replicate
  reached _ _ hreached := by simp at hreached
  unreached _ hnode _ := List.getElem?_replicate_of_lt hnode

/-- A root of a tree that has levels is lifted, and nothing else happens. -/
theorem IsLeveled.again (hleveled : graph.IsLeveled height done levels) (hnew : root ∉ done)
    (hroot : root < graph.size) (hreached : ∃ earlier ∈ done, graph.SameTree earlier root) :
    graph.IsLeveled height (done ++ [root]) (graph.visit levels [(root, 0)]) := by
  have hlevel := hleveled.reached root hroot hreached
  rw [if_neg hnew] at hlevel
  obtain ⟨earlier, hearlier, htree⟩ := hreached
  have hsame (node : Nat) : (∃ root' ∈ done ++ [root], graph.SameTree root' node) ↔
      ∃ root' ∈ done, graph.SameTree root' node := by
    constructor
    · rintro ⟨other, hother, hnode⟩
      rcases List.mem_append.1 hother with hdone | hlast
      · exact ⟨other, hdone, hnode⟩
      · obtain rfl := List.mem_singleton.1 hlast
        exact ⟨earlier, hearlier, htree.trans hnode⟩
    · exact fun ⟨other, hdone, hnode⟩ => ⟨other, List.mem_append_left _ hdone, hnode⟩
  rw [visit_again hlevel, visit]
  refine ⟨(List.length_set).trans hleveled.length, fun node hnode hreached => ?_,
    fun node hnode hunreached => ?_⟩
  · by_cases hself : root = node
    · subst hself
      rw [List.getElem?_set_self (hleveled.length ▸ hroot), if_pos (by simp)]
    · rw [List.getElem?_set_ne hself, hleveled.reached node hnode ((hsame node).1 hreached)]
      simp only [List.mem_append, List.mem_singleton, Ne.symm hself, or_false]
  · have hother : root ≠ node := by
      rintro rfl
      exact hunreached ⟨root, by simp, SimpleGraph.Reachable.refl _⟩
    rw [List.getElem?_set_ne hother, hleveled.unreached node hnode (mt (hsame node).2 hunreached)]

/-- A node of a tree without walked roots has no level. -/
theorem IsLeveled.not_hasLevel (hleveled : graph.IsLeveled height done levels) {node : Nat}
    (hunreached : ¬ ∃ earlier ∈ done, graph.SameTree earlier node) : ¬ HasLevel levels node := by
  rintro ⟨level, hlevel⟩
  have hnode : node < graph.size := hleveled.length ▸ (List.getElem?_eq_some_iff.1 hlevel).1
  rw [hleveled.unreached node hnode hunreached] at hlevel
  cases Option.some.inj hlevel

/-- The first root of a tree is where the tree starts. -/
theorem isStart_of_unreached (hroots : graph.roots = done ++ root :: rest)
    (hunreached : ¬ ∃ earlier ∈ done, graph.SameTree earlier root) : graph.IsStart root root := by
  have hroot : root ∈ graph.roots := hroots ▸ List.mem_append_right done List.mem_cons_self
  have hsorted := graph.pairwise_roots
  rw [hroots, List.pairwise_append] at hsorted
  refine ⟨hroot, SimpleGraph.Reachable.refl _, fun other hother htree => ?_⟩
  rw [hroots] at hother
  rcases List.mem_append.1 hother with hdone | hlater
  · exact absurd ⟨other, hdone, htree⟩ hunreached
  · rcases List.mem_cons.1 hlater with rfl | hrest
    · exact Nat.le_refl other
    · exact Nat.le_of_lt ((List.pairwise_cons.1 hsorted.2.1).1 other hrest)

variable (hcoherent : graph.IsCoherent) (hforest : IsForest graph.edges)
  (helevation : graph.IsElevation height)

include hcoherent hforest helevation

/-- The first root of a tree gives all of it heights. -/
theorem IsLeveled.first (hleveled : graph.IsLeveled height done levels)
    (hroots : graph.roots = done ++ root :: rest)
    (hunreached : ¬ ∃ earlier ∈ done, graph.SameTree earlier root) :
    graph.IsLeveled height (done ++ [root]) (graph.visit levels [(root, 0)]) := by
  have hroot : root ∈ graph.roots := hroots ▸ List.mem_append_right done List.mem_cons_self
  have hzero := helevation.starts root root (isStart_of_unreached hroots hunreached)
  have hbound := lt_size_of_mem_roots hroot
  have hfresh (node : Nat) (htree : graph.SameTree root node) : ¬ HasLevel levels node := by
    refine hleveled.not_hasLevel fun ⟨earlier, hearlier, hreached⟩ => ?_
    exact hunreached ⟨earlier, hearlier, hreached.trans htree.symm⟩
  have hwalk := visit_freshTree hcoherent hforest helevation.rises hleveled.length hbound hfresh
  rw [hzero] at hwalk
  refine ⟨(length_visit _ _ _).trans hleveled.length, fun node hnode hreached => ?_,
    fun node hnode hnone => ?_⟩
  · by_cases htree : graph.SameTree root node
    · rw [(hwalk node).1 htree]
      by_cases hself : node = root
      · subst hself
        simp [hzero]
      · have hnew : node ∉ done := fun hdone => hunreached ⟨node, hdone, htree.symm⟩
        simp [hself, hnew]
    · obtain ⟨other, hother, hnode'⟩ := hreached
      have hdone : other ∈ done := by
        rcases List.mem_append.1 hother with hdone | hlast
        · exact hdone
        · obtain rfl := List.mem_singleton.1 hlast
          exact absurd hnode' htree
      have hself : node ≠ root := by
        rintro rfl
        exact htree (SimpleGraph.Reachable.refl _)
      rw [(hwalk node).2 htree, hleveled.reached node hnode ⟨other, hdone, hnode'⟩]
      simp [hself]
  · have htree : ¬ graph.SameTree root node := fun htree => hnone ⟨root, by simp, htree⟩
    rw [(hwalk node).2 htree]
    exact hleveled.unreached node hnode fun ⟨other, hdone, hnode'⟩ =>
      hnone ⟨other, List.mem_append_left _ hdone, hnode'⟩

/-- Walks from any first part of the roots. -/
theorem isLeveled_visit (hroots : graph.roots = done ++ rest) :
    graph.IsLeveled height done
      (graph.visit (List.replicate graph.size none) (done.map (·, 0))) := by
  induction done using List.reverseRecOn generalizing rest with
  | nil =>
    rw [List.map_nil, visit]
    exact isLeveled_start graph height
  | append_singleton done root ih =>
    rw [List.append_assoc, List.singleton_append] at hroots
    have hleveled := ih hroots
    rw [List.map_append, visit_append, List.map_singleton]
    by_cases hreached : ∃ earlier ∈ done, graph.SameTree earlier root
    · have hsorted := graph.pairwise_roots
      rw [hroots, List.pairwise_append] at hsorted
      have hnew : root ∉ done := fun hdone =>
        Nat.lt_irrefl root (hsorted.2.2 root hdone root List.mem_cons_self)
      have hroot : root ∈ graph.roots := hroots ▸ List.mem_append_right done List.mem_cons_self
      exact hleveled.again hnew (lt_size_of_mem_roots hroot) hreached
    · exact hleveled.first hcoherent hforest helevation hroots hreached

/-- In a forest the levels are the lifted heights, moved together. -/
theorem exists_levels_eq :
    ∃ least, graph.levels =
      (List.range graph.size).map fun node => graph.liftedHeight height node - least := by
  have hleveled := isLeveled_visit hcoherent hforest helevation (List.append_nil _).symm
  have hwalked : graph.walkedLevels =
      (List.range graph.size).map fun node => some (graph.liftedHeight height node) := by
    rw [walkedLevels]
    apply List.ext_getElem?
    intro node
    by_cases hnode : node < graph.size
    · obtain ⟨start, hstart⟩ := exists_isStart hcoherent hforest hnode
      rw [hleveled.reached node hnode ⟨start, hstart.root, hstart.tree⟩, List.getElem?_map,
        List.getElem?_range hnode]
      rfl
    · have hbeyond := Nat.not_lt.1 hnode
      rw [List.getElem?_eq_none (hleveled.length.trans_le hbeyond), List.getElem?_eq_none]
      rwa [List.length_map, List.length_range]
  rw [levels_eq, filledLevels, hwalked]
  simp only [List.map_map]
  exact ⟨_, rfl⟩

end Roots

/-- A root that lies below the first root of its tree. -/
def IsLifted (graph : Graph) (height : Nat → Int) (node : Nat) : Prop :=
  node ∈ graph.roots ∧ height node < 0

theorem liftedHeight_of_isLifted {height : Nat → Int} {node : Nat}
    (hlifted : graph.IsLifted height node) : graph.liftedHeight height node = 0 := by
  rw [liftedHeight, if_pos hlifted.1]
  exact max_eq_right_of_lt hlifted.2

theorem liftedHeight_of_not_isLifted {height : Nat → Int} {node : Nat}
    (hnot : ¬ graph.IsLifted height node) : graph.liftedHeight height node = height node := by
  rw [liftedHeight]
  split
  · rename_i hroot
    exact max_eq_left (Int.not_lt.1 fun hlow => hnot ⟨hroot, hlow⟩)
  · rfl

/-- An edge rises by one in the lifted heights unless one of its ends is lifted. -/
theorem liftedHeight_rises_iff {height : Nat → Int} {edge : Edge}
    (hrise : height edge.child = height edge.parent + 1) :
    graph.liftedHeight height edge.child = graph.liftedHeight height edge.parent + 1 ↔
      ¬ graph.IsLifted height edge.child ∧ ¬ graph.IsLifted height edge.parent := by
  by_cases hchild : graph.IsLifted height edge.child <;>
    by_cases hparent : graph.IsLifted height edge.parent
  · rw [liftedHeight_of_isLifted hchild, liftedHeight_of_isLifted hparent]
    simp [hchild]
  · have hlow := hchild.2
    rw [liftedHeight_of_isLifted hchild, liftedHeight_of_not_isLifted hparent]
    simp only [hchild, not_true_eq_false, false_and, iff_false]
    omega
  · have hlow := hparent.2
    rw [liftedHeight_of_not_isLifted hchild, liftedHeight_of_isLifted hparent]
    simp only [hparent, not_true_eq_false, and_false, iff_false]
    omega
  · rw [liftedHeight_of_not_isLifted hchild, liftedHeight_of_not_isLifted hparent]
    simp [hchild, hparent, hrise]

/-- In a forest there are heights, measured from the first root of each tree, that are the
levels once the roots below zero are lifted to it and all is moved together.  Hence an edge
leads exactly one level up, from its parent to its child, unless one of both is lifted. -/
theorem levels_rise_iff (hcoherent : graph.IsCoherent) (hforest : IsForest graph.edges) :
    ∃ height, graph.IsElevation height ∧
      (∃ least, graph.levels =
        (List.range graph.size).map fun node => graph.liftedHeight height node - least) ∧
      ∀ edge ∈ graph.edges, ∃ child parent,
        graph.levels[edge.child]? = some child ∧ graph.levels[edge.parent]? = some parent ∧
          (child = parent + 1 ↔
            ¬ graph.IsLifted height edge.child ∧ ¬ graph.IsLifted height edge.parent) := by
  obtain ⟨height, helevation⟩ := exists_isElevation hforest
  obtain ⟨least, hlevels⟩ := exists_levels_eq hcoherent hforest helevation
  refine ⟨height, helevation, ⟨least, hlevels⟩, fun edge hedge => ?_⟩
  obtain ⟨hchild, hparent⟩ := hcoherent.inRange edge hedge
  have hget {node : Nat} (hnode : node < graph.size) :
      graph.levels[node]? = some (graph.liftedHeight height node - least) := by
    rw [hlevels, List.getElem?_map, List.getElem?_range hnode, Option.map_some]
  refine ⟨_, _, hget hchild, hget hparent, ?_⟩
  rw [← liftedHeight_rises_iff (helevation.rises edge hedge)]
  omega

/-- Comments that refer to posts, which refer to users, the referring tables first. -/
def commentsFirst : Graph :=
  [⟨0, 1⟩, ⟨1, 2⟩].foldl Graph.addEdge (Graph.isolated [3, 2, 1])

theorem isCoherent_commentsFirst : commentsFirst.IsCoherent :=
  (isCoherent_isolated _).foldl_addEdge (by decide)

theorem isForest_commentsFirst : IsForest commentsFirst.edges :=
  (IsForest.nil.cons_leaf (by decide) (by decide)).cons_leaf (by decide) (by decide)

/-- The users are lifted to the level of the comments, past the posts. -/
theorem levels_commentsFirst : commentsFirst.levels = [1, 0, 1] := by
  cbv

theorem levels_rise_iff_commentsFirst :
    commentsFirst.IsCoherent ∧ IsForest commentsFirst.edges ∧
      ∃ height, commentsFirst.IsElevation height ∧
        (∃ least, commentsFirst.levels = (List.range commentsFirst.size).map fun node =>
          commentsFirst.liftedHeight height node - least) ∧
        ∀ edge ∈ commentsFirst.edges, ∃ child parent,
          commentsFirst.levels[edge.child]? = some child ∧
            commentsFirst.levels[edge.parent]? = some parent ∧
            (child = parent + 1 ↔ ¬ commentsFirst.IsLifted height edge.child ∧
              ¬ commentsFirst.IsLifted height edge.parent) :=
  ⟨isCoherent_commentsFirst, isForest_commentsFirst,
    levels_rise_iff isCoherent_commentsFirst isForest_commentsFirst⟩

/-- A child of a lifted root is not one level above it. -/
theorem levels_commentsFirst_misled :
    commentsFirst.IsCoherent ∧ IsForest commentsFirst.edges ∧ ⟨1, 2⟩ ∈ commentsFirst.edges ∧
      commentsFirst.levels[1]? = some 0 ∧ commentsFirst.levels[2]? = some 1 := by
  refine ⟨isCoherent_commentsFirst, isForest_commentsFirst, by decide, ?_, ?_⟩ <;>
    rw [levels_commentsFirst] <;> rfl

end Graph

end Crowfoot
