import Crowfoot.Layout.Graph
import Crowfoot.Layout.Placement

/-!
# Levels

The hierarchical layout puts every table on a level, referring tables above those they refer to. A
walk over the foreign keys in both directions starts at the tables without parents or without
children. A table that the walk meets again keeps the higher level; one that it never meets gets
level zero.
-/

namespace Crowfoot

/-- The levels found so far. -/
abbrev Levels := List (Option Int)

/-- The neighbours of a table with the levels that they get from it: one less for parents, one more
for children. -/
def Graph.neighbours (graph : Graph) (node : Nat) (level : Int) : List (Nat × Int) :=
  (graph.parentsOf node).map (·, level - 1) ++ (graph.childrenOf node).map (·, level + 1)

theorem count_none_set_of_some {levels : Levels} {node : Nat} {old new : Int}
    (hold : levels[node]? = some (some old)) :
    (levels.set node (some new)).count none = levels.count none := by
  induction levels generalizing node with
  | nil => simp
  | cons first rest ih =>
    cases node with
    | zero => simp_all
    | succ node =>
      simp only [List.getElem?_cons_succ] at hold
      simp [List.count_cons, ih hold]

theorem count_none_set_of_none {levels : Levels} {node : Nat} {new : Int}
    (hold : levels[node]? = some none) :
    (levels.set node (some new)).count none < levels.count none := by
  induction levels generalizing node with
  | nil => simp at hold
  | cons first rest ih =>
    cases node with
    | zero => simp_all
    | succ node =>
      simp only [List.getElem?_cons_succ] at hold
      have := ih hold
      simp only [List.set_cons_succ, List.count_cons]
      omega

/-- Visits tables in order, each with the level it is to get, and the neighbours of a table that had
no level before the rest. -/
def Graph.visit (graph : Graph) (levels : Levels) (pending : List (Nat × Int)) : Levels :=
  match pending with
  | [] => levels
  | (node, level) :: rest =>
    match _hnode : levels[node]? with
    | none => graph.visit levels rest
    | some (some current) => graph.visit (levels.set node (some (max current level))) rest
    | some none =>
      graph.visit (levels.set node (some level)) (graph.neighbours node level ++ rest)
termination_by (levels.count none, pending.length)
decreasing_by
  · apply Prod.Lex.right
    simp
  · rw [count_none_set_of_some _hnode]
    apply Prod.Lex.right
    simp
  · exact Prod.Lex.left _ _ (count_none_set_of_none _hnode)

/-- The tables where the walk starts. -/
def Graph.roots (graph : Graph) : List Nat :=
  (List.range graph.size).filter fun node =>
    (graph.parentsOf node).isEmpty || (graph.childrenOf node).isEmpty

/-- The least of some numbers; zero when there are none. -/
def leastLevel : List Int → Int
  | [] => 0
  | first :: rest => rest.foldl min first

/-- The level of every table, the least being zero. -/
def Graph.levels (graph : Graph) : List Int :=
  let visited := graph.visit (List.replicate graph.size none) (graph.roots.map (·, 0))
  let levels := visited.map fun level => level.getD 0
  levels.map (· - leastLevel levels)

/-- Distances of the hierarchical layout. -/
structure LevelParams where
  /-- From one level to the next. -/
  levelSpacing : Float := 12.0
  /-- How much higher the next level lies, in a spatial view. -/
  levelRise : Float := 10.0
  /-- From one table to the next on a level. -/
  gridSpacing : Float := 6.0

/-- The place of the table that comes at an index among those of its level. In a flat view a level
is a row, in a spatial one an upright grid. -/
def LevelParams.place (params : LevelParams) (mode : ViewMode) (level : Int) (index count : Nat) :
    Point :=
  let depth := Float.ofInt level
  let x := depth * params.levelSpacing
  match mode with
  | .spatial =>
    let (row, column) := Placement.gridCell index count
    ⟨x, depth * params.levelRise + row * params.gridSpacing, column * params.gridSpacing⟩
  | .flat => ⟨x, 0.0, Placement.offCenter index count * params.gridSpacing⟩

/-- The hierarchical layout of a graph. -/
def LevelParams.positions (params : LevelParams) (mode : ViewMode) (graph : Graph) : List Point :=
  let levels := graph.levels
  levels.zipIdx.map fun (level, node) =>
    params.place mode level ((levels.take node).count level) (levels.count level)

end Crowfoot
