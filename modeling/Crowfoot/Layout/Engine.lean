import Crowfoot.Layout.Force
import Crowfoot.Layout.Levels

/-!
# Layouts

A layout gives every table of a schema a position; the positions are centred on the origin, and
nothing else of the schema changes.
-/

namespace Crowfoot

/-- The parameters of all layout algorithms. -/
structure LayoutEngine where
  force : ForceParams := {}
  levels : LevelParams := {}
  circle : CircleParams := {}

namespace LayoutEngine

/-- The positions that an algorithm gives the tables of a graph. -/
def positions (engine : LayoutEngine) (algorithm : LayoutAlgorithm) (mode : ViewMode)
    (graph : Graph) : List Point :=
  Placement.recenter <|
    match algorithm with
    | .force => engine.force.positions engine.circle mode graph
    | .hierarchical => engine.levels.positions mode graph
    | .circular => Placement.round mode graph.size engine.circle

/-- Lays out a schema. -/
def layout (engine : LayoutEngine) (algorithm : LayoutAlgorithm) (mode : ViewMode)
    (schema : Schema) : Schema :=
  { schema with
    tables := schema.tables.zipWith (fun table position => { table with position })
      (engine.positions algorithm mode schema.graph) }

end LayoutEngine

end Crowfoot
