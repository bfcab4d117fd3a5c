import Crowfoot.Layout.Engine
import Mathlib.Data.List.Basic

/-!
# Positions

Every algorithm gives each table of a graph one position, so that laying out a
schema moves all of its tables and changes nothing else.  A schema is reduced to a
graph by the names of its tables, the numbers of their columns and the names of the
tables they refer to; two schemas that agree in these get the same positions.
-/

namespace Crowfoot

/-! ## One position for every table -/

namespace Placement

theorem length_sphere (count : Nat) (radius : Float) : (sphere count radius).length = count := by
  rw [sphere]
  split
  · simp_all
  · simp

theorem length_circle (count : Nat) (radius : Float) : (circle count radius).length = count := by
  rw [circle]
  split
  · simp_all
  · simp

theorem length_round (mode : ViewMode) (count : Nat) (params : CircleParams) :
    (round mode count params).length = count := by
  cases mode with
  | flat => exact length_circle count _
  | spatial => exact length_sphere count _

theorem length_recenter (points : List Point) : (recenter points).length = points.length :=
  List.length_map _

end Placement

/-- The walk gives out levels but adds and removes no table. -/
theorem Graph.length_visit (graph : Graph) (levels : Levels) (pending : List (Nat × Int)) :
    (graph.visit levels pending).length = levels.length := by
  fun_induction graph.visit levels pending with
  | case1 => rfl
  | case2 levels node level rest hnode ih => exact ih
  | case3 levels node level rest current hnode ih => rw [ih, List.length_set]
  | case4 levels node level rest hnode ih => rw [ih, List.length_set]

theorem Graph.length_levels (graph : Graph) : graph.levels.length = graph.size := by
  simp only [levels, List.length_map, length_visit, List.length_replicate]

theorem LevelParams.length_positions (params : LevelParams) (mode : ViewMode) (graph : Graph) :
    (params.positions mode graph).length = graph.size := by
  simp only [positions, List.length_map, List.length_zipIdx, Graph.length_levels]

namespace ForceParams

variable (params : ForceParams) (mode : ViewMode) (graph : Graph)

/-- A step of the simulation moves tables that have a mass, and keeps all of them. -/
theorem length_step {masses : List Float} {positions : List Point}
    (hmasses : masses.length = positions.length) :
    (params.step mode graph masses positions).length = positions.length := by
  simp only [step, List.length_map, List.length_zipIdx, List.length_zip, hmasses, Nat.min_self]

theorem length_repeat_step {masses : List Float} {start : List Point}
    (hmasses : masses.length = start.length) (steps : Nat) :
    (Nat.repeat (params.step mode graph masses) steps start).length = start.length := by
  induction steps with
  | zero => rfl
  | succ steps ih =>
    rw [Nat.repeat, length_step params mode graph (hmasses.trans ih.symm), ih]

theorem length_positions (start : CircleParams) :
    (params.positions start mode graph).length = graph.size := by
  have hstart := Placement.length_round mode graph.size start
  rw [positions, length_repeat_step params mode graph _ params.iterations, hstart]
  rw [hstart, List.length_map, Graph.size]

end ForceParams

theorem LayoutEngine.length_positions (engine : LayoutEngine) (algorithm : LayoutAlgorithm)
    (mode : ViewMode) (graph : Graph) :
    (engine.positions algorithm mode graph).length = graph.size := by
  refine (Placement.length_recenter _).trans ?_
  cases algorithm with
  | force => exact engine.force.length_positions mode graph engine.circle
  | hierarchical => exact engine.levels.length_positions mode graph
  | circular => exact Placement.length_round mode graph.size engine.circle

/-! ## Graphs of schemas -/

/-- What a layout goes by: the name of a table, the number of its columns and the tables
that they refer to, in order. -/
structure Footprint where
  name : String
  columnCount : Nat
  targets : List String
  deriving DecidableEq, Repr

/-- The footprint of a table. -/
def Table.footprint (table : Table) : Footprint where
  name := table.name
  columnCount := table.columns.length
  targets := table.foreignKeys.map fun key => key.2.table

/-- What a layout goes by in a schema. -/
def Schema.footprints (schema : Schema) : List Footprint :=
  schema.tables.map Table.footprint

namespace Schema

theorem columnCounts_foldl_addEdge (graph : Graph) (edges : List Edge) :
    (edges.foldl Graph.addEdge graph).columnCounts = graph.columnCounts := by
  induction edges generalizing graph with
  | nil => rfl
  | cons edge more ih => exact ih (graph.addEdge edge)

/-- The graph of a schema has a node for every table. -/
theorem size_graph (schema : Schema) : schema.graph.size = schema.tables.length := by
  rw [Graph.size, graph, columnCounts_foldl_addEdge, Graph.isolated, List.length_map]

theorem tableIndex?_eq (schema : Schema) (name : String) :
    schema.tableIndex? name =
      schema.footprints.findIdx? fun footprint => Text.sameName footprint.name name := by
  rw [footprints, List.findIdx?_map]
  rfl

/-- The edges between tables with some footprints. -/
def footprintEdges (footprints : List Footprint) : List Edge :=
  footprints.zipIdx.flatMap fun (footprint, child) =>
    footprint.targets.filterMap fun target =>
      (footprints.findIdx? fun other => Text.sameName other.name target).bind fun parent =>
        if parent = child then none else some ⟨child, parent⟩

theorem referenceEdges_eq (schema : Schema) :
    schema.referenceEdges = footprintEdges schema.footprints := by
  rw [referenceEdges, footprintEdges, footprints, List.zipIdx_map, List.flatMap_map, ← footprints]
  congr 1
  funext ⟨table, child⟩
  simp only [Prod.map_apply, id_eq, Table.footprint, List.filterMap_map]
  congr 1
  funext ⟨column, reference⟩
  simp only [Function.comp_apply, referenceEdge?, tableIndex?_eq]

/-- Schemas with the same footprints have the same graph. -/
theorem graph_congr {left right : Schema} (hsame : left.footprints = right.footprints) :
    left.graph = right.graph := by
  have hcounts (schema : Schema) : schema.tables.map (fun table => table.columns.length) =
      schema.footprints.map Footprint.columnCount := by
    rw [footprints, List.map_map]
    rfl
  rw [graph, graph, referenceEdges_eq, referenceEdges_eq, hcounts, hcounts, hsame]

end Schema

/-! ## Laid out schemas -/

/-- The table at the origin. -/
def Table.unplaced (table : Table) : Table :=
  { table with position := Point.origin }

namespace LayoutEngine

variable (engine : LayoutEngine) (algorithm : LayoutAlgorithm) (mode : ViewMode)

/-- There is a position for every table. -/
theorem length_positions_graph (schema : Schema) :
    (engine.positions algorithm mode schema.graph).length = schema.tables.length := by
  rw [length_positions, Schema.size_graph]

/-- What is seen of the tables without their positions is the same as before. -/
theorem map_layout {α : Type} (view : Table → α)
    (hview : ∀ (table : Table) position, view { table with position } = view table)
    (schema : Schema) :
    (engine.layout algorithm mode schema).tables.map view = schema.tables.map view := by
  have hlength := engine.length_positions_graph algorithm mode schema
  calc
    (engine.layout algorithm mode schema).tables.map view =
        (schema.tables.zip (engine.positions algorithm mode schema.graph)).map
          (view ∘ Prod.fst) := by
      rw [layout, List.map_zipWith, ← List.map_uncurry_zip_eq_zipWith]
      simp only [hview]
      rfl
    _ = schema.tables.map view := by
      rw [← List.map_map, List.map_fst_zip (Nat.le_of_eq hlength.symm)]

/-- Every table is at the position that the algorithm gives it. -/
theorem map_position_layout (schema : Schema) :
    (engine.layout algorithm mode schema).tables.map Table.position =
      engine.positions algorithm mode schema.graph := by
  have hlength := engine.length_positions_graph algorithm mode schema
  calc
    (engine.layout algorithm mode schema).tables.map Table.position =
        (schema.tables.zip (engine.positions algorithm mode schema.graph)).map Prod.snd := by
      rw [layout, List.map_zipWith, ← List.map_uncurry_zip_eq_zipWith]
      rfl
    _ = engine.positions algorithm mode schema.graph := List.map_snd_zip (Nat.le_of_eq hlength)

theorem footprints_layout (schema : Schema) :
    (engine.layout algorithm mode schema).footprints = schema.footprints :=
  engine.map_layout algorithm mode Table.footprint (fun _ _ => rfl) schema

/-- Tables that agree in all but their positions can be told apart by these. -/
theorem tables_eq_of_map_eq {left right : List Table}
    (hothers : left.map Table.unplaced = right.map Table.unplaced)
    (hpositions : left.map Table.position = right.map Table.position) : left = right := by
  induction left generalizing right with
  | nil => simpa using hothers.symm
  | cons first rest ih =>
    cases right with
    | nil => simp at hothers
    | cons second others =>
      obtain ⟨hfirst, hrest⟩ := List.cons.inj hothers
      obtain ⟨hposition, hpositions⟩ := List.cons.inj hpositions
      rw [ih hrest hpositions]
      congr 1
      cases first
      cases second
      simp_all [Table.unplaced]

/-- A layout moves every table to a position of its own and changes nothing else.  The
positions are those of any schema with the same footprints, so that the next layout of the
same kind has nothing to move. -/
theorem layout_repositions {schema other : Schema} (hsame : other.footprints = schema.footprints) :
    let laid := engine.layout algorithm mode schema
    laid.name = schema.name ∧ laid.format = schema.format ∧
      laid.tables.map Table.unplaced = schema.tables.map Table.unplaced ∧
      laid.tables.map Table.position = engine.positions algorithm mode schema.graph ∧
      (engine.layout algorithm mode other).tables.map Table.position =
        laid.tables.map Table.position ∧
      engine.layout algorithm mode laid = laid := by
  have hothers (schema : Schema) :=
    engine.map_layout algorithm mode Table.unplaced (fun _ _ => rfl) schema
  have hpositions {left right : Schema} (hprints : left.footprints = right.footprints) :
      (engine.layout algorithm mode left).tables.map Table.position =
        (engine.layout algorithm mode right).tables.map Table.position := by
    rw [map_position_layout, map_position_layout, Schema.graph_congr hprints]
  have hagain : (engine.layout algorithm mode (engine.layout algorithm mode schema)).tables =
      (engine.layout algorithm mode schema).tables :=
    tables_eq_of_map_eq (hothers _) (hpositions (engine.footprints_layout algorithm mode schema))
  refine ⟨rfl, rfl, hothers schema, engine.map_position_layout algorithm mode schema,
    hpositions hsame, ?_⟩
  exact congrArg (fun tables => { schema with tables }) hagain

end LayoutEngine

/-- Tables that refer to each other, to themselves, to one table twice and to no table of
the schema. -/
def tangledSchema : Schema where
  name := "plain"
  format := .sql
  tables :=
    [{ name := "users", columns :=
        [{ name := "id", type := "INT" },
          { name := "boss", type := "INT", references := some ⟨"USERS", "id", none⟩ }] },
      { name := "posts", columns :=
        [{ name := "author", type := "INT", references := some ⟨"users", "id", none⟩ },
          { name := "editor", type := "INT", references := some ⟨"Users", "id", none⟩ },
          { name := "site", type := "INT", references := some ⟨"sites", "id", none⟩ }] }]

/-- The same tables with other columns, flags, colours and positions. -/
def retouchedSchema : Schema where
  name := "drawn"
  format := .mermaid
  tables :=
    [{ name := "users", position := Point.unitX, color := "#4F86F7", isView := true, columns :=
        [{ name := "up", type := "TEXT", isForeignKey := true,
           references := some ⟨"USERS", "", some ⟨.one, .many⟩⟩ },
          { name := "key", type := "UUID", isPrimaryKey := true, nullability := .notNull }] },
      { name := "posts", position := Point.unitX, category := "Content", columns :=
        [{ name := "a", type := "UUID", references := some ⟨"users", "key", none⟩ },
          { name := "b", type := "UUID", references := some ⟨"Users", "key", none⟩ },
          { name := "c", type := "UUID", references := some ⟨"sites", "", none⟩ }] }]

theorem layout_repositions_retouchedSchema :
    retouchedSchema.footprints = tangledSchema.footprints ∧
      (({} : LayoutEngine).layout .force .spatial retouchedSchema).tables.map Table.position =
        (({} : LayoutEngine).layout .force .spatial tangledSchema).tables.map Table.position := by
  have hsame : retouchedSchema.footprints = tangledSchema.footprints := by decide
  obtain ⟨-, -, -, -, hpositions, -⟩ :=
    LayoutEngine.layout_repositions {} .force .spatial hsame
  exact ⟨hsame, hpositions⟩

end Crowfoot
