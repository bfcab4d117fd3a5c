import Crowfoot.Proofs.Mermaid.Placement
import Crowfoot.Proofs.Schema.Outline
import Crowfoot.Mermaid.Schema

/-!
# Schemas of diagrams

What holds of every schema that a diagram gives, in whatever order its blocks and
relationship lines come: names are distinct, only columns with a reference are
foreign keys, and every reference leads to an entity and names the column that is
its key in the end.
-/

namespace Crowfoot.Mermaid

/-- Entities with distinct names and columns, whose references point at keys. -/
structure WellPlaced (tables : List Table) : Prop where
  distinctTables : tables.Pairwise fun left right => left.name ≠ right.name
  distinctColumns : ∀ table ∈ tables, table.columns.Pairwise fun left right =>
    Text.sameName left.name right.name = false
  foreignKeys : ∀ table ∈ tables, ∀ column ∈ table.columns,
    column.isForeignKey = true ↔ column.references.isSome = true
  nullability : ∀ table ∈ tables, ∀ column ∈ table.columns,
    column.nullability = if column.isPrimaryKey then .notNull else .unknown
  references : ∀ table ∈ tables, ∀ column ∈ table.columns,
    ∀ reference ∈ column.references, ∃ target ∈ tables, target.name = reference.table ∧
      reference.column = (target.primaryKey?.map Column.name).getD "id" ∧
        reference.cardinality.isSome = true

/-- A column that is settled differs from the one before in its mark alone. -/
theorem settleMark_eq (column : Column) :
    settleMark column = { column with isForeignKey := (settleMark column).isForeignKey } := by
  rw [settleMark]
  split <;> rfl

theorem IsKeyedColumn.settleMark_isForeignKey {keys : List (String × String)} {column : Column}
    (hcolumn : IsKeyedColumn keys column) :
    (settleMark column).isForeignKey = true ↔ column.references.isSome = true := by
  rw [settleMark]
  cases hreferences : column.references with
  | none => simp
  | some reference => simpa using hcolumn.marked (by simp [hreferences])

/-- Settling the marks of keyed tables leaves only columns with references marked. -/
theorem wellPlaced_map_settleMark {tables : List Table}
    (hdistinct : (tables.map Table.name).Nodup)
    (hkeyed : ∀ table ∈ tables, IsKeyedTable (keyNames tables) table) :
    WellPlaced (tables.map fun table =>
      { table with columns := table.columns.map settleMark }) where
  distinctTables := by
    rw [List.pairwise_map]
    exact List.pairwise_map.1 hdistinct
  distinctColumns := by
    simp only [List.forall_mem_map, List.pairwise_map]
    intro table htable
    refine (List.pairwise_map.1 (hkeyed table htable).distinct).imp ?_
    intro left right hdiffer
    rw [settleMark_eq left, settleMark_eq right]
    exact hdiffer
  foreignKeys := by
    simp only [List.forall_mem_map]
    intro table htable column hcolumn
    rw [((hkeyed table htable).columns column hcolumn).settleMark_isForeignKey, settleMark_eq]
  nullability := by
    simp only [List.forall_mem_map]
    intro table htable column hcolumn
    rw [settleMark_eq]
    exact ((hkeyed table htable).columns column hcolumn).nullability
  references := by
    simp only [List.forall_mem_map]
    intro table htable column hcolumn reference hreference
    rw [settleMark_eq] at hreference
    obtain ⟨hkey, hcardinality⟩ :=
      ((hkeyed table htable).columns column hcolumn).resolved reference hreference
    obtain ⟨target, htarget, hsame⟩ := List.mem_map.1 hkey
    obtain ⟨hname, hcolumn⟩ := Prod.mk.inj hsame
    refine ⟨_, List.mem_map_of_mem htarget, hname, ?_, hcardinality⟩
    rw [← hcolumn, ← keyOf_fst]
    apply keyOf_fst_congr
    rw [List.map_map]
    apply List.map_congr_left
    intro column _
    rw [Function.comp_apply, settleMark_eq]

theorem resolve_wellPlaced {diagram : Diagram} (hscanned : IsScanned diagram) :
    WellPlaced diagram.resolve := by
  obtain ⟨hkeys, hkeyed⟩ := foldl_placeKey_isKeyedTable
    (diagram.relationships.map Relationship.toKeyLine)
    (fun table htable => ⟨hscanned.distinctColumns table htable, fun column hcolumn =>
      (hscanned.columns table htable column hcolumn).isKeyedColumn (keyNames diagram.tables)⟩)
  apply wellPlaced_map_settleMark
  · have hnames := congrArg (List.map Prod.fst) hkeys
    simp only [keyNames, List.map_map, Function.comp_def] at hnames
    rw [hnames]
    exact hscanned.distinctTables
  · rw [hkeys]
    exact hkeyed

theorem WellPlaced.assign {tables : List Table} (hplaced : WellPlaced tables)
    (config : CategoryConfig) : WellPlaced (config.assign tables) := by
  obtain ⟨draw, hassign, hdraw⟩ := config.assign_eq_map tables
  have hkey (table : Table) : (draw table).primaryKey? = table.primaryKey? := by
    rw [Table.primaryKey?, (hdraw table).2.1, Table.primaryKey?]
  rw [hassign]
  constructor
  · rw [List.pairwise_map]
    exact hplaced.distinctTables.imp fun hdiffer => by simpa [hdraw] using hdiffer
  · simpa [hdraw] using hplaced.distinctColumns
  · simpa [hdraw] using hplaced.foreignKeys
  · simpa [hdraw] using hplaced.nullability
  · simp only [List.forall_mem_map]
    intro table htable column hcolumn reference hreference
    rw [(hdraw table).2.1] at hcolumn
    obtain ⟨target, htarget, hname, hsame⟩ :=
      hplaced.references table htable column hcolumn reference hreference
    refine ⟨draw target, List.mem_map_of_mem htarget, (hdraw target).1.trans hname, ?_⟩
    rw [hkey]
    exact hsame

/-- Every schema that is read from a diagram is well placed. -/
theorem readSchema?_wellPlaced {config : CategoryConfig} {text : String} {schema : Schema}
    (hread : readSchema? config text = some schema) : WellPlaced schema.tables := by
  obtain ⟨diagram, hdiagram, rfl⟩ := Option.map_eq_some_iff.1 hread
  exact (resolve_wellPlaced (ofText?_isScanned hdiagram)).assign config

/-- An entity that is opened again after lines that refer to it, one of them from
itself. -/
def reopeningDiagram : String :=
  "erDiagram\na \x7b\nint id FK\n\x7d\na ||--o\x7b b : x\na ||--o\x7b a : id\na \x7b\nint k PK\n\x7d"

theorem readSchema?_reopeningDiagram_wellPlaced :
    ∃ schema, readSchema? .standard reopeningDiagram = some schema ∧ WellPlaced schema.tables := by
  have hsome : (readSchema? .standard reopeningDiagram).isSome = true := by decide +kernel
  obtain ⟨schema, hread⟩ := Option.isSome_iff_exists.1 hsome
  exact ⟨schema, hread, readSchema?_wellPlaced hread⟩

end Crowfoot.Mermaid
