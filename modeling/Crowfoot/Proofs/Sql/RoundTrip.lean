import Crowfoot.Proofs.Sql.Rebuild
import Crowfoot.Proofs.Sql.WellFormed
import Mathlib.Data.List.Forall2

/-!
# Written schemas read back

Base tables that are written as SQL are read back with the same names in the same
order, and every column with the same name, type, flags and target.  What the
columns stored as cardinalities does not count: each is computed anew.
-/

namespace Crowfoot

/-- A column says the same as another one, cardinalities apart. -/
structure Column.Restores (read written : Column) : Prop where
  name : read.name = written.name
  type : read.type = written.type
  isPrimaryKey : read.isPrimaryKey = written.isPrimaryKey
  isUnique : read.isUnique = written.isUnique
  isForeignKey : read.isForeignKey = written.isForeignKey
  nullability : read.nullability = written.nullability
  target : (read.references.map fun reference => (reference.table, reference.column)) =
    written.references.map fun reference => (reference.table, reference.column)
  lineage : read.sourceTable = written.sourceTable ∧ read.sourceColumn = written.sourceColumn

/-- A table says the same as another one, column by column. -/
structure Table.Restores (read written : Table) : Prop where
  name : read.name = written.name
  isView : read.isView = written.isView
  columns : List.Forall₂ Column.Restores read.columns written.columns

theorem Column.restores_withCardinality (column : Column) (first second : Option Cardinality) :
    Column.Restores ((column.withCardinality first).withCardinality second) column where
  name := rfl
  type := rfl
  isPrimaryKey := rfl
  isUnique := rfl
  isForeignKey := rfl
  nullability := rfl
  target := by simp [Column.withCardinality, Function.comp_def]
  lineage := ⟨rfl, rfl⟩

namespace Sql

theorem tableDefinitions_createTable (tables : List Table) :
    tableDefinitions (tables.map fun table => .createTable (definitionOf table)) =
      tables.map definitionOf := by
  simp [tableDefinitions, List.filterMap_map]

theorem additions_createTable (tables : List Table) :
    additions (tables.map fun table => .createTable (definitionOf table)) = [] := by
  simp [additions, List.flatMap_map]

theorem viewDefinitions_createTable (tables : List Table) :
    viewDefinitions (tables.map fun table => .createTable (definitionOf table)) = [] := by
  simp [viewDefinitions, List.filterMap_map]

/-- The tables of a written schema, with cardinalities attached anew. -/
theorem schemaTables_createTable {tables : List Table} (hwritable : AreWritable tables) :
    schemaTables (tables.map fun table => .createTable (definitionOf table)) =
      attachCardinalities (tables.map bareTable) := by
  have hbase := baseTables_of_definitions (tableDefinitions_createTable tables)
    (additions_createTable tables) hwritable.wellNamed
    (fun table htable column hcolumn => (hwritable.columns table htable column hcolumn).consistent)
    (fun table htable column hcolumn => (hwritable.columns table htable column hcolumn).resolved)
  simp [schemaTables, hbase, resolveViews, viewDefinitions_createTable, linkViews]

/-- However they are drawn, tables with cardinalities attached say what the bare
ones say. -/
theorem restores_attachCardinalities {tables : List Table} {draw : Table → Table}
    (hdraw : ∀ table, (draw table).name = table.name ∧ (draw table).columns = table.columns ∧
      (draw table).isView = table.isView) (hviews : ∀ table ∈ tables, table.isView = false) :
    List.Forall₂ Table.Restores ((attachCardinalities (tables.map bareTable)).map draw) tables := by
  rw [attachCardinalities, List.map_map, List.map_map, List.forall₂_map_left_iff, List.forall₂_same]
  intro table htable
  obtain ⟨hname, hcolumns, hview⟩ := hdraw { bareTable table with
    columns := (bareTable table).columns.map (withCardinality (tables.map bareTable)) }
  refine ⟨hname, hview.trans (hviews table htable).symm, ?_⟩
  rw [Function.comp_apply, Function.comp_apply, hcolumns, bareTable, List.map_map,
    List.forall₂_map_left_iff, List.forall₂_same]
  intro column _
  exact column.restores_withCardinality none _

/-- Writing base tables and reading them back is exact. -/
theorem readSchema?_schemaText (config : CategoryConfig) {schema : Schema}
    (hwritable : AreWritable schema.tables) :
    ∃ read, readSchema? config (schemaText schema) = some read ∧
      List.Forall₂ Table.Restores read.tables schema.tables ∧ ReferencesResolved read.tables := by
  have hscript := ofScript_schemaText hwritable
  have htables := schemaTables_createTable hwritable
  have hsome : ¬ (schemaTables (Statement.ofScript (schemaText schema).toList)).isEmpty = true := by
    rw [hscript, htables]
    simpa [attachCardinalities] using hwritable.nonempty
  refine ⟨_, if_neg hsome, ?_, (schemaTables_resolved ofScript_isDeclared).assign config⟩
  obtain ⟨draw, hassign, hdraw⟩ := config.assign_eq_map
    (schemaTables (Statement.ofScript (schemaText schema).toList))
  simp only [hassign]
  rw [hscript, htables]
  exact restores_attachCardinalities hdraw hwritable.noViews

/-- Tables whose names look like other parts of a script, with a reference
forward and one to the column itself. -/
def awkwardSchema : Schema where
  name := "awkward"
  format := .sql
  tables :=
    [{ name := "a;b(",
       columns :=
        [{ name := "id", type := "INT", isPrimaryKey := true, nullability := .notNull },
          { name := "say \"--", type := "DECIMAL(10,2)", isUnique := true, isForeignKey := true,
            nullability := .nullable, references := some { table := "GO", column := "/*" } }] },
      { name := "GO",
        columns :=
        [{ name := "/*", type := "GO", isForeignKey := true,
           references := some { table := "GO", column := "/*" } }] }]

theorem isTypeWord_of_decide {word : List Char} (hplain : isPlainWord word = true)
    (hupper : word.all (fun c => c.toNat < 128 && !c.isLower) = true)
    (hkeyword : Keyword.ofWord? word = none) : IsTypeWord word where
  plain := hplain
  upper := by simpa [List.all_eq_true] using hupper
  noKeyword := hkeyword

theorem awkwardSchema_areWritable : AreWritable awkwardSchema.tables where
  nonempty := by simp [awkwardSchema]
  wellNamed := ⟨by rw [DistinctNames]; decide, by decide, by unfold DistinctNames; decide⟩
  noViews := by decide
  names := by
    simp only [awkwardSchema, List.forall_mem_cons]
    exact ⟨⟨by decide, by decide⟩, ⟨by decide, by decide⟩, by simp⟩
  columns := by
    have hint : IsWritableType "INT".toList :=
      .bare (isTypeWord_of_decide (by decide +kernel) (by decide) (by decide +kernel))
    have hgo : IsWritableType "GO".toList :=
      .bare (isTypeWord_of_decide (by decide +kernel) (by decide) (by decide +kernel))
    have hdecimal : IsWritableType
        ("DECIMAL".toList ++ ('(' :: [','].intercalate ["10".toList, "2".toList] ++ [')'])) :=
      .sized (isTypeWord_of_decide (by decide +kernel) (by decide) (by decide +kernel))
        (by
          simp only [List.forall_mem_cons]
          exact ⟨.whole (by decide) (List.all_eq_true.1 (by decide)),
            .whole (by decide) (List.all_eq_true.1 (by decide)), by simp⟩)
    have htarget : HasColumn awkwardSchema.tables "GO" "/*" :=
      ⟨_, List.mem_cons_of_mem _ List.mem_cons_self, rfl, _, List.mem_cons_self, rfl⟩
    simp only [awkwardSchema, List.forall_mem_cons]
    refine ⟨⟨?_, ?_, by simp⟩, ⟨?_, by simp⟩, by simp⟩
    · exact ⟨⟨by decide, by decide⟩, by decide, by decide, hint, fun _ => rfl, fun _ => rfl,
        ⟨rfl, rfl⟩, rfl, by simp⟩
    · refine ⟨⟨by decide, by decide⟩, by decide, by decide, hdecimal, by decide, by decide,
        ⟨rfl, rfl⟩, rfl, ?_⟩
      rintro _ ⟨⟩
      exact htarget
    · refine ⟨⟨by decide, by decide⟩, by decide, by decide, hgo, by decide, by decide,
        ⟨rfl, rfl⟩, rfl, ?_⟩
      rintro _ ⟨⟩
      exact htarget

theorem readSchema?_schemaText_awkwardSchema :
    AreWritable awkwardSchema.tables ∧
      ∃ read, readSchema? .standard (schemaText awkwardSchema) = some read ∧
        List.Forall₂ Table.Restores read.tables awkwardSchema.tables ∧
          ReferencesResolved read.tables :=
  ⟨awkwardSchema_areWritable, readSchema?_schemaText .standard awkwardSchema_areWritable⟩

end Sql

end Crowfoot
