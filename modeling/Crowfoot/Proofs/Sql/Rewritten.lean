import Crowfoot.Proofs.Sql.PlainNames
import Crowfoot.Proofs.Sql.ReadViews
import Crowfoot.Proofs.Sql.Rebuild
import Crowfoot.Proofs.Sql.Relinked

/-!
# Schemas written and read again

A schema with plain names is written as definitions that give the base tables it
was read with, and its views as they were before any links.  So every view gets its
links again, and the cardinalities of references are computed from the same keys.
-/

namespace Crowfoot.Sql

/-! ## Definitions -/

section Definitions

variable (schema : Schema)

theorem tableDefinitions_writtenStatements :
    tableDefinitions (writtenStatements schema) = schema.bases.map definitionOf := by
  simp [tableDefinitions, writtenStatements, List.filterMap_map]

theorem additions_writtenStatements : additions (writtenStatements schema) = [] := by
  simp [additions, writtenStatements]

theorem viewDefinitions_writtenStatements :
    viewDefinitions (writtenStatements schema) = schema.views.map viewDefinitionOf := by
  simp [viewDefinitions, writtenStatements, List.filterMap_map]

end Definitions

/-- Attaching cardinalities and drawing leave of a table what a script says of it. -/
theorem bareTable_finished {all : List Table} {finish : Table → Table}
    (hfinish : Finishes all finish) (table : Table) :
    bareTable (finish table) = bareTable table := by
  obtain ⟨hname, -, hcolumns⟩ := hfinish table
  simp [bareTable, hname, hcolumns, withCardinality, Column.withCardinality, Function.comp_def]

theorem withCardinality_retypes {read written : Column} (hretypes : read.Retypes written)
    (all : List Table) : (withCardinality all read).Retypes (withCardinality all written) := by
  rw [hretypes]
  rfl

/-- Tables that are finished alike stay as alike as they are. -/
theorem relinks_finished {read written : Table} (hrel : read.Relinks Column.Retypes written)
    {all others : List Table} (hsame : withCardinality others = withCardinality all)
    {finish refinish : Table → Table} (hfinish : Finishes all finish)
    (hrefinish : Finishes others refinish) :
    (refinish read).Relinks Column.Retypes (finish written) := by
  obtain ⟨hname, hview, hcolumns⟩ := hfinish written
  obtain ⟨hrename, hreview, hrecolumns⟩ := hrefinish read
  rw [hsame] at hrecolumns
  obtain ⟨hdefined, hlinks⟩ := definedColumns_map (withCardinality_name all) hcolumns
  obtain ⟨hredefined, hrelinks⟩ := definedColumns_map (withCardinality_name all) hrecolumns
  refine ⟨?_, ?_, ?_, ?_, ?_, ?_, ?_⟩
  · rw [hrename, hname, hrel.name]
  · rw [hreview, hview, hrel.isView]
  · intro hbase
    rw [hrecolumns, hcolumns, hrel.base (hview.symm.trans hbase)]
  · rw [hredefined, hdefined, List.forall₂_map_left_iff, List.forall₂_map_right_iff]
    exact hrel.columns.imp fun _ _ hretypes => withCardinality_retypes hretypes all
  · rw [hrelinks, hlinks]
    exact hrel.links.map _
  · rw [hredefined, hrelinks, ← List.map_append, ← hrel.readOrder, hrecolumns]
  · rw [hdefined, hlinks, ← List.map_append, ← hrel.writtenOrder, hcolumns]

/-- A table without linking columns is the same as itself. -/
theorem relinks_refl {table : Table}
    (hdefined : ∀ column ∈ table.columns, column.isVirtual = false) :
    table.Relinks Column.Retypes table := by
  have hcolumns : table.columns = table.columns ++ [] := (List.append_nil _).symm
  obtain ⟨hown, hlinks⟩ := definedColumns_of_append hcolumns hdefined (by simp)
  refine ⟨rfl, rfl, fun _ => rfl, List.forall₂_same.2 fun _ _ => rfl, .refl _, ?_, ?_⟩
  · rw [hown, hlinks, List.append_nil]
  · rw [hown, hlinks, List.append_nil]

theorem linkViews_isKeyless {statements : List Statement}
    (hdeclared : ∀ statement ∈ statements, statement.IsDeclared) :
    ∀ view ∈ linkViews (baseTables statements) (readViews statements), IsKeyless view := by
  intro view hmem column hcolumn
  have hview := ((schemaTables_areViews hdeclared).each view hmem).columns column hcolumn
  exact ⟨hview.notPrimary, hview.notUnique⟩

namespace GivePlain

variable {statements : List Statement} {finish : Table → Table} {schema : Schema}

/-- The base tables are read as they were. -/
theorem baseTables_writtenStatements (hgive : GivePlain statements finish schema) :
    baseTables (writtenStatements schema) = baseTables statements := by
  have htables := baseTables_of_definitions (tableDefinitions_writtenStatements schema)
    (additions_writtenStatements schema) hgive.bases_wellNamed
    (fun table hmem column hcolumn => (hgive.bases_columns table hmem column hcolumn).consistent)
    (fun table hmem column hcolumn => (hgive.bases_columns table hmem column hcolumn).resolved)
  rw [htables, hgive.bases_eq, List.map_map, List.map_congr_left, List.map_id]
  intro table hmem
  rw [Function.comp_apply, bareTable_finished hgive.finishes]
  exact baseTables_bare hgive.declared table hmem

/-- The views are defined as they are written before any links. -/
theorem viewDefinitions_eq (hgive : GivePlain statements finish schema) :
    viewDefinitions (writtenStatements schema) = (readViews statements).map writtenDefinition := by
  rw [viewDefinitions_writtenStatements, hgive.views_eq, List.map_map]
  apply List.map_congr_left
  intro view hmem
  exact hgive.viewDefinitionOf_finished hmem

theorem distinct_writtenStatements (hgive : GivePlain statements finish schema) :
    DistinctNames ((viewDefinitions (writtenStatements schema)).map ViewDefinition.name) := by
  have hnamed := (readTablesAndViews_wellNamed hgive.distinct hgive.declared).distinctTables
  rw [readTablesAndViews, List.map_append, List.map_map] at hnamed
  rw [hgive.viewDefinitions_eq, List.map_map]
  exact (List.pairwise_append.1 hnamed).2.1

/-- The views are read with the columns they had before any links. -/
theorem readViews_writtenStatements (hgive : GivePlain statements finish schema) :
    List.Forall₂ Rereads (readViews (writtenStatements schema)) (readViews statements) := by
  rw [readViews, resolveViews, hgive.baseTables_writtenStatements, hgive.viewDefinitions_eq]
  exact foldl_addView_writtenDefinition (baseTables_isBase hgive.declared).named
    (resolveViews_areResolved _ hgive.distinct)
    fun table hmem => (hgive.isBareName_table table hmem).ascii

theorem declared_writtenStatements (hgive : GivePlain statements finish schema) :
    ∀ statement ∈ writtenStatements schema, statement.IsDeclared :=
  ofScript_schemaText_append hgive.isWritable ▸ ofScript_isDeclared

/-- The tables and views are read as they were, types of views apart. -/
theorem readTablesAndViews_writtenStatements (hgive : GivePlain statements finish schema) :
    List.Forall₂ Table.Retypes (readTablesAndViews (writtenStatements schema))
      (readTablesAndViews statements) := by
  rw [readTablesAndViews, readTablesAndViews, hgive.baseTables_writtenStatements]
  apply List.rel_append (List.forall₂_same.2 fun table _ => Table.Retypes.refl table)
  rw [List.forall₂_map_left_iff, List.forall₂_map_right_iff]
  exact hgive.readViews_writtenStatements.imp fun _ _ hread => hread.table

/-- The views get the links they had. -/
theorem linkViews_writtenStatements (hgive : GivePlain statements finish schema) :
    List.Forall₂ RelinksKeyless
      (linkViews (baseTables (writtenStatements schema)) (readViews (writtenStatements schema)))
      (linkViews (baseTables statements) (readViews statements)) := by
  have hdistinct := hgive.distinct_writtenStatements
  have hdeclared := hgive.declared_writtenStatements
  obtain ⟨hlength, hrereads⟩ := List.forall₂_iff_zip.1 hgive.readViews_writtenStatements
  rw [linkViews, linkViews, List.forall₂_map_left_iff, List.forall₂_map_right_iff,
    List.forall₂_iff_zip]
  refine ⟨hlength, fun {read view} hpair => ?_⟩
  obtain ⟨hread, hview⟩ := List.of_mem_zip hpair
  refine ⟨?_, linkViews_isKeyless hdeclared _ (List.mem_map_of_mem hread),
    linkViews_isKeyless hgive.declared _ (List.mem_map_of_mem hview)⟩
  exact linkView_relinks (readTablesAndViews_wellNamed hgive.distinct hgive.declared)
    (readViews_isResolved hgive.distinct view hview)
    (hgive.isVirtual_eq_false (List.mem_append_right _ (List.mem_map_of_mem hview)))
    (readTablesAndViews_wellNamed hdistinct hdeclared) (readViews_isResolved hdistinct read hread)
    hgive.readTablesAndViews_writtenStatements (hrereads hpair)

/-- References get the cardinalities they had. -/
theorem withCardinality_writtenStatements (hgive : GivePlain statements finish schema) :
    withCardinality (linkedTables (writtenStatements schema)) =
      withCardinality (linkedTables statements) := by
  have hviews := hgive.linkViews_writtenStatements
  rw [hgive.baseTables_writtenStatements] at hviews
  rw [linkedTables, linkedTables, hgive.baseTables_writtenStatements]
  exact withCardinality_relinks hviews

/-- Tables and views are the same as before, types of views apart. -/
theorem relinks (hgive : GivePlain statements finish schema) {refinish : Table → Table}
    (hrefinish : Finishes (linkedTables (writtenStatements schema)) refinish) :
    List.Forall₂ (Table.Relinks Column.Retypes)
      ((linkedTables (writtenStatements schema)).map refinish) schema.tables := by
  have hsame := hgive.withCardinality_writtenStatements
  have hall : List.Forall₂ (Table.Relinks Column.Retypes)
      (linkedTables (writtenStatements schema)) (linkedTables statements) := by
    rw [linkedTables, linkedTables]
    apply List.rel_append
    · rw [hgive.baseTables_writtenStatements, List.forall₂_same]
      exact fun table hmem =>
        relinks_refl (hgive.isVirtual_eq_false (List.mem_append_left _ hmem))
    · exact hgive.linkViews_writtenStatements.imp fun _ _ hrel => hrel.1
  rw [hgive.tables, List.forall₂_map_left_iff, List.forall₂_map_right_iff]
  exact hall.imp fun _ _ hrel => relinks_finished hrel hsame hgive.finishes hrefinish

end GivePlain

end Crowfoot.Sql
