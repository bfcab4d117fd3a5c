import Crowfoot.Proofs.Schema.Counts
import Crowfoot.Proofs.Sql.ViewRoundTrip

/-!
# Counts of schemas read again

A schema with plain names that is written as SQL and read back has the same tables
in the same order and as many relationships: base tables come back as they were,
and a view has the references it had, whatever the order of its linking columns.
With other names this may fail, since a name that is quoted in one script need not
be quoted when it is written.
-/

namespace Crowfoot.Sql

theorem map_references_of_retypes {read written : List Column}
    (hcolumns : List.Forall₂ Column.Retypes read written) :
    read.map Column.references = written.map Column.references := by
  induction hcolumns with
  | nil => rfl
  | cons hfirst _ ih => rw [List.map_cons, List.map_cons, hfirst.references_eq, ih]

/-- A table that is linked in two ways has the same number of references. -/
theorem keyCount_eq_of_relinks {read written : Table}
    (hrel : read.Relinks Column.Retypes written) : read.keyCount = written.keyCount := by
  have hcount (columns : List Column) : columns.countP (fun column => column.references.isSome) =
      (columns.map Column.references).countP Option.isSome := by
    rw [List.countP_map]
    rfl
  rw [Table.keyCount, Table.keyCount, hrel.readOrder, hrel.writtenOrder, List.countP_append,
    List.countP_append, hrel.links.countP_eq, hcount (definedColumns read),
    hcount (definedColumns written), map_references_of_retypes hrel.columns]

/-- Writing a schema with plain names and reading it back links its tables and views
again. -/
theorem exists_reread_relinks {config : CategoryConfig} {text : String} {schema : Schema}
    (hread : readSchema? config text = some schema)
    (hdistinct : DistinctNames
      ((viewDefinitions (Statement.ofScript text.toList)).map ViewDefinition.name))
    (hplain : schema.IsPlain) :
    ∃ reread, readSchema? config (schemaText schema) = some reread ∧
      List.Forall₂ (Table.Relinks Column.Retypes) reread.tables schema.tables := by
  obtain ⟨finish, hfinish, htables⟩ :=
    assign_schemaTables config (Statement.ofScript text.toList)
  have hgive : GivePlain (Statement.ofScript text.toList) finish schema :=
    ⟨hdistinct, ofScript_isDeclared, hfinish, (readSchema?_tables hread).trans htables, hplain⟩
  obtain ⟨refinish, hrefinish, hretables⟩ := assign_schemaTables config (writtenStatements schema)
  have hrelinks := hgive.relinks hrefinish
  rw [← hretables, ← ofScript_schemaText_append hgive.isWritable] at hrelinks
  have hsome :
      config.assign (schemaTables (Statement.ofScript (schemaText schema).toList)) ≠ [] := by
    intro hnone
    rw [hnone, List.forall₂_nil_left_iff] at hrelinks
    exact readSchema?_ne_nil hread hrelinks
  obtain ⟨reread, hreread, hrereadTables⟩ := exists_readSchema? hsome
  exact ⟨reread, hreread, hrereadTables ▸ hrelinks⟩

/-- A schema with plain names is read back with the same tables in the same order
and as many relationships. -/
theorem readSchema?_schemaText_counts {config : CategoryConfig} {text : String} {schema : Schema}
    (hread : readSchema? config text = some schema)
    (hdistinct : DistinctNames
      ((viewDefinitions (Statement.ofScript text.toList)).map ViewDefinition.name))
    (hplain : schema.IsPlain) :
    ∃ reread, readSchema? config (schemaText schema) = some reread ∧
      reread.tables.map Table.name = schema.tables.map Table.name ∧
      reread.relationshipCount = schema.relationshipCount := by
  obtain ⟨reread, hreread, hrelinks⟩ := exists_reread_relinks hread hdistinct hplain
  exact ⟨reread, hreread, counts_eq_of_forall₂ (hrelinks.imp fun _ _ hrel =>
    ⟨hrel.name, keyCount_eq_of_relinks hrel⟩)⟩

theorem readSchema?_schemaText_counts_stackedScript :
    ∃ schema, readSchema? .standard stackedScript = some schema ∧
      DistinctNames ((viewDefinitions (Statement.ofScript stackedScript.toList)).map
        ViewDefinition.name) ∧ schema.IsPlain ∧
      ∃ reread, readSchema? .standard (schemaText schema) = some reread ∧
        reread.tables.map Table.name = schema.tables.map Table.name ∧
        reread.relationshipCount = schema.relationshipCount := by
  obtain ⟨schema, hread, hcontents⟩ := exists_stackedSchema
  have hdistinct : DistinctNames ((viewDefinitions (Statement.ofScript stackedScript.toList)).map
      ViewDefinition.name) := by
    rw [ofScript_stackedScript, DistinctNames]
    decide +kernel
  have hplain := isPlain_of_contents hcontents stackedSchema_isPlain
  exact ⟨schema, hread, hdistinct, hplain, readSchema?_schemaText_counts hread hdistinct hplain⟩

/-- A column whose quoted name begins an index when it is written bare. -/
def indexedScript : String :=
  "CREATE TABLE t (\x22FULLTEXT\x22 INT);"

/-- What is written of a schema need not give a schema at all. -/
theorem readSchema?_schemaText_indexedScript :
    ∃ schema, readSchema? .standard indexedScript = some schema ∧
      readSchema? .standard (schemaText schema) = none := by
  have hread : ((readSchema? .standard indexedScript).map fun schema =>
      (readSchema? .standard (schemaText schema)).isNone) = some true := by
    decide +kernel
  obtain ⟨schema, hschema, hnone⟩ := Option.map_eq_some_iff.1 hread
  exact ⟨schema, hschema, Option.isNone_iff_eq_none.1 hnone⟩

end Crowfoot.Sql
