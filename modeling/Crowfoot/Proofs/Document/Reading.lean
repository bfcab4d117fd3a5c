import Crowfoot.Document
import Crowfoot.Proofs.Mermaid.WellPlaced
import Crowfoot.Proofs.Sql.WellFormed

/-!
# Documents that are read

Whether a format is given or tried, what is read from a document is what one of
the two readers makes of it, and the schema says which one.
-/

namespace Crowfoot

theorem Sql.readSchema?_format {config : CategoryConfig} {text : String} {schema : Schema}
    (hread : Sql.readSchema? config text = some schema) : schema.format = .sql := by
  rw [readSchema?, schemaOfStatements?] at hread
  split at hread
  · cases hread
  · exact Option.some.inj hread ▸ rfl

theorem Mermaid.readSchema?_format {config : CategoryConfig} {text : String} {schema : Schema}
    (hread : Mermaid.readSchema? config text = some schema) : schema.format = .mermaid := by
  obtain ⟨diagram, -, rfl⟩ := Option.map_eq_some_iff.1 hread
  rfl

namespace Document

section Read

variable {config : CategoryConfig} {text : String} {schema : Schema}

theorem readAs?_format {format : Format} (hread : readAs? config format text = some schema) :
    schema.format = format := by
  cases format with
  | sql => exact Sql.readSchema?_format hread
  | mermaid => exact Mermaid.readSchema?_format hread

/-- The reader of the format that the schema has is the one that gave it. -/
theorem readAs?_of_read? {format : Option Format} (hread : read? config format text = some schema) :
    readAs? config schema.format text = some schema := by
  have hfound {format : Format} (hread : readAs? config format text = some schema) :
      readAs? config schema.format text = some schema := by
    rwa [readAs?_format hread]
  have hnonempty {format : Format}
      (hread : nonempty? (readAs? config format text) = some schema) :
      readAs? config schema.format text = some schema :=
    hfound (Option.filter_eq_some_iff.1 hread).1
  cases format with
  | some format => exact hfound hread
  | none =>
    simp only [read?, Option.or_eq_some_iff] at hread
    rcases hread with hsql | ⟨-, hmermaid | ⟨-, hsql | ⟨-, hmermaid⟩⟩⟩
    · exact hnonempty hsql
    · exact hnonempty hmermaid
    · exact hfound hsql
    · exact hfound hmermaid

end Read

end Document

/-! ## Consistent schemas -/

/-- The columns have different names, and their flags say which of them have a reference. -/
structure Table.IsConsistent (table : Table) : Prop where
  distinctColumns : DistinctNames (table.columns.map Column.name)
  foreignKeys : ∀ column ∈ table.columns, column.IsConsistent

/-- All tables are consistent. -/
def Schema.IsConsistent (schema : Schema) : Prop :=
  ∀ table ∈ schema.tables, table.IsConsistent

theorem Sql.WellFormed.isConsistent {tables : List Table} (hformed : WellFormed tables) :
    ∀ table ∈ tables, table.IsConsistent := fun table hmem =>
  ⟨List.pairwise_map.2 (hformed.distinctColumns table hmem),
    fun column hcolumn => Bool.eq_iff_iff.2 (hformed.foreignKeys table hmem column hcolumn)⟩

theorem Mermaid.WellPlaced.isConsistent {tables : List Table} (hplaced : WellPlaced tables) :
    ∀ table ∈ tables, table.IsConsistent := fun table hmem =>
  ⟨List.pairwise_map.2 (hplaced.distinctColumns table hmem),
    fun column hcolumn => Bool.eq_iff_iff.2 (hplaced.foreignKeys table hmem column hcolumn)⟩

/-- Whatever is read from a document is consistent. -/
theorem Document.isConsistent_of_read? {config : CategoryConfig} {format : Option Format}
    {text : String} {schema : Schema} (hread : read? config format text = some schema) :
    schema.IsConsistent := by
  have hfound := readAs?_of_read? hread
  cases hformat : schema.format with
  | sql =>
    rw [hformat] at hfound
    rw [Schema.IsConsistent, Sql.readSchema?_tables hfound]
    exact ((Sql.schemaTables_wellFormed Sql.ofScript_isDeclared).assign config).isConsistent
  | mermaid =>
    rw [hformat] at hfound
    obtain ⟨diagram, hdiagram, rfl⟩ := Option.map_eq_some_iff.1 hfound
    exact ((Mermaid.resolve_wellPlaced (Mermaid.ofText?_isScanned hdiagram)).assign
      config).isConsistent

end Crowfoot
