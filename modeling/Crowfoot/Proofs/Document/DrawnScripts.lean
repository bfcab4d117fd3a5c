import Crowfoot.Proofs.Mermaid.PlacedLinks
import Crowfoot.Proofs.Sql.ViewRoundTrip

/-!
# Diagrams of scripts

The schema of a script whose names and types a diagram keeps is drawn and read again
with the same tables in the same order.  Its relationships are never more than before,
and as many where the links of its views stand apart; a link next to another key to
the same table is lost.
-/

namespace Crowfoot

/-- Names that a diagram keeps and types that it can list. -/
structure Schema.FitsDiagram (schema : Schema) : Prop where
  tables : ∀ table ∈ schema.tables, Mermaid.entityName table.name = table.name
  columns : ∀ table ∈ schema.tables, ∀ column ∈ table.columns,
    Mermaid.entityName column.name = column.name
  types : ∀ table ∈ schema.tables, ∀ column ∈ table.columns, column.isVirtual = false →
    Mermaid.isAttributeWord (Mermaid.typeName column).toList = true

instance (schema : Schema) : Decidable schema.FitsDiagram :=
  decidable_of_iff
    ((∀ table ∈ schema.tables, Mermaid.entityName table.name = table.name) ∧
      (∀ table ∈ schema.tables, ∀ column ∈ table.columns,
        Mermaid.entityName column.name = column.name) ∧
      ∀ table ∈ schema.tables, ∀ column ∈ table.columns, column.isVirtual = false →
        Mermaid.isAttributeWord (Mermaid.typeName column).toList = true)
    ⟨fun ⟨htables, hcolumns, htypes⟩ => ⟨htables, hcolumns, htypes⟩,
      fun hfits => ⟨hfits.tables, hfits.columns, hfits.types⟩⟩

namespace Document

/-- Well-formed tables with references to each other can be drawn. -/
theorem areListable_of_wellFormed {schema : Schema} (hformed : Sql.WellFormed schema.tables)
    (hresolved : Sql.ReferencesResolved schema.tables) (hfits : schema.FitsDiagram) :
    Mermaid.AreListable schema.tables where
  each table htable := by
    refine ⟨hfits.tables table htable, fun column hcolumn => ?_, ?_⟩
    · obtain ⟨hmem, hlisted⟩ := List.mem_filter.1 hcolumn
      have hdefined : column.isVirtual = false := by simpa using hlisted
      exact ⟨hfits.columns table htable column hmem, hdefined,
        hfits.types table htable column hmem hdefined,
        Bool.eq_iff_iff.2 (hformed.foreignKeys table htable column hmem)⟩
    · exact (hformed.wellNamed.distinctColumns table htable).sublist
        (List.filter_sublist.map Column.name)
  labels := hfits.columns
  distinct := by
    rw [List.Nodup, List.pairwise_map]
    apply hformed.distinctTables.imp
    intro left right hdiffer hsame
    simp [hsame] at hdiffer
  references table htable column hcolumn reference hreference := by
    obtain ⟨target, htarget, hname, -⟩ :=
      hresolved table htable column hcolumn reference hreference
    exact ⟨target, htarget, hname⟩

/-- A schema of a script that is drawn and read again has the same tables in the same
order and no more relationships, and as many where links stand apart. -/
theorem readSchema?_drawn_counts {config : CategoryConfig} {text : String} {schema : Schema}
    (hread : Sql.readSchema? config text = some schema) (hfits : schema.FitsDiagram) :
    ∃ drawn, Mermaid.readSchema? config (Mermaid.schemaText schema) = some drawn ∧
      drawn.tables.map Table.name = schema.tables.map Table.name ∧
      drawn.relationshipCount ≤ schema.relationshipCount ∧
      ((∀ table ∈ schema.tables, Mermaid.LinksStandApart table) →
        drawn.relationshipCount = schema.relationshipCount) := by
  have hformed : Sql.WellFormed schema.tables := by
    rw [Sql.readSchema?_tables hread]
    exact (Sql.schemaTables_wellFormed Sql.ofScript_isDeclared).assign config
  have hresolved : Sql.ReferencesResolved schema.tables := by
    rw [Sql.readSchema?_tables hread]
    exact (Sql.schemaTables_resolved Sql.ofScript_isDeclared).assign config
  have hlistable := areListable_of_wellFormed hformed hresolved hfits
  obtain ⟨drawn, hdrawn, htables⟩ :=
    hlistable.exists_read config hformed.wellNamed.distinctColumns
  have hkeeps := List.Forall₂.flip htables
  refine ⟨drawn, hdrawn, ?_, ?_, fun hapart => ?_⟩
  · exact map_eq_of_forall₂ (hkeeps.imp fun _ _ hkept => hkept.name)
  · exact relationshipCount_le_of_forall₂ (hkeeps.imp fun _ _ hkept => hkept.atMost)
  · refine (counts_eq_of_forall₂ ?_).2
    exact forall₂_imp_of_mem hkeeps fun read _ table htable hkept =>
      ⟨hkept.name, hkept.same (hapart table htable)⟩

theorem readSchema?_drawn_counts_stackedScript :
    ∃ schema, Sql.readSchema? .standard Sql.stackedScript = some schema ∧ schema.FitsDiagram ∧
      (∀ table ∈ schema.tables, Mermaid.LinksStandApart table) ∧
      ∃ drawn, Mermaid.readSchema? .standard (Mermaid.schemaText schema) = some drawn ∧
        drawn.tables.map Table.name = schema.tables.map Table.name ∧
        drawn.relationshipCount ≤ schema.relationshipCount ∧
        drawn.relationshipCount = schema.relationshipCount := by
  have hholds : ((Sql.schemaOfStatements? .standard
      (Sql.writtenStatements Sql.stackedSchema)).map fun schema =>
        decide (schema.FitsDiagram ∧ ∀ table ∈ schema.tables, Mermaid.LinksStandApart table)) =
          some true := by
    decide +kernel
  rw [← Sql.ofScript_stackedScript, ← Sql.readSchema?] at hholds
  obtain ⟨schema, hread, hdecides⟩ := Option.map_eq_some_iff.1 hholds
  obtain ⟨hfits, hapart⟩ := of_decide_eq_true hdecides
  obtain ⟨drawn, hdrawn, hnames, hatMost, hsame⟩ := readSchema?_drawn_counts hread hfits
  exact ⟨schema, hread, hfits, hapart, drawn, hdrawn, hnames, hatMost, hsame hapart⟩

/-- A view with a column that is linked by its name to the table that the view is
linked to already. -/
def clashScript : String :=
  "CREATE TABLE users (\n    id         INT PRIMARY KEY,\n    users_name TEXT\n);\n\n" ++
    "CREATE VIEW v AS SELECT users.users_name FROM users;\n"

/-- What is written of the script. -/
def clashSchema : Schema where
  name := "clash"
  format := .sql
  tables :=
    [{ name := "users",
       columns :=
        [{ name := "id", type := "INT", isPrimaryKey := true, nullability := .notNull },
          { name := "users_name", type := "TEXT" }] },
      { name := "v", isView := true,
        columns :=
        [{ name := "users_name", type := "TEXT", sourceTable := some "users",
           sourceColumn := some "users_name" }] }]

theorem schemaText_clashSchema : Sql.schemaText clashSchema = clashScript := by
  decide +kernel

theorem clashSchema_isWritable : clashSchema.IsWritable where
  bases hsome := by
    have hnames : ∀ table ∈ clashSchema.bases, IsBareName table.name := by decide +kernel
    refine ⟨hsome, ⟨?_, by decide, ?_⟩, by decide, fun table hmem =>
      (hnames table hmem).isWritableName, ?_⟩
    · rw [DistinctNames]
      decide +kernel
    · unfold DistinctNames
      decide +kernel
    · have hbases : clashSchema.bases = [clashSchema.tables[0]] := rfl
      rw [hbases, List.forall_mem_singleton]
      simp only [clashSchema, List.getElem_cons_zero, List.forall_mem_cons]
      refine ⟨?_, ?_, by simp⟩
      · exact ⟨⟨by decide, by decide⟩, by decide, by decide, Sql.isWritableType_int, by decide,
          by decide, ⟨rfl, rfl⟩, rfl, by simp⟩
      · exact ⟨⟨by decide, by decide⟩, by decide, by decide,
          .bare ⟨by decide +kernel, by decide +kernel, by decide +kernel⟩, by decide, by decide,
          ⟨rfl, rfl⟩, rfl, by simp⟩
  views := by
    have hviews : clashSchema.views = [clashSchema.tables[1]] := rfl
    rw [hviews, List.forall_mem_singleton]
    exact Sql.isWrittenView_viewDefinitionOf (by decide +kernel) (by decide) (by decide +kernel)
      (by decide +kernel)

theorem ofScript_clashScript :
    Sql.Statement.ofScript clashScript.toList = Sql.writtenStatements clashSchema :=
  schemaText_clashSchema ▸ Sql.ofScript_schemaText_append clashSchema_isWritable

/-- The two keys of the view are drawn as two lines and read as one. -/
theorem readSchema?_drawn_clashScript :
    ∃ schema, Sql.readSchema? .standard clashScript = some schema ∧ schema.FitsDiagram ∧
      schema.relationshipCount = 2 ∧
      ∃ drawn, Mermaid.readSchema? .standard (Mermaid.schemaText schema) = some drawn ∧
        drawn.relationshipCount = 1 := by
  have hholds : ((Sql.schemaOfStatements? .standard (Sql.writtenStatements clashSchema)).map
      fun schema => decide (schema.FitsDiagram ∧ schema.relationshipCount = 2 ∧
        ∃ drawn ∈ Mermaid.readSchema? .standard (Mermaid.schemaText schema),
          drawn.relationshipCount = 1)) = some true := by
    decide +kernel
  rw [← ofScript_clashScript, ← Sql.readSchema?] at hholds
  obtain ⟨schema, hread, hdecides⟩ := Option.map_eq_some_iff.1 hholds
  obtain ⟨hfits, hcount, drawn, hdrawn, hfewer⟩ := of_decide_eq_true hdecides
  exact ⟨schema, hread, hfits, hcount, drawn, hdrawn, hfewer⟩

end Document

end Crowfoot
