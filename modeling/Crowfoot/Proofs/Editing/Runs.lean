import Crowfoot.Editing
import Crowfoot.Proofs.Document.Reading
import Crowfoot.Proofs.Layout.Positions
import Mathlib.Logic.Relation

/-!
# Runs of edits

An editor changes a schema step by step, and each step leaves it consistent: the
columns of a table have different names, and their flags say which of them have a
reference.  So every schema that a run of edits reaches is consistent, however it
mixes changes of single columns with rewriting the whole schema.
-/

namespace Crowfoot

/-! ## Changes of tables -/

namespace Column

theorem isConsistent_referTo (column : Column) (table target : String) :
    (column.referTo table target).IsConsistent := rfl

theorem isConsistent_clearReference (column : Column) : column.clearReference.IsConsistent := rfl

end Column

theorem ColumnInput.isConsistent_toColumn (input : ColumnInput) : input.toColumn.IsConsistent := by
  unfold toColumn
  simp only
  split <;> rfl

namespace Table

variable {table : Table}

/-- A column that is put in takes the place of the one of the same name, if there is one. -/
theorem IsConsistent.upsertColumn (hconsistent : table.IsConsistent) {column : Column}
    (hcolumn : column.IsConsistent) : (table.upsertColumn column).IsConsistent where
  distinctColumns := distinctNames_putFirst Column.name column hconsistent.distinctColumns
  foreignKeys other hmem := by
    rcases mem_putFirst hmem with rfl | hold
    · exact hcolumn
    · exact hconsistent.foreignKeys other hold

theorem IsConsistent.modifyColumn (hconsistent : table.IsConsistent) (name : String)
    {change : Column → Column} (hname : ∀ column, (change column).name = column.name)
    (hchange : ∀ column, (change column).IsConsistent) :
    (table.modifyColumn name change).IsConsistent where
  distinctColumns := by
    rw [Table.modifyColumn, map_modifyFirst Column.name hname]
    exact hconsistent.distinctColumns
  foreignKeys column hmem := by
    rcases mem_modifyFirst hmem with hold | ⟨old, -, -, rfl⟩
    · exact hconsistent.foreignKeys column hold
    · exact hchange old

/-- Only the columns of a table matter. -/
theorem isConsistent_iff_of_columns_eq {other : Table} (hcolumns : other.columns = table.columns) :
    other.IsConsistent ↔ table.IsConsistent := by
  constructor
  · rintro ⟨hdistinct, hkeys⟩
    exact ⟨hcolumns ▸ hdistinct, hcolumns ▸ hkeys⟩
  · rintro ⟨hdistinct, hkeys⟩
    exact ⟨hcolumns ▸ hdistinct, hcolumns ▸ hkeys⟩

end Table

/-! ## Changes of schemas -/

namespace Schema

variable {schema edited : Schema}

/-- Schemas whose tables have the same columns are consistent together. -/
theorem IsConsistent.of_map_columns_eq (hconsistent : schema.IsConsistent)
    (hcolumns : edited.tables.map Table.columns = schema.tables.map Table.columns) :
    edited.IsConsistent := by
  intro table hmem
  have hmapped : table.columns ∈ schema.tables.map Table.columns :=
    hcolumns ▸ List.mem_map_of_mem hmem
  obtain ⟨old, hold, heq⟩ := List.mem_map.1 hmapped
  exact (Table.isConsistent_iff_of_columns_eq heq.symm).2 (hconsistent old hold)

theorem IsConsistent.modifyTable (hconsistent : schema.IsConsistent) (name : String)
    {change : Table → Table}
    (hchange : ∀ table : Table, table.IsConsistent → (change table).IsConsistent) :
    ({ schema with tables := modifyTable schema.tables name change } : Schema).IsConsistent := by
  intro table hmem
  rcases mem_modifyFirst hmem with hold | ⟨old, hold, -, rfl⟩
  · exact hconsistent table hold
  · exact hchange old (hconsistent old hold)

theorem IsConsistent.editTable (hconsistent : schema.IsConsistent) {name : String}
    {change : Table → Table} (hedit : schema.editTable name change = .ok edited)
    (hchange : ∀ table : Table, table.IsConsistent → (change table).IsConsistent) :
    edited.IsConsistent := by
  rw [Schema.editTable] at hedit
  split at hedit
  · cases hedit
  · cases hedit
    exact hconsistent.modifyTable name hchange

theorem IsConsistent.editColumn (hconsistent : schema.IsConsistent) {table column : String}
    {change : Column → Column} (hedit : schema.editColumn table column change = .ok edited)
    (hname : ∀ column, (change column).name = column.name)
    (hchange : ∀ column, (change column).IsConsistent) : edited.IsConsistent := by
  rw [Schema.editColumn] at hedit
  split at hedit
  · cases hedit
  · split at hedit
    · cases hedit
    · cases hedit
      exact hconsistent.modifyTable table fun found hfound =>
        hfound.modifyColumn column hname hchange

/-- A layout leaves the columns as they are. -/
theorem IsConsistent.layout (hconsistent : schema.IsConsistent) (engine : LayoutEngine)
    (algorithm : LayoutAlgorithm) (mode : ViewMode) :
    (engine.layout algorithm mode schema).IsConsistent :=
  hconsistent.of_map_columns_eq
    (engine.map_layout algorithm mode Table.columns (fun _ _ => rfl) schema)

/-- An edit that can be made leaves a consistent schema consistent. -/
theorem IsConsistent.edit (hconsistent : schema.IsConsistent) {change : Edit}
    (hedit : schema.edit change = .ok edited) : edited.IsConsistent := by
  cases change with
  | addTable name isView =>
    cases hedit
    exact List.forall_mem_append.2
      ⟨hconsistent, List.forall_mem_singleton.2 ⟨List.Pairwise.nil, List.forall_mem_nil _⟩⟩
  | upsertColumn table column =>
    exact hconsistent.editTable hedit fun found hfound =>
      hfound.upsertColumn column.isConsistent_toColumn
  | setReference table column targetTable targetColumn =>
    exact hconsistent.editColumn hedit (fun _ => rfl) fun found =>
      found.isConsistent_referTo targetTable targetColumn
  | clearReference table column =>
    exact hconsistent.editColumn hedit (fun _ => rfl) Column.isConsistent_clearReference
  | reparse format =>
    rw [Schema.edit] at hedit
    split at hedit
    · rename_i hread
      cases hedit
      exact Document.isConsistent_of_read? hread
    · cases hedit
  | categorize config =>
    cases hedit
    apply hconsistent.of_map_columns_eq
    obtain ⟨draw, hassign, hdraw⟩ := config.assign_eq_map schema.tables
    rw [hassign, List.map_map]
    exact List.map_congr_left fun table _ => (hdraw table).2.1
  | layout algorithm mode =>
    cases hedit
    exact hconsistent.layout {} algorithm mode

/-! ## Runs -/

/-- A step of an editor.  Besides the edits by their usual settings, it may lay out a schema with
any parameters, and write it in any format and read it again with any hint and categories. -/
inductive Step : Schema → Schema → Prop
  | edit {schema edited : Schema} (change : Edit) (hedit : schema.edit change = .ok edited) :
      Step schema edited
  | layout (engine : LayoutEngine) (algorithm : LayoutAlgorithm) (mode : ViewMode)
      (schema : Schema) : Step schema (engine.layout algorithm mode schema)
  | rewrite {schema edited : Schema} (config : CategoryConfig) (format hint : Option Format)
      (hread : Document.read? config hint (Document.write format schema) = some edited) :
      Step schema edited

/-- Any number of steps leads from one schema to the other. -/
abbrev Reaches : Schema → Schema → Prop :=
  Relation.ReflTransGen Step

theorem IsConsistent.step (hconsistent : schema.IsConsistent) (hstep : Step schema edited) :
    edited.IsConsistent := by
  cases hstep with
  | edit change hedit => exact hconsistent.edit hedit
  | layout engine algorithm mode => exact hconsistent.layout engine algorithm mode
  | rewrite config format hint hread => exact Document.isConsistent_of_read? hread

theorem IsConsistent.run (hconsistent : schema.IsConsistent) (hrun : Reaches schema edited) :
    edited.IsConsistent := by
  induction hrun with
  | refl => exact hconsistent
  | tail _ hstep ih => exact ih.step hstep

/-- Edits made one after the other are steps; those that cannot be made are none. -/
theorem reaches_editAll (schema : Schema) (changes : List Edit) :
    Reaches schema (schema.editAll changes) := by
  induction changes generalizing schema with
  | nil => exact .refl
  | cons change more ih =>
    refine Relation.ReflTransGen.trans ?_ (ih (schema.tryEdit change))
    rw [Schema.tryEdit]
    split
    · rename_i hedit
      exact .single (.edit change hedit)
    · exact .refl

/-- What an editor starts with: no table, or what is read from a text. -/
inductive IsStart : Schema → Prop
  | empty (name : String) (format : Format) : IsStart { name, format }
  | read {config : CategoryConfig} {format : Option Format} {text : String} {schema : Schema}
      (hread : Document.read? config format text = some schema) : IsStart schema

theorem IsStart.isConsistent (hstart : schema.IsStart) : schema.IsConsistent := by
  cases hstart with
  | empty name format => exact List.forall_mem_nil _
  | read hread => exact Document.isConsistent_of_read? hread

/-- In every schema that an editor reaches, the columns of each table have different names up to
case, and a column is marked as a foreign key exactly when it has a reference. -/
theorem isConsistent_of_reaches (hstart : schema.IsStart) (hrun : Reaches schema edited) :
    ∀ table ∈ edited.tables,
      DistinctNames (table.columns.map Column.name) ∧
        ∀ column ∈ table.columns,
          column.isForeignKey = true ↔ column.references.isSome = true := by
  intro table hmem
  have hconsistent := hstart.isConsistent.run hrun table hmem
  exact ⟨hconsistent.distinctColumns,
    fun column hcolumn => Bool.eq_iff_iff.1 (hconsistent.foreignKeys column hcolumn)⟩

/-- A run with an edit of every kind, some of which cannot be made. -/
def mixedRun : List Edit :=
  [.addTable "c" false, .upsertColumn "C" { name := "key", isPrimaryKey := true },
    .upsertColumn "c" { name := "KEY", isUnique := true }, .setReference "c" "Key" "nobody" "id",
    .clearReference "a" "y", .clearReference "a" "missing", .categorize .standard,
    .layout .force .spatial, .reparse (some .mermaid), .reparse none]

theorem isConsistent_of_reaches_mixedRun :
    ∃ schema : Schema, schema.IsStart ∧ Reaches schema (schema.editAll mixedRun) ∧
      ∀ table ∈ (schema.editAll mixedRun).tables,
        DistinctNames (table.columns.map Column.name) ∧
          ∀ column ∈ table.columns,
            column.isForeignKey = true ↔ column.references.isSome = true := by
  obtain ⟨schema, hread⟩ := Option.isSome_iff_exists.1 Sql.isSome_readSchema?_linkedScript
  have hstart : schema.IsStart :=
    .read (show Document.read? .standard (some .sql) Sql.linkedScript = some schema from hread)
  have hrun := reaches_editAll schema mixedRun
  exact ⟨schema, hstart, hrun, isConsistent_of_reaches hstart hrun⟩

end Schema

end Crowfoot
