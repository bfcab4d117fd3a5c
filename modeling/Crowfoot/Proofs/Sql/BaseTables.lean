import Crowfoot.Proofs.Schema.Outline
import Crowfoot.Proofs.Sql.Declared
import Crowfoot.Sql.Tables

/-!
# Base tables

The tables of a script are built in two parts.  Definitions and added columns
settle which tables and columns there are; after that, every key and every
reference is a change of a single column.  The second part keeps the outline of
the first, so a reference that has once been resolved stays resolved, whatever
statements follow.
-/

namespace Crowfoot.Sql

/-! ## Definitions and added columns -/

/-- Tables as definitions and added columns make them. -/
structure IsDeclaredCatalog (tables : List Table) : Prop where
  named : WellNamed tables
  noViews : ∀ table ∈ tables, table.isView = false
  columns : ∀ table ∈ tables, ∀ column ∈ table.columns, column.IsDeclared

theorem define_isDeclaredCatalog {catalog : Catalog} {definition : TableDefinition}
    (hcatalog : IsDeclaredCatalog catalog.tables) (hdefinition : definition.IsDeclared) :
    IsDeclaredCatalog (catalog.define definition).tables := by
  rw [Catalog.define]
  split
  · exact hcatalog
  · rename_i hcolumns
    refine ⟨⟨?_, ?_, ?_⟩, ?_, ?_⟩
    · exact distinctNames_putFirst Table.name
        { name := definition.name, columns := definition.columns } hcatalog.named.distinctTables
    all_goals
      intro table hmem
      rcases mem_putFirst hmem with rfl | hold
    · simpa using hcolumns
    · exact hcatalog.named.nonempty table hold
    · exact hdefinition.names
    · exact hcatalog.named.distinctColumns table hold
    · rfl
    · exact hcatalog.noViews table hold
    · exact hdefinition.columns
    · exact hcatalog.columns table hold

theorem upsertColumn_columns_ne_nil (table : Table) (column : Column) :
    (table.upsertColumn column).columns ≠ [] :=
  List.ne_nil_of_mem (self_mem_putFirst _ _ _)

theorem addColumn_isDeclaredCatalog {catalog : Catalog} {addition : String × Clause}
    (hcatalog : IsDeclaredCatalog catalog.tables) (haddition : addition.2.IsDeclared) :
    IsDeclaredCatalog (catalog.addColumn addition).tables := by
  obtain ⟨name, clause⟩ := addition
  cases clause with
  | column declared foreignKey =>
    simp only [Catalog.addColumn]
    split
    · exact hcatalog
    · refine ⟨⟨?_, ?_, ?_⟩, ?_, ?_⟩
      · simp only [modifyTable]
        rw [map_modifyFirst Table.name (by intro element; rfl)]
        exact hcatalog.named.distinctTables
      all_goals
        intro table hmem
        rcases mem_modifyFirst hmem with hold | ⟨old, hold, _, rfl⟩
      · exact hcatalog.named.nonempty table hold
      · exact upsertColumn_columns_ne_nil old declared
      · exact hcatalog.named.distinctColumns table hold
      · exact distinctNames_putFirst Column.name declared
          (hcatalog.named.distinctColumns old hold)
      · exact hcatalog.noViews table hold
      · exact hcatalog.noViews old hold
      · exact hcatalog.columns table hold
      · intro column hcolumn
        rcases mem_putFirst hcolumn with rfl | hkept
        · exact haddition
        · exact hcatalog.columns old hold column hkept
  | primaryKey names => exact hcatalog
  | unique names => exact hcatalog
  | foreignKeys keys => exact hcatalog

section Statements

variable {statements : List Statement}

theorem tableDefinitions_isDeclared
    (hdeclared : ∀ statement ∈ statements, statement.IsDeclared) :
    ∀ definition ∈ tableDefinitions statements, definition.IsDeclared := by
  intro definition hmem
  obtain ⟨statement, hstatement, hdefinition⟩ := List.mem_filterMap.1 hmem
  cases statement with
  | createTable found =>
    obtain rfl := Option.some.inj hdefinition
    exact hdeclared _ hstatement
  | createView found => simp at hdefinition
  | alterTable found => simp at hdefinition
  | nameSchema found => simp at hdefinition

theorem additions_isDeclared (hdeclared : ∀ statement ∈ statements, statement.IsDeclared) :
    ∀ addition ∈ additions statements, addition.2.IsDeclared := by
  intro addition hmem
  obtain ⟨statement, hstatement, haddition⟩ := List.mem_flatMap.1 hmem
  cases statement with
  | alterTable alteration =>
    obtain ⟨clause, hclause, rfl⟩ := List.mem_map.1 haddition
    exact hdeclared _ hstatement clause hclause
  | createTable found => simp at haddition
  | createView found => simp at haddition
  | nameSchema found => simp at haddition

theorem catalogOf_isDeclaredCatalog
    (hdeclared : ∀ statement ∈ statements, statement.IsDeclared) :
    IsDeclaredCatalog (catalogOf statements).tables := by
  have hdefined : IsDeclaredCatalog
      ((tableDefinitions statements).foldl Catalog.define {}).tables := by
    refine List.foldlRecOn (motive := fun catalog => IsDeclaredCatalog catalog.tables)
      (tableDefinitions statements) Catalog.define ?_ ?_
    · exact ⟨⟨List.Pairwise.nil, by simp, by simp⟩, by simp, by simp⟩
    · intro catalog hcatalog definition hmem
      exact define_isDeclaredCatalog hcatalog (tableDefinitions_isDeclared hdeclared _ hmem)
  refine List.foldlRecOn (motive := fun catalog => IsDeclaredCatalog catalog.tables)
    (additions statements) Catalog.addColumn hdefined ?_
  intro catalog hcatalog addition hmem
  exact addColumn_isDeclaredCatalog hcatalog (additions_isDeclared hdeclared _ hmem)

end Statements

/-! ## Keys and references -/

theorem resolveTarget?_hasColumn {lenient : Bool} {tables : List Table}
    {foreignKey : ForeignKey} {table column : String}
    (hresolve : resolveTarget? lenient tables foreignKey = some (table, column)) :
    HasColumn tables table column := by
  simp only [resolveTarget?, Option.bind_eq_bind, Option.bind_eq_some_iff] at hresolve
  obtain ⟨found, hfound, hresolve⟩ := hresolve
  have hof {key : Column} (hkey : key ∈ found.columns)
      (hpair : some (found.name, key.name) = some (table, column)) :
      HasColumn tables table column := by
    obtain ⟨rfl, rfl⟩ := Prod.mk.inj (Option.some.inj hpair)
    exact HasColumn.of_mem (findTable?_mem hfound) hkey
  split at hresolve
  · obtain ⟨key, hkey, hpair⟩ := Option.bind_eq_some_iff.1 hresolve
    exact hof (Table.primaryKey?_mem hkey) hpair
  · split at hresolve
    · rename_i hnamed
      exact hof (Table.column?_mem hnamed) hresolve
    · split at hresolve
      · obtain ⟨key, hkey, hpair⟩ := Option.bind_eq_some_iff.1 hresolve
        exact hof (Table.primaryKey?_mem hkey) hpair
      · simp at hresolve

theorem placeForeignKey_changed (lenient : Bool) (tables : List Table) (key : PendingKey) :
    Changed tables (placeForeignKey lenient tables key) := by
  rw [placeForeignKey]
  split
  · exact .refl
  · rename_i hresolve
    exact Changed.refl.step _ _ (.refer (resolveTarget?_hasColumn hresolve))

theorem foldl_placeForeignKey_changed (lenient : Bool) (tables : List Table)
    (keys : List PendingKey) : Changed tables (keys.foldl (placeForeignKey lenient) tables) := by
  refine List.foldlRecOn keys (placeForeignKey lenient) .refl ?_
  intro placed hplaced key _
  exact hplaced.trans (placeForeignKey_changed lenient placed key)

/-- Columns of one table changed in turn are columns of the tables changed in
turn. -/
theorem modifyTable_foldl (tables : List Table) (table : String) (names : List String)
    (change : Column → Column) :
    modifyTable tables table
        (fun found => names.foldl (fun found name => found.modifyColumn name change) found) =
      names.foldl (fun tables name => changeColumn tables table name change) tables := by
  induction names generalizing tables with
  | nil => exact modifyFirst_id _ _
  | cons name rest ih =>
    rw [List.foldl_cons, ← ih]
    simp only [changeColumn, modifyTable, List.foldl_cons]
    rw [modifyFirst_modifyFirst (by intro element; rfl)]
    rfl

theorem applyKey_changed (tables : List Table) (addition : String × Clause) :
    Changed tables (applyKey tables addition) := by
  rw [applyKey]
  split
  · exact Changed.refl.step _ _ .unique
  · rw [modifyTable_foldl]
    refine List.foldlRecOn _ _ .refl ?_
    intro keyed hkeyed name _
    exact hkeyed.step _ _ .primaryKey
  · exact .refl

theorem applyForeignKeys_changed (tables : List Table) (addition : String × Clause) :
    Changed tables (applyForeignKeys tables addition) := by
  rw [applyForeignKeys]
  split
  · rename_i keys _
    refine List.foldlRecOn keys _ .refl ?_
    intro placed hplaced key _
    exact hplaced.trans (placeForeignKey_changed false placed _)
  · exact .refl

/-- Once all columns are there, statements only change columns. -/
theorem baseTables_changed (statements : List Statement) :
    Changed (catalogOf statements).tables (baseTables statements) := by
  have hreferring := foldl_placeForeignKey_changed true (catalogOf statements).tables
    (catalogOf statements).pending
  have hkeyed := List.foldlRecOn (additions statements) applyKey hreferring
    fun keyed hkeyed addition _ => hkeyed.trans (applyKey_changed keyed addition)
  exact List.foldlRecOn (additions statements) applyForeignKeys hkeyed
    fun placed hplaced addition _ => hplaced.trans (applyForeignKeys_changed placed addition)

/-- The base tables of a script: of different names, no views, with sound columns
that come from no other column. -/
structure IsBase (tables : List Table) : Prop where
  named : WellNamed tables
  noViews : ∀ table ∈ tables, table.isView = false
  sound : ∀ table ∈ tables, ∀ column ∈ table.columns, column.IsSound tables
  noLineage : ∀ table ∈ tables, ∀ column ∈ table.columns,
    column.sourceTable = none ∧ column.sourceColumn = none

theorem baseTables_isBase {statements : List Statement}
    (hdeclared : ∀ statement ∈ statements, statement.IsDeclared) :
    IsBase (baseTables statements) := by
  have hcatalog := catalogOf_isDeclaredCatalog hdeclared
  have hchanged := baseTables_changed statements
  have houtline := hchanged.outline_eq
  refine ⟨hcatalog.named.of_outline_eq houtline, ?_, ?_, ?_⟩
  · intro table hmem
    have hview : table.isView ∈ (catalogOf statements).tables.map Table.isView :=
      hchanged.map_isView ▸ List.mem_map_of_mem hmem
    obtain ⟨old, hold, heq⟩ := List.mem_map.1 hview
    rw [← heq, hcatalog.noViews old hold]
  · have hsound := hchanged.forall_column (P := Column.IsSound (catalogOf statements).tables)
      (fun table htable column hcolumn => by
        have hdeclared := hcatalog.columns table htable column hcolumn
        refine ⟨?_, hdeclared.keyNotNull, ?_⟩
        · rw [Column.IsConsistent, hdeclared.unlinked.isForeignKey, hdeclared.unlinked.references]
          rfl
        · simp [hdeclared.unlinked.references])
      (fun change hchange column hsound => hchange.isSound hsound)
    intro table htable column hcolumn
    exact (hsound table htable column hcolumn).of_hasColumn
      fun _ _ hhas => hhas.of_outline_eq houtline
  · refine hchanged.forall_column
      (P := fun column => column.sourceTable = none ∧ column.sourceColumn = none) ?_ ?_
    · intro table htable column hcolumn
      have hunlinked := (hcatalog.columns table htable column hcolumn).unlinked
      exact ⟨hunlinked.sourceTable, hunlinked.sourceColumn⟩
    · rintro _ (_ | _ | _) column hnone <;> exact hnone

end Crowfoot.Sql
