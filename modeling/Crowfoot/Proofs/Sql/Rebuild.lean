import Crowfoot.Proofs.Sql.BaseTables
import Crowfoot.Proofs.Sql.ReadTables
import Crowfoot.Sql.Schema

/-!
# Tables from their own definitions

Tables are defined one after the other, first without their references; then all
references are put on their columns.  Names being distinct, each of these steps
changes exactly the columns it names, so that every column gets back the
reference it had, whether its target comes before it, after it or is itself.
-/

namespace Crowfoot

namespace Sql

/-! ## Definitions -/

/-- A table without its references. -/
def unlinkedTable (table : Table) : Table where
  name := table.name
  columns := table.columns.map Column.clearReference

/-- The foreign keys that the definitions of tables declare. -/
def pendingOf (tables : List Table) : List PendingKey :=
  tables.flatMap fun table => (table.columns.filterMap foreignKeyOf?).map (⟨table.name, ·⟩)

theorem mem_pendingOf {tables : List Table} {key : PendingKey} :
    key ∈ pendingOf tables ↔ ∃ table ∈ tables, ∃ column ∈ table.columns,
      ∃ reference, column.references = some reference ∧
        key = ⟨table.name, column.name, reference.table, some reference.column⟩ := by
  constructor
  · intro hmem
    obtain ⟨table, htable, hkey⟩ := List.mem_flatMap.1 hmem
    obtain ⟨foreignKey, hforeign, rfl⟩ := List.mem_map.1 hkey
    obtain ⟨column, hcolumn, hdeclared⟩ := List.mem_filterMap.1 hforeign
    obtain ⟨reference, hreference, rfl⟩ := Option.map_eq_some_iff.1 hdeclared
    exact ⟨table, htable, column, hcolumn, reference, hreference, rfl⟩
  · rintro ⟨table, htable, column, hcolumn, reference, hreference, rfl⟩
    refine List.mem_flatMap.2 ⟨table, htable, List.mem_map_of_mem ?_⟩
    exact List.mem_filterMap.2 ⟨column, hcolumn, by rw [foreignKeyOf?, hreference, Option.map_some]⟩

/-- A definition of a new name is added to the catalog and takes nothing away. -/
theorem define_definitionOf {done : List Table} {table : Table}
    (hdistinct : DistinctNames ((done ++ [table]).map Table.name)) (hsome : table.columns ≠ []) :
    Catalog.define ⟨done.map unlinkedTable, pendingOf done⟩ (definitionOf table) =
      ⟨(done ++ [table]).map unlinkedTable, pendingOf (done ++ [table])⟩ := by
  have hcolumns : ¬ (definitionOf table).columns.isEmpty = true := by
    simpa [definitionOf] using hsome
  have htables : putFirst (fun old => Text.sameName old.name table.name) (unlinkedTable table)
      (done.map unlinkedTable) = done.map unlinkedTable ++ [unlinkedTable table] := by
    apply putFirst_of_distinctNames Table.name (unlinkedTable table)
    simpa [unlinkedTable, Function.comp_def] using hdistinct
  have hpending : (pendingOf done).filter (fun key => !Text.sameName key.table table.name) =
      pendingOf done := by
    rw [List.filter_eq_self]
    intro key hkey
    obtain ⟨old, hold, column, hcolumn, reference, hreference, rfl⟩ := mem_pendingOf.1 hkey
    rw [List.map_append, DistinctNames, List.pairwise_append] at hdistinct
    have hdiffer := hdistinct.2.2 old.name (List.mem_map_of_mem hold) table.name (by simp)
    simp [hdiffer]
  have hlast : pendingOf (done ++ [table]) = pendingOf done ++
      (definitionOf table).foreignKeys.map (⟨table.name, ·⟩) := by
    simp [pendingOf, definitionOf]
  rw [Catalog.define, if_neg hcolumns, hlast, List.map_append, List.map_singleton, ← htables]
  exact congrArg (Catalog.mk _) (congrArg (· ++ _) hpending)

theorem foldl_define (done : List Table) {rest : List Table}
    (hdistinct : DistinctNames ((done ++ rest).map Table.name))
    (hsome : ∀ table ∈ rest, table.columns ≠ []) :
    (rest.map definitionOf).foldl Catalog.define ⟨done.map unlinkedTable, pendingOf done⟩ =
      ⟨(done ++ rest).map unlinkedTable, pendingOf (done ++ rest)⟩ := by
  induction rest generalizing done with
  | nil => simp
  | cons table more ih =>
    obtain ⟨htable, hmore⟩ := List.forall_mem_cons.1 hsome
    have hshift : done ++ table :: more = (done ++ [table]) ++ more := by simp
    rw [hshift] at hdistinct ⊢
    have hfirst : DistinctNames ((done ++ [table]).map Table.name) := by
      rw [List.map_append] at hdistinct
      exact (List.pairwise_append.1 hdistinct).1
    rw [List.map_cons, List.foldl_cons, define_definitionOf hfirst htable, ih _ hdistinct hmore]

theorem catalogOf_of_definitions {tables : List Table} {statements : List Statement}
    (hdefinitions : tableDefinitions statements = tables.map definitionOf)
    (hadditions : additions statements = []) (hnamed : WellNamed tables) :
    catalogOf statements = ⟨tables.map unlinkedTable, pendingOf tables⟩ := by
  rw [catalogOf, hdefinitions, hadditions, List.foldl_nil]
  exact foldl_define [] hnamed.distinctTables hnamed.nonempty

/-! ## References -/

/-- The column as a foreign key of the table leaves it. -/
def placeOn (table : String) (column : Column) (key : PendingKey) : Column :=
  if Text.sameName table key.table && Text.sameName column.name key.foreignKey.column then
    column.referTo key.foreignKey.target (key.foreignKey.targetColumn.getD "")
  else
    column

/-- Changes every column of every table. -/
def mapColumns (change : String → Column → Column) (tables : List Table) : List Table :=
  tables.map fun table => { table with columns := table.columns.map (change table.name) }

theorem outline_mapColumns {change : String → Column → Column}
    (hname : ∀ table column, (change table column).name = column.name) (tables : List Table) :
    outline (mapColumns change tables) = outline tables := by
  simp [outline, mapColumns, Function.comp_def, hname]

theorem placeOn_name (table : String) (column : Column) (key : PendingKey) :
    (placeOn table column key).name = column.name := by
  rw [placeOn]
  split <;> rfl

/-- A key that names a column that is there. -/
def IsExact (tables : List Table) (foreignKey : ForeignKey) : Prop :=
  ∃ column, foreignKey.targetColumn = some column ∧ HasColumn tables foreignKey.target column

theorem IsExact.resolveTarget?_eq {tables : List Table} {foreignKey : ForeignKey}
    (hexact : IsExact tables foreignKey) (hnamed : WellNamed tables) (lenient : Bool) :
    resolveTarget? lenient tables foreignKey =
      some (foreignKey.target, foreignKey.targetColumn.getD "") := by
  obtain ⟨column, hcolumn, table, htable, hname, key, hkey, hkeyName⟩ := hexact
  have hfind := hnamed.findTable?_eq htable
  have hfound := hnamed.column?_eq htable hkey
  rw [hname] at hfind
  rw [hkeyName] at hfound
  simp [resolveTarget?, hfind, hcolumn, hfound, hname, hkeyName]

/-- Where names are distinct, placing a key changes the columns it names. -/
theorem placeForeignKey_eq_mapColumns {tables : List Table} (hnamed : WellNamed tables)
    {key : PendingKey} (hexact : IsExact tables key.foreignKey) (lenient : Bool) :
    placeForeignKey lenient tables key =
      mapColumns (fun table column => placeOn table column key) tables := by
  rw [placeForeignKey, hexact.resolveTarget?_eq hnamed]
  simp only [modifyTable]
  rw [modifyFirst_eq_map Table.name hnamed.distinctTables, mapColumns]
  apply List.map_congr_left
  intro table htable
  have hcolumns := hnamed.distinctColumns table htable
  by_cases hsame : Text.sameName table.name key.table = true
  · rw [if_pos hsame, Table.modifyColumn, modifyFirst_eq_map Column.name hcolumns]
    simp [placeOn, hsame]
  · simp [placeOn, hsame]

theorem foldl_placeForeignKey {tables : List Table} (hnamed : WellNamed tables)
    {keys : List PendingKey} (hexact : ∀ key ∈ keys, IsExact tables key.foreignKey)
    (lenient : Bool) :
    keys.foldl (placeForeignKey lenient) tables =
      mapColumns (fun table column => keys.foldl (placeOn table) column) tables := by
  induction keys generalizing tables with
  | nil => simp [mapColumns]
  | cons key more ih =>
    obtain ⟨hkey, hmore⟩ := List.forall_mem_cons.1 hexact
    have houtline := outline_mapColumns (fun table column => placeOn_name table column key) tables
    have hmore' : ∀ key' ∈ more, IsExact
        (mapColumns (fun table column => placeOn table column key) tables) key'.foreignKey := by
      intro key' hmem
      obtain ⟨column, hcolumn, hhas⟩ := hmore key' hmem
      exact ⟨column, hcolumn, hhas.of_outline_eq houtline⟩
    rw [List.foldl_cons, placeForeignKey_eq_mapColumns hnamed hkey,
      ih (hnamed.of_outline_eq houtline) hmore']
    simp [mapColumns, Function.comp_def]

/-- Keys of one target make a column refer to it if any of them names the column. -/
theorem foldl_placeOn (table target name : String) (keys : List PendingKey) (column : Column)
    (hkeys : ∀ key ∈ keys, Text.sameName table key.table = true →
      Text.sameName column.name key.foreignKey.column = true →
        key.foreignKey.target = target ∧ key.foreignKey.targetColumn = some name) :
    keys.foldl (placeOn table) column =
      if keys.any fun key => Text.sameName table key.table &&
          Text.sameName column.name key.foreignKey.column then
        column.referTo target name
      else
        column := by
  induction keys generalizing column with
  | nil => rfl
  | cons key more ih =>
    obtain ⟨hkey, hmore⟩ := List.forall_mem_cons.1 hkeys
    have hname := placeOn_name table column key
    rw [List.foldl_cons, ih (placeOn table column key) (by rwa [hname]), hname, List.any_cons]
    by_cases hsame : (Text.sameName table key.table &&
        Text.sameName column.name key.foreignKey.column) = true
    · obtain ⟨htable, hcolumn⟩ := Bool.and_eq_true_iff.1 hsame
      obtain ⟨htarget, htargetColumn⟩ := hkey htable hcolumn
      simp [placeOn, hsame, htarget, htargetColumn, Column.referTo]
    · simp [placeOn, hsame]

section Restored

variable {tables : List Table} {table : Table} {column : Column}

/-- A declared key that names the column is the column's own. -/
theorem reference_of_mem_pendingOf (hnamed : WellNamed tables) (htable : table ∈ tables)
    (hcolumn : column ∈ table.columns) {key : PendingKey} (hkey : key ∈ pendingOf tables)
    (hsameTable : Text.sameName table.name key.table = true)
    (hsameColumn : Text.sameName column.name key.foreignKey.column = true) :
    ∃ reference, column.references = some reference ∧ key.foreignKey.target = reference.table ∧
      key.foreignKey.targetColumn = some reference.column := by
  obtain ⟨owner, howner, source, hsource, reference, hreference, rfl⟩ := mem_pendingOf.1 hkey
  obtain rfl := eq_of_distinctNames Table.name hnamed.distinctTables htable howner hsameTable
  obtain rfl := eq_of_distinctNames Column.name (hnamed.distinctColumns table htable) hcolumn
    hsource hsameColumn
  exact ⟨reference, hreference, rfl, rfl⟩

/-- Of all declared keys, a column is left with its own. -/
theorem foldl_placeOn_pendingOf (hnamed : WellNamed tables) (htable : table ∈ tables)
    (hcolumn : column ∈ table.columns) (hconsistent : column.IsConsistent) :
    (pendingOf tables).foldl (placeOn table.name) column.clearReference =
      column.withCardinality none := by
  have howns := fun key (hkey : key ∈ pendingOf tables) =>
    reference_of_mem_pendingOf hnamed htable hcolumn hkey
  rw [Column.IsConsistent] at hconsistent
  cases hreference : column.references with
  | none =>
    rw [hreference, Option.isSome_none] at hconsistent
    have hnone : ((pendingOf tables).any fun key => Text.sameName table.name key.table &&
        Text.sameName column.name key.foreignKey.column) = false := by
      rw [List.any_eq_false]
      intro key hkey hsame
      obtain ⟨hsameTable, hsameColumn⟩ := Bool.and_eq_true_iff.1 hsame
      obtain ⟨reference, hsome, -⟩ := howns key hkey hsameTable hsameColumn
      simp [hreference] at hsome
    have hall := foldl_placeOn table.name "" "" (pendingOf tables) column.clearReference
      fun key hkey hsameTable hsameColumn => by
        obtain ⟨reference, hsome, -⟩ := howns key hkey hsameTable hsameColumn
        simp [hreference] at hsome
    rw [hall, if_neg (by rw [Bool.not_eq_true]; exact hnone)]
    simp [Column.clearReference, Column.withCardinality, hreference, hconsistent]
  | some reference =>
    rw [hreference, Option.isSome_some] at hconsistent
    have hsome : ((pendingOf tables).any fun key => Text.sameName table.name key.table &&
        Text.sameName column.name key.foreignKey.column) = true := by
      have hmem := mem_pendingOf.2 ⟨table, htable, column, hcolumn, reference, hreference, rfl⟩
      exact List.any_eq_true.2 ⟨_, hmem, by simp⟩
    have hall := foldl_placeOn table.name reference.table reference.column (pendingOf tables)
      column.clearReference fun key hkey hsameTable hsameColumn => by
        obtain ⟨own, hown, htarget, htargetColumn⟩ := howns key hkey hsameTable hsameColumn
        obtain rfl := Option.some.inj (hreference.symm.trans hown)
        exact ⟨htarget, htargetColumn⟩
    rw [hall]
    refine (if_pos hsome).trans ?_
    simp [Column.clearReference, Column.referTo, Column.withCardinality, hreference, hconsistent]

end Restored

/-- A table as a script gives it, before cardinalities are attached. -/
def bareTable (table : Table) : Table where
  name := table.name
  columns := table.columns.map (·.withCardinality none)

theorem outline_unlinkedTable (tables : List Table) :
    outline (tables.map unlinkedTable) = outline tables := by
  simp [outline, unlinkedTable, Column.clearReference, Function.comp_def]

/-- Declared keys that all lead somewhere put the references of the tables back. -/
theorem foldl_pendingOf {tables : List Table} (hnamed : WellNamed tables)
    (hconsistent : ∀ table ∈ tables, ∀ column ∈ table.columns, column.IsConsistent)
    (hresolved : ∀ table ∈ tables, ∀ column ∈ table.columns, ∀ reference ∈ column.references,
      HasColumn tables reference.table reference.column) :
    (pendingOf tables).foldl (placeForeignKey true) (tables.map unlinkedTable) =
      tables.map bareTable := by
  have houtline := outline_unlinkedTable tables
  have hexact : ∀ key ∈ pendingOf tables, IsExact (tables.map unlinkedTable) key.foreignKey := by
    intro key hkey
    obtain ⟨table, htable, column, hcolumn, reference, hreference, rfl⟩ := mem_pendingOf.1 hkey
    exact ⟨reference.column, rfl,
      (hresolved table htable column hcolumn reference hreference).of_outline_eq houtline⟩
  rw [foldl_placeForeignKey (hnamed.of_outline_eq houtline) hexact, mapColumns, List.map_map]
  apply List.map_congr_left
  intro table htable
  simp only [Function.comp_apply, unlinkedTable, bareTable, List.map_map, Table.mk.injEq, true_and,
    and_true]
  apply List.map_congr_left
  intro column hcolumn
  exact foldl_placeOn_pendingOf hnamed htable hcolumn (hconsistent table htable column hcolumn)

theorem baseTables_eq_foldl {tables : List Table} {statements : List Statement}
    (hdefinitions : tableDefinitions statements = tables.map definitionOf)
    (hadditions : additions statements = []) (hnamed : WellNamed tables) :
    baseTables statements =
      (pendingOf tables).foldl (placeForeignKey true) (tables.map unlinkedTable) := by
  rw [baseTables, catalogOf_of_definitions hdefinitions hadditions hnamed, hadditions]
  rfl

/-- The definitions of tables give the tables back. -/
theorem baseTables_of_definitions {tables : List Table} {statements : List Statement}
    (hdefinitions : tableDefinitions statements = tables.map definitionOf)
    (hadditions : additions statements = []) (hnamed : WellNamed tables)
    (hconsistent : ∀ table ∈ tables, ∀ column ∈ table.columns, column.IsConsistent)
    (hresolved : ∀ table ∈ tables, ∀ column ∈ table.columns, ∀ reference ∈ column.references,
      HasColumn tables reference.table reference.column) :
    baseTables statements = tables.map bareTable := by
  rw [baseTables_eq_foldl hdefinitions hadditions hnamed,
    foldl_pendingOf hnamed hconsistent hresolved]

/-! ## Tables as scripts give them -/

/-- Nothing is said of how a base table is drawn. -/
def IsUndrawn (table : Table) : Prop :=
  table = { name := table.name, columns := table.columns }

theorem define_isUndrawn {catalog : Catalog} (definition : TableDefinition)
    (hcatalog : ∀ table ∈ catalog.tables, IsUndrawn table) :
    ∀ table ∈ (catalog.define definition).tables, IsUndrawn table := by
  rw [Catalog.define]
  split
  · exact hcatalog
  · intro table hmem
    rcases mem_putFirst hmem with rfl | hold
    · rfl
    · exact hcatalog table hold

theorem addColumn_isUndrawn {catalog : Catalog} (addition : String × Clause)
    (hcatalog : ∀ table ∈ catalog.tables, IsUndrawn table) :
    ∀ table ∈ (catalog.addColumn addition).tables, IsUndrawn table := by
  rw [Catalog.addColumn]
  split
  · split
    · exact hcatalog
    · intro table hmem
      rcases mem_modifyFirst hmem with hold | ⟨old, hold, _, rfl⟩
      · exact hcatalog table hold
      · rw [IsUndrawn, Table.upsertColumn, hcatalog old hold]
  · exact hcatalog

theorem isUndrawn_of_changed {before after : List Table} (hchanged : Changed before after)
    (hbefore : ∀ table ∈ before, IsUndrawn table) : ∀ table ∈ after, IsUndrawn table := by
  induction hchanged with
  | refl => exact hbefore
  | step _ name column _ ih =>
    intro table hmem
    rcases mem_modifyFirst hmem with hold | ⟨old, hold, _, rfl⟩
    · exact ih table hold
    · rw [IsUndrawn, Table.modifyColumn, ih old hold]

theorem withCardinality_none {column : Column}
    (hnone : ∀ reference ∈ column.references, reference.cardinality = none) :
    column.withCardinality none = column := by
  have hsame : column.references.map ({ · with cardinality := none }) = column.references := by
    cases hreference : column.references with
    | none => rfl
    | some reference =>
      have hcardinality := hnone reference hreference
      rw [Option.map_some, ← hcardinality]
  rw [Column.withCardinality, hsame]

/-- Before cardinalities are attached, the base tables of a script have none. -/
theorem baseTables_bare {statements : List Statement}
    (hdeclared : ∀ statement ∈ statements, statement.IsDeclared) :
    ∀ table ∈ baseTables statements, bareTable table = table := by
  have hcatalog := catalogOf_isDeclaredCatalog hdeclared
  have hchanged := baseTables_changed statements
  have hundrawn : ∀ table ∈ (catalogOf statements).tables, IsUndrawn table := by
    refine List.foldlRecOn (motive := fun catalog : Catalog =>
      ∀ table ∈ catalog.tables, IsUndrawn table) _ _ ?_ fun catalog hcatalog addition _ =>
        addColumn_isUndrawn addition hcatalog
    exact List.foldlRecOn (motive := fun catalog : Catalog =>
      ∀ table ∈ catalog.tables, IsUndrawn table) _ _ (by simp) fun catalog hcatalog definition _ =>
        define_isUndrawn definition hcatalog
  have hcolumns := hchanged.forall_column
    (P := fun column => ∀ reference ∈ column.references, reference.cardinality = none)
    (fun table htable column hcolumn => by
      simp [(hcatalog.columns table htable column hcolumn).unlinked.references])
    (by
      rintro _ (_ | _ | _) column hnone
      · exact hnone
      · exact hnone
      · rintro _ ⟨⟩
        rfl)
  intro table hmem
  have hbare : table.columns.map (·.withCardinality none) = table.columns := by
    rw [List.map_congr_left, List.map_id]
    exact fun column hcolumn => withCardinality_none (hcolumns table hmem column hcolumn)
  rw [bareTable, hbare]
  exact (isUndrawn_of_changed hchanged hundrawn table hmem).symm

end Sql

end Crowfoot
