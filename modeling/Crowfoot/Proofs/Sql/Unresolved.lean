import Crowfoot.Proofs.Schema.Counts
import Crowfoot.Proofs.Sql.RoundTrip

/-!
# References without a target

Tables may hold references that lead nowhere.  Of the foreign keys that are written
for them only those are put back that lead to a column or to a primary key; whether
one does depends on names and primary keys alone, so that no other key changes it.
Written tables are therefore read with the references that can be resolved.
-/

namespace Crowfoot

namespace Sql

/-! ## Targets -/

/-- The column of a table that a foreign key means, the primary key for want of
another. -/
def meantColumn? (lenient : Bool) (table : Table) : Option String → Option Column
  | none => table.primaryKey?
  | some name => (table.column? name).or (if lenient then table.primaryKey? else none)

theorem resolveTarget?_eq_bind (lenient : Bool) (tables : List Table) (foreignKey : ForeignKey) :
    resolveTarget? lenient tables foreignKey =
      (findTable? tables foreignKey.target).bind fun table =>
        (meantColumn? lenient table foreignKey.targetColumn).map fun column =>
          (table.name, column.name) := by
  rw [resolveTarget?]
  cases findTable? tables foreignKey.target with
  | none => rfl
  | some table =>
    cases foreignKey.targetColumn with
    | none =>
      simp only [Option.bind_eq_bind, Option.bind_some, meantColumn?]
      cases table.primaryKey? <;> rfl
    | some name =>
      simp only [Option.bind_eq_bind, Option.bind_some, meantColumn?]
      cases table.column? name with
      | some column => rfl
      | none =>
        rw [Option.none_or]
        cases lenient with
        | false => rfl
        | true => cases table.primaryKey? <;> rfl

theorem mem_of_meantColumn? {lenient : Bool} {table : Table} {name : Option String}
    {column : Column} (hmeant : meantColumn? lenient table name = some column) :
    column ∈ table.columns := by
  rw [meantColumn?.eq_def] at hmeant
  split at hmeant
  · exact Table.primaryKey?_mem hmeant
  · rcases Option.or_eq_some_iff.1 hmeant with hfound | ⟨-, hkey⟩
    · exact Table.column?_mem hfound
    · split at hkey
      · exact Table.primaryKey?_mem hkey
      · cases hkey

/-- A key leads to a column of a table that is there. -/
theorem hasColumn_of_resolveTarget? {lenient : Bool} {tables : List Table}
    {foreignKey : ForeignKey} {table column : String}
    (hresolve : resolveTarget? lenient tables foreignKey = some (table, column)) :
    HasColumn tables table column := by
  rw [resolveTarget?_eq_bind] at hresolve
  obtain ⟨found, hfound, hmeant⟩ := Option.bind_eq_some_iff.1 hresolve
  obtain ⟨key, hkey, hsame⟩ := Option.map_eq_some_iff.1 hmeant
  obtain ⟨rfl, rfl⟩ := Prod.mk.inj hsame
  exact .of_mem (findTable?_mem hfound) (mem_of_meantColumn? hkey)

/-- Tables are changed in no more than what names and primary keys do not say. -/
structure KeepsTargets (draw : Table → Table) (change : Table → Column → Column) : Prop where
  tableName : ∀ table, (draw table).name = table.name
  columns : ∀ table, (draw table).columns = table.columns.map (change table)
  name : ∀ table column, (change table column).name = column.name
  isPrimaryKey : ∀ table column, (change table column).isPrimaryKey = column.isPrimaryKey

section KeepsTargets

variable {draw : Table → Table} {change : Table → Column → Column}
  (hkeeps : KeepsTargets draw change)

include hkeeps

theorem KeepsTargets.findTable?_map (tables : List Table) (name : String) :
    findTable? (tables.map draw) name = (findTable? tables name).map draw := by
  rw [findTable?, List.find?_map, findTable?]
  congr 2
  funext table
  rw [Function.comp_apply, hkeeps.tableName]

theorem KeepsTargets.primaryKey?_draw (table : Table) :
    (draw table).primaryKey? = table.primaryKey?.map (change table) := by
  rw [Table.primaryKey?, hkeeps.columns, List.find?_map, Table.primaryKey?]
  congr 2
  funext column
  exact hkeeps.isPrimaryKey table column

theorem KeepsTargets.column?_draw (table : Table) (name : String) :
    (draw table).column? name = (table.column? name).map (change table) := by
  rw [Table.column?, hkeeps.columns, List.find?_map, Table.column?]
  congr 2
  funext column
  rw [Function.comp_apply, hkeeps.name]

theorem KeepsTargets.meantColumn?_draw (lenient : Bool) (table : Table) (name : Option String) :
    meantColumn? lenient (draw table) name =
      (meantColumn? lenient table name).map (change table) := by
  cases name with
  | none => exact hkeeps.primaryKey?_draw table
  | some name =>
    rw [meantColumn?, meantColumn?, hkeeps.column?_draw, hkeeps.primaryKey?_draw, Option.map_or]
    cases lenient <;> rfl

/-- Whether a foreign key leads somewhere depends on names and primary keys. -/
theorem KeepsTargets.resolveTarget?_map (lenient : Bool) (tables : List Table)
    (foreignKey : ForeignKey) :
    resolveTarget? lenient (tables.map draw) foreignKey =
      resolveTarget? lenient tables foreignKey := by
  rw [resolveTarget?_eq_bind, resolveTarget?_eq_bind, hkeeps.findTable?_map]
  cases findTable? tables foreignKey.target with
  | none => rfl
  | some table =>
    rw [Option.map_some, Option.bind_some, Option.bind_some, hkeeps.meantColumn?_draw,
      Option.map_map]
    congr 1
    funext column
    rw [Function.comp_apply, hkeeps.tableName, hkeeps.name]

end KeepsTargets

theorem keepsTargets_unlinkedTable :
    KeepsTargets unlinkedTable fun _ => Column.clearReference :=
  ⟨fun _ => rfl, fun _ => rfl, fun _ _ => rfl, fun _ _ => rfl⟩

theorem keepsTargets_placeOn (key : PendingKey) :
    KeepsTargets (fun table =>
        { table with columns := table.columns.map fun column => placeOn table.name column key })
      fun table column => placeOn table.name column key where
  tableName _ := rfl
  columns _ := rfl
  name table column := placeOn_name table.name column key
  isPrimaryKey table column := by
    rw [placeOn]
    split <;> rfl

/-! ## Keys -/

/-- The foreign key with the target that it leads to. -/
def resolvedKey? (tables : List Table) (key : PendingKey) : Option PendingKey :=
  (resolveTarget? true tables key.foreignKey).map fun (table, column) =>
    ⟨key.table, key.foreignKey.column, table, some column⟩

theorem placeForeignKey_of_resolvedKey? {tables : List Table} (hnamed : WellNamed tables)
    {key resolved : PendingKey} (hresolved : resolvedKey? tables key = some resolved) :
    IsExact tables resolved.foreignKey ∧
      placeForeignKey true tables key = placeForeignKey true tables resolved := by
  obtain ⟨⟨table, column⟩, hresolve, rfl⟩ := Option.map_eq_some_iff.1 hresolved
  have hexact : IsExact tables ⟨key.foreignKey.column, table, some column⟩ :=
    ⟨column, rfl, hasColumn_of_resolveTarget? hresolve⟩
  refine ⟨hexact, ?_⟩
  rw [placeForeignKey, placeForeignKey, hresolve, hexact.resolveTarget?_eq hnamed]
  rfl

/-- Keys that lead nowhere are passed over. -/
theorem foldl_placeForeignKey_resolved {tables : List Table} (hnamed : WellNamed tables)
    (keys : List PendingKey) :
    keys.foldl (placeForeignKey true) tables =
      (keys.filterMap (resolvedKey? tables)).foldl (placeForeignKey true) tables := by
  induction keys generalizing tables with
  | nil => rfl
  | cons key rest ih =>
    rw [List.foldl_cons]
    cases hresolved : resolvedKey? tables key with
    | none =>
      have hstay : placeForeignKey true tables key = tables := by
        rw [placeForeignKey, Option.map_eq_none_iff.1 hresolved]
      rw [hstay, ih hnamed, List.filterMap_cons_none hresolved]
    | some resolved =>
      obtain ⟨hexact, hplace⟩ := placeForeignKey_of_resolvedKey? hnamed hresolved
      have hmap := placeForeignKey_eq_mapColumns hnamed hexact true
      have houtline := outline_mapColumns (fun table column => placeOn_name table column resolved)
        tables
      have hsame : resolvedKey? (mapColumns (fun table column => placeOn table column resolved)
          tables) = resolvedKey? tables := by
        funext other
        rw [resolvedKey?, resolvedKey?, mapColumns,
          (keepsTargets_placeOn resolved).resolveTarget?_map]
      rw [List.filterMap_cons_some hresolved, List.foldl_cons, hplace, hmap,
        ih (hnamed.of_outline_eq houtline), hsame]

/-! ## Tables -/

/-- The table and the column that the reference of a column leads to. -/
def targetOf? (tables : List Table) (column : Column) : Option (String × String) :=
  (foreignKeyOf? column).bind (resolveTarget? true tables)

/-- The column with the reference that is found for its own. -/
def settledColumn (tables : List Table) (column : Column) : Column :=
  match targetOf? tables column with
  | some (table, target) => column.clearReference.referTo table target
  | none => column.clearReference

/-- The table with the references that are found. -/
def settledTable (tables : List Table) (table : Table) : Table where
  name := table.name
  columns := table.columns.map (settledColumn tables)

theorem settledColumn_cases (tables : List Table) (column : Column) :
    (∃ table target, targetOf? tables column = some (table, target) ∧
      settledColumn tables column = column.clearReference.referTo table target) ∨
      (targetOf? tables column = none ∧ settledColumn tables column = column.clearReference) := by
  rw [settledColumn]
  cases htarget : targetOf? tables column with
  | none => exact Or.inr ⟨rfl, rfl⟩
  | some target => exact Or.inl ⟨target.1, target.2, rfl, rfl⟩

theorem settledColumn_name (tables : List Table) (column : Column) :
    (settledColumn tables column).name = column.name := by
  rcases settledColumn_cases tables column with ⟨_, _, -, heq⟩ | ⟨-, heq⟩ <;> rw [heq] <;> rfl

theorem settledColumn_clearReference (tables : List Table) (column : Column) :
    (settledColumn tables column).clearReference = column.clearReference := by
  rcases settledColumn_cases tables column with ⟨_, _, -, heq⟩ | ⟨-, heq⟩ <;> rw [heq] <;> rfl

theorem settledColumn_references_isSome (tables : List Table) (column : Column) :
    (settledColumn tables column).references.isSome = (targetOf? tables column).isSome := by
  rcases settledColumn_cases tables column with ⟨_, _, htarget, heq⟩ | ⟨htarget, heq⟩ <;>
    rw [heq, htarget] <;> rfl

theorem outline_settledTable (tables : List Table) :
    outline (tables.map (settledTable tables)) = outline tables := by
  simp [outline, settledTable, settledColumn_name, Function.comp_def]

theorem unlinkedTable_settledTable (tables : List Table) (table : Table) :
    unlinkedTable (settledTable tables table) = unlinkedTable table := by
  simp [unlinkedTable, settledTable, settledColumn_clearReference, Function.comp_def]

theorem foreignKeyOf?_settledColumn (tables : List Table) (column : Column) :
    foreignKeyOf? (settledColumn tables column) = (foreignKeyOf? column).bind fun foreignKey =>
      (resolveTarget? true tables foreignKey).map fun (table, target) =>
        ⟨foreignKey.column, table, some target⟩ := by
  cases hreference : column.references with
  | none =>
    simp [settledColumn, targetOf?, foreignKeyOf?, hreference, Column.clearReference]
  | some reference =>
    have hkey : foreignKeyOf? column =
        some ⟨column.name, reference.table, some reference.column⟩ := by
      rw [foreignKeyOf?, hreference, Option.map_some]
    rw [settledColumn, targetOf?, hkey, Option.bind_some, Option.bind_some]
    cases resolveTarget? true tables ⟨column.name, reference.table, some reference.column⟩ <;> rfl

/-- The keys of the settled tables are those that lead somewhere. -/
theorem pendingOf_settledTable (tables : List Table) :
    pendingOf (tables.map (settledTable tables)) =
      (pendingOf tables).filterMap (resolvedKey? tables) := by
  rw [pendingOf, pendingOf, List.flatMap_map, List.filterMap_flatMap]
  congr 1
  funext table
  rw [settledTable, List.filterMap_map, List.map_filterMap, List.map_filterMap,
    List.filterMap_filterMap]
  congr 1
  funext column
  rw [Function.comp_apply, foreignKeyOf?_settledColumn]
  cases foreignKeyOf? column with
  | none => rfl
  | some foreignKey =>
    rw [Option.bind_some, Option.map_some, Option.bind_some, resolvedKey?, Option.map_map]
    rfl

/-- The definitions of tables give the tables with the references that are found. -/
theorem baseTables_settled {tables : List Table} {statements : List Statement}
    (hdefinitions : tableDefinitions statements = tables.map definitionOf)
    (hadditions : additions statements = []) (hnamed : WellNamed tables) :
    baseTables statements = (tables.map (settledTable tables)).map bareTable := by
  have hunlinked : (tables.map (settledTable tables)).map unlinkedTable =
      tables.map unlinkedTable := by
    rw [List.map_map]
    exact List.map_congr_left fun table _ => unlinkedTable_settledTable tables table
  have hkeys : resolvedKey? (tables.map unlinkedTable) = resolvedKey? tables := by
    funext key
    rw [resolvedKey?, resolvedKey?, keepsTargets_unlinkedTable.resolveTarget?_map]
  rw [baseTables_eq_foldl hdefinitions hadditions hnamed,
    foldl_placeForeignKey_resolved (hnamed.of_outline_eq (outline_unlinkedTable tables)), hkeys,
    ← pendingOf_settledTable, ← hunlinked]
  apply foldl_pendingOf (hnamed.of_outline_eq (outline_settledTable tables))
  · simp only [List.forall_mem_map, settledTable]
    intro table _ column _
    rcases settledColumn_cases tables column with ⟨_, _, -, heq⟩ | ⟨-, heq⟩ <;> rw [heq] <;> rfl
  · simp only [List.forall_mem_map, settledTable]
    intro table _ column _ reference hreference
    rcases settledColumn_cases tables column with ⟨name, target, htarget, heq⟩ | ⟨-, heq⟩
    · rw [heq] at hreference
      obtain rfl := Option.some.inj hreference
      obtain ⟨foreignKey, -, hresolve⟩ := Option.bind_eq_some_iff.1 htarget
      exact (hasColumn_of_resolveTarget? hresolve).of_outline_eq (outline_settledTable tables)
    · rw [heq] at hreference
      simp [Column.clearReference] at hreference

/-! ## Written tables -/

theorem keepsTargets_echo (read : String → String) :
    KeepsTargets (Table.echo read) fun _ => Column.echo read :=
  ⟨fun _ => rfl, fun _ => rfl, fun _ _ => rfl, fun _ _ => rfl⟩

theorem targetOf?_echo (read : String → String) (tables : List Table) (column : Column) :
    targetOf? (tables.map (Table.echo read)) (column.echo read) = targetOf? tables column := by
  have hkey : foreignKeyOf? (column.echo read) = foreignKeyOf? column := rfl
  rw [targetOf?, targetOf?, hkey]
  congr 1
  funext foreignKey
  exact (keepsTargets_echo read).resolveTarget?_map true tables foreignKey

theorem outline_echo (read : String → String) (tables : List Table) :
    outline (tables.map (Table.echo read)) = outline tables := by
  simp [outline, Table.echo, Column.echo, Function.comp_def]

/-- A table is read with as many references as can be resolved. -/
theorem keyCount_settledTable_echo (read : String → String) (tables : List Table)
    (table : Table) :
    (settledTable (tables.map (Table.echo read)) (table.echo read)).keyCount =
      table.columns.countP fun column => (targetOf? tables column).isSome := by
  rw [Table.keyCount, settledTable, Table.echo, List.map_map, List.countP_map]
  congr 1
  funext column
  rw [Function.comp_apply, Function.comp_apply, settledColumn_references_isSome, targetOf?_echo]

theorem keyCount_attached (tables : List Table) (table : Table) :
    ({ bareTable table with
        columns := (bareTable table).columns.map (withCardinality tables) } : Table).keyCount =
      table.keyCount := by
  rw [Table.keyCount, bareTable, List.map_map, List.countP_map, Table.keyCount]
  congr 1
  funext column
  simp [withCardinality, Column.withCardinality]

/-- The tables of a script that defines tables only, with the references that are found. -/
theorem schemaTables_settled {tables : List Table} (hnamed : WellNamed tables) :
    schemaTables (tables.map fun table => .createTable (definitionOf table)) =
      attachCardinalities ((tables.map (settledTable tables)).map bareTable) := by
  have hbase := baseTables_settled (tableDefinitions_createTable tables)
    (additions_createTable tables) hnamed
  simp [schemaTables, hbase, resolveViews, viewDefinitions_createTable, linkViews]

/-- Tables that are written so that they can be read are read with the same names and
with those of their references that can be resolved. -/
theorem AreLegible.exists_read (config : CategoryConfig) {schema : Schema}
    (hlegible : AreLegible schema.tables) :
    ∃ read, readSchema? config (schemaText schema) = some read ∧
      List.Forall₂ (fun table found : Table => found.name = table.name ∧
        found.keyCount = table.columns.countP fun column =>
          (targetOf? schema.tables column).isSome) schema.tables read.tables := by
  obtain ⟨reading, hreads⟩ := exists_readsTypes hlegible
  let echoed := schema.tables.map (Table.echo reading)
  have hscript : Statement.ofScript (schemaText schema).toList =
      echoed.map fun table => .createTable (definitionOf table) := by
    rw [ofScript_schemaText_echo hlegible hreads, List.map_map]
    rfl
  have htables := schemaTables_settled
    (hlegible.wellNamed.of_outline_eq (outline_echo reading schema.tables))
  rw [← hscript] at htables
  obtain ⟨draw, hassign, hdraw⟩ := config.assign_eq_map
    (schemaTables (Statement.ofScript (schemaText schema).toList))
  have hsome :
      config.assign (schemaTables (Statement.ofScript (schemaText schema).toList)) ≠ [] := by
    rw [hassign, htables]
    simpa [attachCardinalities] using hlegible.nonempty
  obtain ⟨read, hread, hreadTables⟩ := exists_readSchema? hsome
  refine ⟨read, hread, ?_⟩
  rw [hreadTables, hassign, htables, attachCardinalities, List.map_map, List.map_map, List.map_map,
    List.map_map, List.forall₂_map_right_iff, List.forall₂_same]
  intro table _
  refine ⟨(hdraw _).1, ?_⟩
  have hattached := keyCount_attached ((echoed.map (settledTable echoed)).map bareTable)
    (settledTable echoed (table.echo reading))
  rw [← keyCount_settledTable_echo reading, ← hattached]
  exact congrArg (List.countP _) (hdraw _).2.1

end Sql

end Crowfoot
