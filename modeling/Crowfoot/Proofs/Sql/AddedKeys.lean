import Crowfoot.Proofs.Sql.EarlyChanges

/-!
# Keys that are added

A primary key may stand with its column or be added to the table at the end of the
script.  Either way there are the same tables and columns, the same keys, and the
same references, except those of foreign keys that leave it to the table which of
its columns they refer to: such a foreign key of a definition or of an added column
is resolved before keys are added, so an added key comes too late for it.
-/

namespace Crowfoot

/-- The first column of the name is no primary key, and none stands in front of it. -/
def Table.precedesKeys (table : Table) (name : String) : Bool :=
  (table.columns.find? fun column => column.isPrimaryKey || Text.sameName column.name name).any
    fun column => !column.isPrimaryKey

namespace Sql

/-- The foreign key refers to the table but to none of its columns. -/
def ForeignKey.isLeftTo (foreignKey : ForeignKey) (table : Table) : Bool :=
  Text.sameName foreignKey.target table.name &&
    (foreignKey.targetColumn.bind table.column?).isNone

/-- The foreign keys that a primary key on a column turns to that column. -/
def turnedKeys (catalog : Catalog) (table name : String) : List PendingKey :=
  catalog.pending.filter fun key =>
    (findTable? catalog.tables table).any fun found =>
      found.precedesKeys name && key.foreignKey.isLeftTo found

/-- The definition with a primary key on a column. -/
def TableDefinition.withKey (definition : TableDefinition) (name : String) : TableDefinition :=
  { definition with
    columns := modifyFirst (fun column => Text.sameName column.name name) Column.asPrimaryKey
      definition.columns }

namespace TableScript

/-- The script with a primary key on a column in the definition. -/
def withKey (script : TableScript) (name : String) : TableScript :=
  { script with definition := script.definition.withKey name }

/-- The statements with a primary key on a column added at the end. -/
def addingKey (script : TableScript) (name : String) : List Statement :=
  script.statements ++ [.alterTable ⟨script.definition.name, [.primaryKey [name]]⟩]

end TableScript

/-- The catalog with a primary key on a column. -/
def Catalog.withKey (catalog : Catalog) (table name : String) : Catalog :=
  { catalog with tables := changeColumn catalog.tables table name Column.asPrimaryKey }

/-! ## Turned keys -/

/-- A primary key that does not come first leaves the first one. -/
theorem primaryKey?_modifyColumn {table : Table} {name : String}
    (hlater : table.precedesKeys name = false) :
    ((table.modifyColumn name Column.asPrimaryKey).primaryKey?).map Column.name =
      table.primaryKey?.map Column.name := by
  rw [Table.primaryKey?, Table.primaryKey?, Table.modifyColumn]
  rw [Table.precedesKeys] at hlater
  generalize table.columns = columns at hlater ⊢
  induction columns with
  | nil => rfl
  | cons column rest ih =>
    cases hkey : column.isPrimaryKey with
    | true =>
      cases hnamed : Text.sameName column.name name <;>
        simp [modifyFirst, hnamed, hkey, Column.asPrimaryKey]
    | false =>
      cases hnamed : Text.sameName column.name name with
      | true => simp [hkey, hnamed] at hlater
      | false =>
        simp only [List.find?_cons, hkey, hnamed, Bool.or_self] at hlater
        simp [modifyFirst, hnamed, hkey, ih hlater]

theorem column?_modifyColumn (table : Table) (name target : String) :
    ((table.modifyColumn name Column.asPrimaryKey).column? target).map Column.name =
      (table.column? target).map Column.name := by
  have hnames : List.Forall₂ (fun left right : Column => left.name = right.name)
      (table.modifyColumn name Column.asPrimaryKey).columns table.columns := by
    apply forall₂_modifyFirst <;> exact fun _ => rfl
  exact map_eq_of_rel (find?_rel (fun _ _ hname => by rw [hname]) hnames) fun _ _ hname => hname

/-- The name of the column that a foreign key means, unless the key is turned. -/
theorem meantColumn?_modifyColumn {table : Table} {name : String} {targetColumn : Option String}
    (hkept : table.precedesKeys name = false ∨ (targetColumn.bind table.column?).isSome = true) :
    (meantColumn? true (table.modifyColumn name Column.asPrimaryKey) targetColumn).map
        Column.name =
      (meantColumn? true table targetColumn).map Column.name := by
  cases targetColumn with
  | none => exact primaryKey?_modifyColumn (hkept.resolve_right (by simp))
  | some target =>
    rw [meantColumn?, meantColumn?, Option.map_or, Option.map_or, column?_modifyColumn,
      if_pos rfl, if_pos rfl]
    rcases hkept with hlater | hnamed
    · rw [primaryKey?_modifyColumn hlater]
    · obtain ⟨column, hcolumn⟩ := Option.isSome_iff_exists.1 hnamed
      rw [Option.bind_some] at hcolumn
      rw [hcolumn]
      rfl

theorem findTable?_withKey (catalog : Catalog) (table name : String) :
    findTable? (catalog.withKey table name).tables table =
      (findTable? catalog.tables table).map (·.modifyColumn name Column.asPrimaryKey) := by
  apply find?_modifyFirst
  exact fun _ => rfl

/-- A foreign key that is not turned leads where it led. -/
theorem resolveTarget?_withKey {catalog : Catalog} {table name : String} {key : PendingKey}
    (hpending : key ∈ catalog.pending) (hkept : key ∉ turnedKeys catalog table name) :
    resolveTarget? true (catalog.withKey table name).tables key.foreignKey =
      resolveTarget? true catalog.tables key.foreignKey := by
  rw [resolveTarget?_eq_bind, resolveTarget?_eq_bind]
  cases htarget : Text.sameName key.foreignKey.target table with
  | false =>
    have hother : findTable? (catalog.withKey table name).tables key.foreignKey.target =
        findTable? catalog.tables key.foreignKey.target := by
      apply find?_modifyFirst_of_apart
      · intro found hfound
        rw [Text.sameName_congr hfound, Text.sameName_comm, htarget]
      · exact fun _ => rfl
    rw [hother]
  | true =>
    rw [findTable?_congr htarget, findTable?_congr htarget, findTable?_withKey]
    cases hfound : findTable? catalog.tables table with
    | none => rfl
    | some found =>
      have hnamed : Text.sameName key.foreignKey.target found.name = true := by
        have hsame := List.find?_some hfound
        rw [Text.sameName_congr_right hsame, htarget]
      have hmeant : found.precedesKeys name = false ∨
          (key.foreignKey.targetColumn.bind found.column?).isSome = true := by
        rw [turnedKeys, List.mem_filter, hfound] at hkept
        simpa [hpending, ForeignKey.isLeftTo, hnamed, Option.isSome_iff_ne_none,
          or_iff_not_imp_left] using hkept
      have hnames := meantColumn?_modifyColumn hmeant
      have hpairs := congrArg (Option.map (found.name, ·)) hnames
      rw [Option.map_map, Option.map_map] at hpairs
      exact hpairs

/-- A primary key that comes first is the primary key of the table. -/
theorem exists_primaryKey?_modifyColumn {table : Table} {name : String}
    (hfirst : table.precedesKeys name = true) :
    ∃ column ∈ table.columns, Text.sameName column.name name = true ∧
      (table.modifyColumn name Column.asPrimaryKey).primaryKey? = some column.asPrimaryKey := by
  rw [Table.primaryKey?, Table.modifyColumn]
  rw [Table.precedesKeys] at hfirst
  generalize table.columns = columns at hfirst ⊢
  induction columns with
  | nil => cases hfirst
  | cons column rest ih =>
    cases hkey : column.isPrimaryKey with
    | true => simp [hkey] at hfirst
    | false =>
      cases hnamed : Text.sameName column.name name with
      | true =>
        refine ⟨column, List.mem_cons_self, hnamed, ?_⟩
        simp [modifyFirst, hnamed, Column.asPrimaryKey]
      | false =>
        simp only [List.find?_cons, hkey, hnamed, Bool.or_self] at hfirst
        obtain ⟨found, hmem, hsame, hfound⟩ := ih hfirst
        refine ⟨found, List.mem_cons_of_mem column hmem, hsame, ?_⟩
        simpa [modifyFirst, hnamed, hkey] using hfound

/-- A foreign key that names no column of its table means the primary key. -/
theorem meantColumn?_of_isLeftTo {foreignKey : ForeignKey} {table found : Table}
    (hleft : foreignKey.isLeftTo table = true)
    (hnames : ∀ name, (found.column? name).map Column.name =
      (table.column? name).map Column.name) :
    meantColumn? true found foreignKey.targetColumn = found.primaryKey? := by
  rw [ForeignKey.isLeftTo, Bool.and_eq_true] at hleft
  have hnone := hleft.2
  cases htarget : foreignKey.targetColumn with
  | none => rfl
  | some name =>
    rw [htarget, Option.bind_some, Option.isNone_iff_eq_none] at hnone
    have hmissing : found.column? name = none := by
      rw [← Option.map_eq_none_iff, hnames, hnone, Option.map_none]
    rw [meantColumn?, hmissing, Option.none_or, if_pos rfl]

/-- A turned key leads to the column that becomes a primary key; otherwise it leads to
the first primary key of the table, or nowhere if there is none. -/
theorem resolveTarget?_of_mem_turnedKeys {catalog : Catalog} {table name : String}
    {key : PendingKey} (hmem : key ∈ turnedKeys catalog table name) :
    ∃ found column, findTable? catalog.tables table = some found ∧ column ∈ found.columns ∧
      Text.sameName column.name name = true ∧
      resolveTarget? true (catalog.withKey table name).tables key.foreignKey =
        some (found.name, column.name) ∧
      resolveTarget? true catalog.tables key.foreignKey =
        found.primaryKey?.map fun other => (found.name, other.name) := by
  rw [turnedKeys, List.mem_filter, Option.any_eq_true] at hmem
  obtain ⟨-, found, hfound, hturned⟩ := hmem
  rw [Bool.and_eq_true] at hturned
  obtain ⟨hfirst, hleft⟩ := hturned
  obtain ⟨column, hcolumn, hsame, hkey⟩ := exists_primaryKey?_modifyColumn hfirst
  have htarget : Text.sameName key.foreignKey.target table = true := by
    have hsame := List.find?_some hfound
    rw [ForeignKey.isLeftTo, Bool.and_eq_true] at hleft
    exact Text.sameName_trans hleft.1 hsame
  refine ⟨found, column, hfound, hcolumn, hsame, ?_, ?_⟩
  · rw [resolveTarget?_eq_bind, findTable?_congr htarget, findTable?_withKey, hfound,
      Option.map_some, Option.bind_some,
      meantColumn?_of_isLeftTo hleft (column?_modifyColumn found name), hkey]
    rfl
  · rw [resolveTarget?_eq_bind, findTable?_congr htarget, hfound, Option.bind_some,
      meantColumn?_of_isLeftTo hleft fun _ => rfl]

/-! ## Schemas -/

section Schema

variable (script : TableScript) (name : String)

/-- An added key is there before all other keys, but only behind the references. -/
theorem TableScript.baseTables_addingKey :
    baseTables (script.addingKey name) =
      (additions script.statements).foldl applyForeignKeys
        ((additions script.statements).foldl applyKey
          ((catalogOf script.statements).pending.foldl
            (pointKey (resolveTarget? true (catalogOf script.statements).tables))
            ((catalogOf script.statements).withKey script.definition.name name).tables)) := by
  have hbase : baseTables (script.addingKey name) =
      (additions script.statements).foldl applyForeignKeys
        (changeColumn (keyedTables script.statements) script.definition.name name
          Column.asPrimaryKey) :=
    script.baseTables_appending rfl
  have hcommute (key : PendingKey) (column : Column) :
      pointTo (resolveTarget? true (catalogOf script.statements).tables key.foreignKey)
        column.asPrimaryKey =
          (pointTo (resolveTarget? true (catalogOf script.statements).tables key.foreignKey)
            column).asPrimaryKey :=
    ((leavesKeys_pointTo _).asPrimaryKey_comm column).symm
  rw [hbase, keyedTables, ← leavesKeys_asPrimaryKey.foldl_applyKey_changeColumn,
    foldl_placeForeignKey_eq_pointKey, ← foldl_pointKey_changeColumn _ _
      leavesKeys_asPrimaryKey.name_eq fun key _ _ => hcommute key]
  rfl

variable {script : TableScript} {name : String} (honce : script.DefinesOnce name)

include honce

theorem TableScript.DefinesOnce.agrees_baseTables :
    List.Forall₂ (AgreesApartFrom
        (turnedKeys (catalogOf script.statements) script.definition.name name))
      (baseTables (script.withKey name).statements) (baseTables (script.addingKey name)) := by
  have hcatalog : catalogOf (script.withKey name).statements =
      (catalogOf script.statements).withKey script.definition.name name :=
    honce.catalogOf_changing fun _ => rfl
  have hadditions : additions (script.withKey name).statements = additions script.statements :=
    script.additions_changing name Column.asPrimaryKey
  rw [TableScript.baseTables_addingKey, baseTables, hcatalog, hadditions,
    foldl_placeForeignKey_eq_pointKey]
  have hsame := List.forall₂_same.2 fun table
    (_ : table ∈ ((catalogOf script.statements).withKey script.definition.name name).tables) =>
      AgreesApartFrom.refl
        (turnedKeys (catalogOf script.statements) script.definition.name name) table
  have hreferring := agrees_foldl_pointKey
    (fun key hpending hkept => resolveTarget?_withKey hpending hkept) hsame
  have hkeyed := List.foldl_rel hreferring fun addition
    (_ : addition ∈ additions script.statements) _ _ hagrees => agrees_applyKey addition hagrees
  exact List.foldl_rel hkeyed fun addition _ _ _ hagrees => agrees_applyForeignKeys addition hagrees

/-- A primary key on a column of a table that is defined once may be added at the end
of the script as well as stand in the definition.  Both give the same base tables,
apart from the references of columns whose foreign keys refer to the table but to
none of its columns, if no other primary key of the table stands in front of the
column.  Where there is no such foreign key, both give the same schema. -/
theorem schemaOfStatements?_addingKey (config : CategoryConfig) :
    List.Forall₂ (AgreesApartFrom
        (turnedKeys (catalogOf script.statements) script.definition.name name))
      (attachCardinalities (baseTables (script.withKey name).statements))
      (attachCardinalities (baseTables (script.addingKey name))) ∧
    (turnedKeys (catalogOf script.statements) script.definition.name name = [] →
      schemaOfStatements? config (script.withKey name).statements =
        schemaOfStatements? config (script.addingKey name)) := by
  have hagrees := honce.agrees_baseTables
  refine ⟨agrees_attachCardinalities hagrees, fun hnone => ?_⟩
  rw [hnone] at hagrees
  have hbase := eq_of_agreesApartFrom_nil hagrees
  have hviews : viewDefinitions (script.withKey name).statements =
      viewDefinitions (script.addingKey name) := by
    simp [viewDefinitions, TableScript.addingKey, TableScript.statements, TableScript.withKey]
  have hname : schemaName (script.withKey name).statements =
      schemaName (script.addingKey name) := by
    simp [schemaName, TableScript.addingKey, TableScript.statements, TableScript.withKey]
  have htables : schemaTables (script.withKey name).statements =
      schemaTables (script.addingKey name) := by
    simp only [schemaTables, resolveViews, hbase, hviews]
  rw [schemaOfStatements?, schemaOfStatements?, htables, hname]

end Schema

/-- Towns by code, a column without a key. -/
def townsDefinition : TableDefinition where
  name := "towns"
  columns := [{ name := "code", type := "INT" }, { name := "name", type := "TEXT" }]

/-- Streets that refer to a column of their town, or to none. -/
def streetsDefinition (target : Option String) : TableDefinition where
  name := "streets"
  columns := [{ name := "town", type := "INT" }]
  foreignKeys := [⟨"town", "Towns", target⟩]

/-- A view of the streets. -/
def streetsView : ViewDefinition where
  name := "addresses"
  items := [⟨.everything, none⟩]
  sources := [{ table := "streets" }]

/-- Streets in front of towns, which get a twin, and a view. -/
def townsScript (target : Option String) : TableScript where
  before := [.createTable (streetsDefinition target), .createView streetsView]
  definition := townsDefinition
  after := [.alterTable ⟨"TOWNS", [.column { name := "twin", type := "INT" }
    (some ⟨"twin", "towns", some "CODE"⟩)]⟩]

theorem townsScript_definesOnce (target : Option String) :
    (townsScript target).DefinesOnce "Code" where
  column := ⟨_, List.mem_cons_self, by decide⟩
  table := by
    intro other hmem
    cases hmem
  notAdded := by
    intro table column foreignKey hmem _
    simp [townsScript, TableScript.statements, additions] at hmem
    obtain ⟨-, rfl, -⟩ := hmem
    decide

theorem schemaOfStatements?_addingKey_named :
    (townsScript (some "code")).DefinesOnce "Code" ∧
      schemaOfStatements? .standard ((townsScript (some "code")).withKey "Code").statements =
        schemaOfStatements? .standard ((townsScript (some "code")).addingKey "Code") := by
  have honce := townsScript_definesOnce (some "code")
  exact ⟨honce, (schemaOfStatements?_addingKey honce .standard).2 (by decide)⟩

/-- Streets that refer to no column of their town refer to the key of the definition,
but not to the key that is added. -/
theorem schemaOfStatements?_addingKey_unnamed :
    (townsScript none).DefinesOnce "Code" ∧
      (schemaOfStatements? .standard ((townsScript none).withKey "Code").statements).map
        Schema.relationshipCount = some 4 ∧
      (schemaOfStatements? .standard ((townsScript none).addingKey "Code")).map
        Schema.relationshipCount = some 2 := by
  refine ⟨townsScript_definesOnce none, ?_, ?_⟩
  · decide
  · decide

end Sql

end Crowfoot
