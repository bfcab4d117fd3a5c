import Crowfoot.Proofs.Sql.LastKeys

/-!
# Changes that are made early

A column may be changed where its table is defined, or after all tables and columns
are there.  Both come to the same if the change keeps the name of the column, for
definitions and added columns look at nothing else, and if there is no other
definition that takes the column away again.  Keys may be put on columns before or
after such a change, and so may foreign keys that belong to other columns.
-/

namespace Crowfoot

namespace Sql

/-- A script with the definition of a table picked out. -/
structure TableScript where
  before : List Statement
  definition : TableDefinition
  after : List Statement

/-- The definition with a column changed. -/
def TableDefinition.changing (definition : TableDefinition) (name : String)
    (change : Column → Column) : TableDefinition :=
  { definition with
    columns := modifyFirst (fun column => Text.sameName column.name name) change
      definition.columns }

namespace TableScript

def statements (script : TableScript) : List Statement :=
  script.before ++ .createTable script.definition :: script.after

/-- The script with a column changed in the definition. -/
def changing (script : TableScript) (name : String) (change : Column → Column) : TableScript :=
  { script with definition := script.definition.changing name change }

/-- The statements with an addition to the table at the end. -/
def appending (script : TableScript) (clause : Clause) : List Statement :=
  script.statements ++ [.alterTable ⟨script.definition.name, [clause]⟩]

/-- The table has a column of the name that is not added again, and it is not defined
again either. -/
structure DefinesOnce (script : TableScript) (name : String) : Prop where
  column : ∃ column ∈ script.definition.columns, Text.sameName column.name name = true
  table : ∀ other ∈ properDefinitions (tableDefinitions script.after),
    Text.sameName other.name script.definition.name = false
  notAdded : ∀ table column foreignKey,
    (table, Clause.column column foreignKey) ∈ additions script.statements →
      Text.sameName table script.definition.name = true → Text.sameName column.name name = false

end TableScript

/-! ## Changes of columns in either order -/

/-- Two changes of columns may be made in either order if they commute on the columns that
both can mean. -/
theorem changeColumn_comm {change other : Column → Column}
    (hname : ∀ column, (change column).name = column.name)
    (hother : ∀ column, (other column).name = column.name)
    {table name otherTable otherName : String}
    (hcommute : Text.sameName table otherTable = true → Text.sameName name otherName = true →
      ∀ column, other (change column) = change (other column)) (tables : List Table) :
    changeColumn (changeColumn tables table name change) otherTable otherName other =
      changeColumn (changeColumn tables otherTable otherName other) table name change := by
  have hmeet {left right middle : String} (hleft : Text.sameName middle left = true)
      (hright : Text.sameName middle right = true) : Text.sameName left right = true := by
    rwa [Text.sameName_congr hleft] at hright
  apply modifyFirst_comm
  · intro found htable htableOther
    simp only [Table.modifyColumn, Table.mk.injEq, true_and, and_true]
    apply modifyFirst_comm
    · intro column hcolumn hcolumnOther
      exact hcommute (hmeet htable htableOther) (hmeet hcolumn hcolumnOther) column
    · exact fun column => by rw [hname]
    · exact fun column => by rw [hother]
  all_goals exact fun _ => rfl

/-- A change of a column that keeps its name and may be made before or after a key is put on
the column. -/
structure LeavesKeys (change : Column → Column) : Prop where
  name_eq : ∀ column, (change column).name = column.name
  asUnique_comm : ∀ column, (change column).asUnique = change column.asUnique
  asPrimaryKey_comm : ∀ column, (change column).asPrimaryKey = change column.asPrimaryKey

theorem leavesKeys_asUnique : LeavesKeys Column.asUnique :=
  ⟨fun _ => rfl, fun _ => rfl, fun _ => rfl⟩

theorem leavesKeys_asPrimaryKey : LeavesKeys Column.asPrimaryKey :=
  ⟨fun _ => rfl, fun _ => rfl, fun _ => rfl⟩

theorem leavesKeys_pointTo (target : Option (String × String)) : LeavesKeys (pointTo target) where
  name_eq := pointTo_name target
  asUnique_comm column := by cases target <;> rfl
  asPrimaryKey_comm column := by cases target <;> rfl

section Change

variable {change : Column → Column} (table name : String)

/-- Keys may be added before or after the change. -/
theorem LeavesKeys.applyKey_changeColumn (hleaves : LeavesKeys change) (tables : List Table)
    (addition : String × Clause) :
    applyKey (changeColumn tables table name change) addition =
      changeColumn (applyKey tables addition) table name change := by
  rw [applyKey.eq_def, applyKey.eq_def]
  split
  · apply changeColumn_comm hleaves.name_eq
    · exact fun _ => rfl
    · exact fun _ _ => hleaves.asUnique_comm
  · rw [modifyTable_foldl, modifyTable_foldl]
    apply List.foldl_hom fun tables => changeColumn tables table name change
    intro tables other
    apply changeColumn_comm hleaves.name_eq
    · exact fun _ => rfl
    · exact fun _ _ => hleaves.asPrimaryKey_comm
  · rfl

theorem LeavesKeys.foldl_applyKey_changeColumn (hleaves : LeavesKeys change)
    (added : List (String × Clause)) (tables : List Table) :
    added.foldl applyKey (changeColumn tables table name change) =
      changeColumn (added.foldl applyKey tables) table name change := by
  apply List.foldl_hom fun tables => changeColumn tables table name change
  exact hleaves.applyKey_changeColumn table name

variable (hname : ∀ column, (change column).name = column.name)

include hname

/-- Foreign keys may be put on columns before or after the change, if the two commute where they
meet. -/
theorem foldl_pointKey_changeColumn {target : ForeignKey → Option (String × String)}
    {keys : List PendingKey}
    (hcommute : ∀ key ∈ keys, key.isOn table name = true → ∀ column,
      pointTo (target key.foreignKey) (change column) =
        change (pointTo (target key.foreignKey) column)) (tables : List Table) :
    keys.foldl (pointKey target) (changeColumn tables table name change) =
      changeColumn (keys.foldl (pointKey target) tables) table name change := by
  induction keys generalizing tables with
  | nil => rfl
  | cons key rest ih =>
    have hstep : pointKey target (changeColumn tables table name change) key =
        changeColumn (pointKey target tables key) table name change := by
      apply changeColumn_comm hname (pointTo_name _)
      intro htable hcolumn
      exact hcommute key List.mem_cons_self (by rw [PendingKey.isOn, htable, hcolumn]; rfl)
    rw [List.foldl_cons, hstep, List.foldl_cons,
      ih fun other hother => hcommute other (List.mem_cons_of_mem key hother)]

/-! ## Catalogs -/

/-- The catalog with a column changed. -/
def Catalog.changing (catalog : Catalog) (table name : String) (change : Column → Column) :
    Catalog :=
  { catalog with tables := changeColumn catalog.tables table name change }

omit hname in
/-- A definition with a changed column puts its table with the changed column in the
catalog. -/
theorem define_changing (catalog : Catalog) {definition : TableDefinition}
    (hcolumns : definition.columns ≠ []) :
    catalog.define (definition.changing name change) =
      (catalog.define definition).changing definition.name name change := by
  have hsome : ¬definition.columns.isEmpty = true := by simpa using hcolumns
  have hchanged : ¬(definition.changing name change).columns.isEmpty = true := by
    rw [← List.length_eq_zero_iff.trans List.isEmpty_iff.symm, TableDefinition.changing,
      length_modifyFirst]
    simpa using hcolumns
  rw [Catalog.define, Catalog.define, if_neg hsome, if_neg hchanged, Catalog.changing]
  congr 1
  symm
  apply modifyFirst_putFirst
  exact Text.sameName_refl definition.name

omit hname in
/-- A definition of another table leaves the change. -/
theorem changing_define (catalog : Catalog) {other : TableDefinition}
    (hother : other.columns ≠ [] → Text.sameName other.name table = false) :
    (catalog.changing table name change).define other =
      (catalog.define other).changing table name change := by
  rw [Catalog.define, Catalog.define]
  split
  · rfl
  · rename_i hcolumns
    have hdiffer : Text.sameName other.name table = false := hother (by simpa using hcolumns)
    rw [Catalog.changing, Catalog.changing]
    congr 1
    apply putFirst_modifyFirst
    · intro old hold
      rw [Text.sameName_congr hold, Text.sameName_comm, hdiffer]
    · exact fun _ => rfl
    · exact hdiffer

/-- Another column may be put in a table before or after the change. -/
theorem upsertColumn_modifyColumn {column : Column}
    (hdiffer : Text.sameName column.name name = false) (found : Table) :
    (found.modifyColumn name change).upsertColumn column =
      (found.upsertColumn column).modifyColumn name change := by
  simp only [Table.modifyColumn, Table.upsertColumn, Table.mk.injEq, true_and, and_true]
  apply putFirst_modifyFirst
  · intro old hold
    rw [Text.sameName_congr hold, Text.sameName_comm, hdiffer]
  · exact fun old => by rw [hname]
  · exact hdiffer

omit hname in
/-- A table of the same name is found after the change. -/
theorem findTable?_changing_rel (catalog : Catalog) (owner : String) :
    Option.Rel (fun left right : Table => left.name = right.name)
      (findTable? (catalog.changing table name change).tables owner)
      (findTable? catalog.tables owner) := by
  have hnames : List.Forall₂ (fun left right : Table => left.name = right.name)
      (catalog.changing table name change).tables catalog.tables := by
    apply forall₂_modifyFirst <;> exact fun _ => rfl
  exact find?_rel (fun _ _ hname => by rw [hname]) hnames

/-- An added column, if it is not the changed one, leaves the change. -/
theorem changing_addColumn (catalog : Catalog) {addition : String × Clause}
    (hother : ∀ column foreignKey, addition.2 = .column column foreignKey →
      Text.sameName addition.1 table = true → Text.sameName column.name name = false) :
    (catalog.changing table name change).addColumn addition =
      (catalog.addColumn addition).changing table name change := by
  obtain ⟨owner, clause⟩ := addition
  cases clause with
  | column column foreignKey =>
    have htables : modifyTable (catalog.changing table name change).tables owner
        (·.upsertColumn column) = changeColumn
          (modifyTable catalog.tables owner (·.upsertColumn column)) table name change := by
      apply modifyFirst_comm
      · intro found hchanged howner
        rw [Text.sameName_comm] at howner
        exact upsertColumn_modifyColumn name hname
          (hother column foreignKey rfl (Text.sameName_trans howner hchanged)) found
      all_goals exact fun _ => rfl
    have hfound : Option.Rel (fun left right : Table => left.name = right.name)
        (findTable? (catalog.changing table name change).tables owner)
        (findTable? catalog.tables owner) := findTable?_changing_rel table name catalog owner
    simp only [Catalog.addColumn, htables]
    revert hfound
    generalize findTable? (catalog.changing table name change).tables owner = changed
    generalize findTable? catalog.tables owner = plain
    intro hfound
    cases hfound with
    | none => rfl
    | some hname => simp only [hname, Catalog.changing]
  | _ => rfl

omit hname in
/-- What leaves the change, step by step, leaves it in the end. -/
theorem foldl_changing {α : Type} {step : Catalog → α → Catalog} {actions : List α}
    (hstep : ∀ action ∈ actions, ∀ catalog : Catalog,
      step (catalog.changing table name change) action =
        (step catalog action).changing table name change) (catalog : Catalog) :
    actions.foldl step (catalog.changing table name change) =
      (actions.foldl step catalog).changing table name change := by
  induction actions generalizing catalog with
  | nil => rfl
  | cons action rest ih =>
    rw [List.foldl_cons, hstep action List.mem_cons_self,
      ih fun other hother => hstep other (List.mem_cons_of_mem action hother), List.foldl_cons]

end Change

/-! ## Scripts -/

namespace TableScript

variable (script : TableScript) (name : String) (change : Column → Column) (clause : Clause)

theorem tableDefinitions_statements :
    tableDefinitions script.statements =
      tableDefinitions script.before ++ script.definition :: tableDefinitions script.after := by
  simp [tableDefinitions, statements]

theorem additions_changing :
    additions (script.changing name change).statements = additions script.statements := by
  simp [additions, statements, changing]

theorem viewDefinitions_changing :
    viewDefinitions (script.changing name change).statements =
      viewDefinitions script.statements := by
  simp [viewDefinitions, statements, changing]

theorem namings_changing :
    namings (script.changing name change).statements = namings script.statements := by
  simp [namings, statements, changing]

theorem tableDefinitions_appending :
    tableDefinitions (script.appending clause) = tableDefinitions script.statements := by
  simp [tableDefinitions, appending]

theorem additions_appending :
    additions (script.appending clause) =
      additions script.statements ++ [(script.definition.name, clause)] := by
  simp [additions, appending]

theorem viewDefinitions_appending :
    viewDefinitions (script.appending clause) = viewDefinitions script.statements := by
  simp [viewDefinitions, appending]

theorem namings_appending : namings (script.appending clause) = namings script.statements := by
  simp [namings, appending]

variable {clause} in
/-- An addition at the end, if it is no column, is made last of its kind. -/
theorem baseTables_appending (hclause : clause.column? = none) :
    baseTables (script.appending clause) =
      applyForeignKeys
        ((additions script.statements).foldl applyForeignKeys
          (applyKey (keyedTables script.statements) (script.definition.name, clause)))
        (script.definition.name, clause) := by
  have hcatalog : catalogOf (script.appending clause) = catalogOf script.statements := by
    rw [catalogOf, tableDefinitions_appending, additions_appending, List.foldl_append, ← catalogOf]
    cases clause with
    | column declared foreignKey => cases hclause
    | _ => rfl
  simp only [baseTables, hcatalog, additions_appending, List.foldl_append, List.foldl_cons,
    List.foldl_nil, keyedTables]

variable {script name change}

/-- A change in the definition is a change in the catalog, and nothing else is changed by it. -/
theorem DefinesOnce.catalogOf_changing (honce : script.DefinesOnce name)
    (hname : ∀ column, (change column).name = column.name) :
    catalogOf (script.changing name change).statements =
      (catalogOf script.statements).changing script.definition.name name change := by
  obtain ⟨column, hcolumn, -⟩ := honce.column
  have hdefinitions (other : TableDefinition) (hmem : other ∈ tableDefinitions script.after)
      (catalog : Catalog) :
      (catalog.changing script.definition.name name change).define other =
        (catalog.define other).changing script.definition.name name change := by
    apply changing_define
    intro hcolumns
    exact honce.table other (List.mem_filter.2 ⟨hmem, by simpa using hcolumns⟩)
  have hadditions (addition : String × Clause) (hmem : addition ∈ additions script.statements)
      (catalog : Catalog) :
      (catalog.changing script.definition.name name change).addColumn addition =
        (catalog.addColumn addition).changing script.definition.name name change := by
    apply changing_addColumn _ _ hname
    intro added foreignKey hclause
    exact honce.notAdded addition.1 added foreignKey (hclause ▸ hmem)
  have hdefinition : ((tableDefinitions script.before).foldl Catalog.define {}).define
      (script.definition.changing name change) =
        (((tableDefinitions script.before).foldl Catalog.define {}).define
          script.definition).changing script.definition.name name change :=
    define_changing name _ (List.ne_nil_of_mem hcolumn)
  rw [catalogOf, catalogOf, tableDefinitions_statements, tableDefinitions_statements,
    additions_changing, List.foldl_append, List.foldl_append, List.foldl_cons, List.foldl_cons]
  calc
    _ = (additions script.statements).foldl Catalog.addColumn
        ((tableDefinitions script.after).foldl Catalog.define
          ((((tableDefinitions script.before).foldl Catalog.define {}).define
            script.definition).changing script.definition.name name change)) := by
      rw [← hdefinition]
      rfl
    _ = _ := by rw [foldl_changing _ _ hdefinitions, foldl_changing _ _ hadditions]

end TableScript

end Sql

end Crowfoot
