import Crowfoot.Proofs.Schema.Names
import Crowfoot.Schema.Category

/-!
# Outlines

The outline of a list of tables is what names alone say about it: which tables
there are and which columns each of them has.  Whether a reference has a target
depends on the outline only, so that keys and references can be put on columns
one after the other without any target getting lost.
-/

namespace Crowfoot

/-- The names of tables, each with the names of its columns. -/
def outline (tables : List Table) : List (String × List String) :=
  tables.map fun table => (table.name, table.columns.map Column.name)

/-- Some table of exactly this name has a column of exactly that name. -/
def HasColumn (tables : List Table) (table column : String) : Prop :=
  ∃ found ∈ tables, found.name = table ∧ ∃ key ∈ found.columns, key.name = column

theorem hasColumn_iff_outline {tables : List Table} {table column : String} :
    HasColumn tables table column ↔
      ∃ entry ∈ outline tables, entry.1 = table ∧ column ∈ entry.2 := by
  constructor
  · rintro ⟨found, hfound, hname, key, hkey, rfl⟩
    exact ⟨_, List.mem_map_of_mem hfound, hname, List.mem_map_of_mem hkey⟩
  · rintro ⟨_, hentry, hname, hcolumn⟩
    obtain ⟨found, hfound, rfl⟩ := List.mem_map.1 hentry
    exact ⟨found, hfound, hname, List.mem_map.1 hcolumn⟩

theorem HasColumn.of_outline_eq {before after : List Table} {table column : String}
    (houtline : outline after = outline before) (hhas : HasColumn before table column) :
    HasColumn after table column := by
  rw [hasColumn_iff_outline, houtline, ← hasColumn_iff_outline]
  exact hhas

/-- Every table of an outline is that of a table with the same names. -/
theorem exists_of_outline_eq {before after : List Table} (houtline : outline after = outline before)
    {table : Table} (hmem : table ∈ after) :
    ∃ old ∈ before, old.name = table.name ∧
      old.columns.map Column.name = table.columns.map Column.name := by
  have hentry : (table.name, table.columns.map Column.name) ∈ outline before :=
    houtline ▸ List.mem_map_of_mem hmem
  obtain ⟨old, hold, hsame⟩ := List.mem_map.1 hentry
  exact ⟨old, hold, (Prod.mk.inj hsame).1, (Prod.mk.inj hsame).2⟩

theorem map_name_of_outline_eq {before after : List Table}
    (houtline : outline after = outline before) :
    after.map Table.name = before.map Table.name := by
  simpa [outline, Function.comp_def] using congrArg (List.map Prod.fst) houtline

/-- Tables of different names, each with columns, and these of different names. -/
structure WellNamed (tables : List Table) : Prop where
  distinctTables : DistinctNames (tables.map Table.name)
  nonempty : ∀ table ∈ tables, table.columns ≠ []
  distinctColumns : ∀ table ∈ tables, DistinctNames (table.columns.map Column.name)

namespace WellNamed

variable {tables : List Table}

theorem of_outline_eq {after : List Table} (houtline : outline after = outline tables)
    (hnamed : WellNamed tables) : WellNamed after where
  distinctTables := map_name_of_outline_eq houtline ▸ hnamed.distinctTables
  nonempty table hmem hnil := by
    obtain ⟨old, hold, _, hcolumns⟩ := exists_of_outline_eq houtline hmem
    apply hnamed.nonempty old hold
    simpa [hnil] using hcolumns
  distinctColumns table hmem := by
    obtain ⟨old, hold, _, hcolumns⟩ := exists_of_outline_eq houtline hmem
    exact hcolumns ▸ hnamed.distinctColumns old hold

/-- A table that is there is found under its own name. -/
theorem findTable?_eq (hnamed : WellNamed tables) {table : Table} (hmem : table ∈ tables) :
    findTable? tables table.name = some table :=
  find?_of_distinctNames Table.name hnamed.distinctTables hmem

/-- A column that is there is found under its own name. -/
theorem column?_eq (hnamed : WellNamed tables) {table : Table} (htable : table ∈ tables)
    {column : Column} (hmem : column ∈ table.columns) :
    table.column? column.name = some column :=
  find?_of_distinctNames Column.name (hnamed.distinctColumns table htable) hmem

end WellNamed

theorem findTable?_mem {tables : List Table} {name : String} {table : Table}
    (hfound : findTable? tables name = some table) : table ∈ tables :=
  List.mem_of_find?_eq_some hfound

theorem Table.column?_mem {table : Table} {name : String} {column : Column}
    (hfound : table.column? name = some column) : column ∈ table.columns :=
  List.mem_of_find?_eq_some hfound

theorem Table.primaryKey?_mem {table : Table} {column : Column}
    (hfound : table.primaryKey? = some column) : column ∈ table.columns :=
  List.mem_of_find?_eq_some hfound

theorem HasColumn.of_mem {tables : List Table} {table : Table} {column : Column}
    (htable : table ∈ tables) (hcolumn : column ∈ table.columns) :
    HasColumn tables table.name column.name :=
  ⟨table, htable, rfl, column, hcolumn, rfl⟩

/-- The flags of the column agree with each other, and its reference, if it has
one, points at a column of the tables. -/
structure Column.IsSound (tables : List Table) (column : Column) : Prop where
  consistent : column.IsConsistent
  keyNotNull : column.isPrimaryKey = true → column.nullability = .notNull
  resolved : ∀ reference ∈ column.references, HasColumn tables reference.table reference.column

theorem Column.IsSound.of_hasColumn {before after : List Table} {column : Column}
    (hkeep : ∀ table name, HasColumn before table name → HasColumn after table name)
    (hsound : column.IsSound before) : column.IsSound after :=
  ⟨hsound.consistent, hsound.keyNotNull,
    fun reference hmem => hkeep _ _ (hsound.resolved reference hmem)⟩

/-- Categories and colours are all that is assigned to a table. -/
theorem CategoryConfig.assign_eq_map (config : CategoryConfig) (tables : List Table) :
    ∃ draw : Table → Table, config.assign tables = tables.map draw ∧
      ∀ table, (draw table).name = table.name ∧ (draw table).columns = table.columns ∧
        (draw table).isView = table.isView :=
  ⟨_, rfl, fun _ => ⟨rfl, rfl, rfl⟩⟩

/-! ## Changes of single columns -/

/-- What the statements of a script do to a column once all columns are there. -/
inductive ColumnChange (tables : List Table) : (Column → Column) → Prop
  | unique : ColumnChange tables Column.asUnique
  | primaryKey : ColumnChange tables Column.asPrimaryKey
  | refer {table column : String} (htarget : HasColumn tables table column) :
      ColumnChange tables (·.referTo table column)

theorem ColumnChange.name_eq {tables : List Table} {change : Column → Column}
    (hchange : ColumnChange tables change) (column : Column) :
    (change column).name = column.name := by
  cases hchange <;> rfl

/-- Every change leaves a column sound. -/
theorem ColumnChange.isSound {tables : List Table} {change : Column → Column}
    (hchange : ColumnChange tables change) {column : Column} (hsound : column.IsSound tables) :
    (change column).IsSound tables := by
  cases hchange with
  | unique => exact ⟨hsound.consistent, hsound.keyNotNull, hsound.resolved⟩
  | primaryKey => exact ⟨hsound.consistent, fun _ => rfl, hsound.resolved⟩
  | refer htarget =>
    refine ⟨rfl, hsound.keyNotNull, ?_⟩
    rintro _ ⟨⟩
    exact htarget

/-- The first column of a name in the first table of a name, changed. -/
def changeColumn (tables : List Table) (table column : String) (change : Column → Column) :
    List Table :=
  modifyTable tables table (·.modifyColumn column change)

/-- A change that keeps the name of a column keeps the outline. -/
theorem outline_changeColumn {change : Column → Column}
    (hname : ∀ column, (change column).name = column.name) (tables : List Table)
    (table column : String) :
    outline (changeColumn tables table column change) = outline tables := by
  apply map_modifyFirst
  intro element
  simp only [Table.modifyColumn, Prod.mk.injEq, true_and]
  exact map_modifyFirst Column.name hname element.columns

/-- One list of tables comes from another by changes of single columns. -/
inductive Changed (before : List Table) : List Table → Prop
  | refl : Changed before before
  | step {tables : List Table} (hbefore : Changed before tables) (table column : String)
      {change : Column → Column} (hchange : ColumnChange tables change) :
      Changed before (changeColumn tables table column change)

namespace Changed

variable {before after : List Table}

theorem trans {middle : List Table} (hfirst : Changed before middle)
    (hsecond : Changed middle after) : Changed before after := by
  induction hsecond with
  | refl => exact hfirst
  | step hmiddle table column hchange ih => exact ih.step table column hchange

theorem outline_eq (hchanged : Changed before after) : outline after = outline before := by
  induction hchanged with
  | refl => rfl
  | step hbefore table column hchange ih =>
    rw [outline_changeColumn hchange.name_eq, ih]

/-- What holds of every column at first, and is kept by every change, holds of
every column at last. -/
theorem forall_column {P : Column → Prop} (hchanged : Changed before after)
    (hstart : ∀ table ∈ before, ∀ column ∈ table.columns, P column)
    (hkeep : ∀ change, ColumnChange before change → ∀ column, P column → P (change column)) :
    ∀ table ∈ after, ∀ column ∈ table.columns, P column := by
  induction hchanged with
  | refl => exact hstart
  | @step tables hbefore name column change hchange ih =>
    have hchange' : ColumnChange before change := by
      cases hchange with
      | unique => exact .unique
      | primaryKey => exact .primaryKey
      | refer htarget => exact .refer (htarget.of_outline_eq hbefore.outline_eq.symm)
    intro table htable other hother
    rcases mem_modifyFirst htable with hold | ⟨old, hold, _, rfl⟩
    · exact ih table hold other hother
    · rcases mem_modifyFirst hother with hkept | ⟨kept, hkept, _, rfl⟩
      · exact ih old hold other hkept
      · exact hkeep _ hchange' kept (ih old hold kept hkept)

/-- No change makes a view of a table or a table of a view. -/
theorem map_isView (hchanged : Changed before after) :
    after.map Table.isView = before.map Table.isView := by
  induction hchanged with
  | refl => rfl
  | step hbefore name column hchange ih =>
    rw [← ih]
    exact map_modifyFirst Table.isView (by intro element; rfl) _

end Changed

/-! ## Names that are not there -/

theorem modifyTable_eq_self {tables : List Table} {table : String}
    (hnone : findTable? tables table = none) (change : Table → Table) :
    modifyTable tables table change = tables := by
  apply modifyFirst_eq_self
  intro found hfound
  rw [findTable?, hfound] at hnone
  cases hnone

/-- The column of a name in the table of a name. -/
def findColumn? (tables : List Table) (table column : String) : Option Column :=
  (findTable? tables table).bind (·.column? column)

/-- A column that is not there is not changed. -/
theorem changeColumn_eq_self {tables : List Table} {table column : String}
    (hlacks : findColumn? tables table column = none) (change : Column → Column) :
    changeColumn tables table column change = tables := by
  apply modifyFirst_eq_self
  intro found hfound
  have hnone : found.column? column = none := by
    rw [findColumn?, findTable?, hfound] at hlacks
    exact hlacks
  rw [Table.modifyColumn, modifyFirst_eq_self]
  intro first hfirst
  rw [Table.column?, hfirst] at hnone
  cases hnone

/-- Which columns are found depends on the outline only. -/
theorem map_name_findColumn? (tables : List Table) (table column : String) :
    (findColumn? tables table column).map Column.name =
      ((outline tables).find? fun entry => Text.sameName entry.1 table).bind fun entry =>
        entry.2.find? fun name => Text.sameName name column := by
  rw [outline, List.find?_map, findColumn?, findTable?, Option.map_bind, Option.bind_map]
  congr 1
  funext found
  rw [Function.comp_apply, Function.comp_apply, List.find?_map]
  rfl

theorem findColumn?_eq_none_of_outline_eq {before after : List Table}
    (houtline : outline after = outline before) {table column : String}
    (hlacks : findColumn? before table column = none) :
    findColumn? after table column = none := by
  rw [← Option.map_eq_none_iff (f := Column.name), map_name_findColumn?] at hlacks ⊢
  rw [houtline, hlacks]

theorem map_name_findTable? (tables : List Table) (table : String) :
    (findTable? tables table).map Table.name =
      (tables.map Table.name).find? fun name => Text.sameName name table := by
  rw [List.find?_map]
  rfl

theorem findTable?_eq_none_of_map_name_eq {before after : List Table}
    (hnames : after.map Table.name = before.map Table.name) {table : String}
    (hnone : findTable? before table = none) : findTable? after table = none := by
  rw [← Option.map_eq_none_iff (f := Table.name), map_name_findTable?] at hnone ⊢
  rw [hnames, hnone]

theorem findColumn?_eq_none_of_findTable? {tables : List Table} {table : String}
    (hnone : findTable? tables table = none) (column : String) :
    findColumn? tables table column = none := by
  rw [findColumn?, hnone, Option.bind_none]

end Crowfoot
