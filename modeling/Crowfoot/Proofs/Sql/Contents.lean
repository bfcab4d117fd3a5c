import Crowfoot.Proofs.Sql.Catalogs
import Crowfoot.Proofs.Sql.Origins

/-!
# What base tables hold

Keys, references and cardinalities are put on the columns that are there.  Which
tables a script has and which columns they have, in which order, in which spelling
and of which types, is said by the definitions of tables and by the columns that are
added to them, and by nothing else.
-/

namespace Crowfoot

/-- What tables hold: their names, each with the names and types of its columns. -/
def contents (tables : List Table) : List (String × List (String × String)) :=
  tables.map fun table => (table.name, table.columns.map fun column => (column.name, column.type))

theorem contents_changeColumn {change : Column → Column}
    (hkeep : ∀ column, (change column).name = column.name ∧ (change column).type = column.type)
    (tables : List Table) (table column : String) :
    contents (changeColumn tables table column change) = contents tables := by
  apply map_modifyFirst
  intro found
  simp only [Table.modifyColumn, Prod.mk.injEq, true_and]
  apply map_modifyFirst
  intro column
  rw [(hkeep column).1, (hkeep column).2]

/-- Changes of keys and references change nothing about what tables hold. -/
theorem Changed.contents_eq {before after : List Table} (hchanged : Changed before after) :
    contents after = contents before := by
  induction hchanged with
  | refl => rfl
  | step hbefore table column hchange ih =>
    rw [← ih]
    apply contents_changeColumn
    cases hchange <;> exact fun _ => ⟨rfl, rfl⟩

namespace Sql

/-- The statement is what some lexemes read as. -/
def Statement.IsParsed (statement : Statement) : Prop :=
  ∃ lexemes, Statement.ofLexemes? lexemes = some statement

theorem Statement.IsParsed.isDeclared {statement : Statement} (hparsed : statement.IsParsed) :
    statement.IsDeclared :=
  hparsed.elim fun _ hread => ofLexemes?_isDeclared hread

theorem ofScript_isParsed {text : List Char} :
    ∀ statement ∈ Statement.ofScript text, statement.IsParsed := by
  intro statement hmem
  obtain ⟨lexemes, -, hread⟩ := List.mem_filterMap.1 hmem
  exact ⟨lexemes, hread⟩

section Statements

variable {statements : List Statement}

/-- What definitions and added columns say that there is: each table that is defined with a
column once, where it is defined first and spelled as it is defined last; and each column of its
last definition and of those that are added to it once, where it stands first and as it is
declared last. -/
def declaredContents (statements : List Statement) : List (String × List (String × String)) :=
  (latest TableDefinition.name (properDefinitions (tableDefinitions statements))).map
    fun definition =>
      (definition.name,
        (latest Column.name (definition.columns ++ addedColumns statements definition.name)).map
          fun column => (column.name, column.type))

theorem columns_foldl_upsertColumn (columns : List Column) (table : Table) :
    (columns.foldl Table.upsertColumn table).columns =
      columns.foldl (putNamed Column.name) table.columns := by
  induction columns generalizing table with
  | nil => rfl
  | cons column rest ih => exact ih (table.upsertColumn column)

theorem contents_catalogOf
    (hdistinct : ∀ definition ∈ tableDefinitions statements,
      DistinctNames (definition.columns.map Column.name)) :
    contents (catalogOf statements).tables = declaredContents statements := by
  rw [contents, declaredContents, tables_catalogOf, List.map_map]
  apply List.map_congr_left
  intro definition hmem
  have hproper := List.mem_filter.1 (mem_of_mem_latest TableDefinition.name hmem)
  rw [Function.comp_apply, columns_foldl_upsertColumn, foldl_upsertColumn_name, definedTable,
    foldl_putNamed_of_distinctNames Column.name (hdistinct definition hproper.1)]

theorem contents_finished {all : List Table} {finish : Table → Table}
    (hfinish : Finishes all finish) (tables : List Table) :
    contents (tables.map finish) = contents tables := by
  rw [contents, contents, List.map_map]
  apply List.map_congr_left
  intro table _
  rw [Function.comp_apply, (hfinish table).1, (hfinish table).2.2, List.map_map]
  rfl

/-- The base tables of a schema, if there are any, are those that are defined with a column, each
with the columns of its last definition and those that are added to it. -/
theorem schemaOfStatements?_contents (config : CategoryConfig)
    (hparsed : ∀ statement ∈ statements, statement.IsParsed) :
    ((schemaOfStatements? config statements).map fun schema => contents schema.bases).getD [] =
      declaredContents statements := by
  have hdeclared : ∀ statement ∈ statements, statement.IsDeclared :=
    fun statement hmem => (hparsed statement hmem).isDeclared
  have hdistinct : ∀ definition ∈ tableDefinitions statements,
      DistinctNames (definition.columns.map Column.name) :=
    fun definition hmem => (tableDefinitions_isDeclared hdeclared definition hmem).names
  obtain ⟨finish, hfinish, hassign⟩ := assign_schemaTables config statements
  have htables : ((schemaOfStatements? config statements).map fun schema =>
      contents schema.bases).getD [] = contents ((config.assign (schemaTables statements)).filter
        fun table => !table.isView) := by
    rw [schemaOfStatements?]
    split
    · rename_i hempty
      rw [List.isEmpty_iff.1 hempty]
      rfl
    · rfl
  rw [htables, hassign, finished_bases hdeclared hfinish, contents_finished hfinish,
    (baseTables_changed statements).contents_eq, contents_catalogOf hdistinct]

end Statements

/-- A script that adds a column before the table is there, and defines the table again. -/
def grownScript : String :=
  "ALTER TABLE Orders ADD COLUMN Total INT;CREATE TABLE notes (id INT);" ++
    "CREATE TABLE orders (id INT, total TEXT);ALTER TABLE orders ADD note TEXT;" ++
    "CREATE TABLE ORDERS (ID BIGINT);CREATE TABLE empty (CHECK (1 = 1));"

theorem schemaOfStatements?_contents_grownScript :
    (∀ statement ∈ Statement.ofScript grownScript.toList, statement.IsParsed) ∧
      ((schemaOfStatements? .standard (Statement.ofScript grownScript.toList)).map
        fun schema => contents schema.bases).getD [] =
          [("notes", [("id", "INT")]),
            ("ORDERS", [("ID", "BIGINT"), ("Total", "INT"), ("note", "TEXT")])] := by
  refine ⟨ofScript_isParsed, ?_⟩
  rw [schemaOfStatements?_contents .standard ofScript_isParsed]
  decide +kernel

end Sql

end Crowfoot
