import Crowfoot.Schema.Basic
import Crowfoot.Sql.Quote
import Crowfoot.Text.Columns

/-!
# Writing SQL

A schema is written as one `CREATE TABLE` statement per table and one `CREATE VIEW` statement per
view. A view is written as a selection of the columns it is derived from, with `NULL` for the
others, from all tables that it is linked to.
-/

namespace Crowfoot.Sql

/-- The constraints of a column, each with a space in front. A primary key says all about
uniqueness and missing values. -/
def constraintText (column : Column) : String :=
  if column.isPrimaryKey then
    " PRIMARY KEY"
  else
    (if column.isUnique then " UNIQUE" else "") ++
      match column.nullability with
      | .notNull => " NOT NULL"
      | .nullable => " NULL"
      | .unknown => ""

/-- The reference of a column, with a space in front. -/
def referenceText (column : Column) : String :=
  match column.references with
  | none => ""
  | some reference =>
    " REFERENCES " ++ quoteName reference.table ++ "(" ++ quoteName reference.column ++ ")"

/-- The type of a column as it is written. -/
def typeText (column : Column) : String :=
  if (Text.trim column.type.toList).isEmpty then "TEXT" else column.type

/-- The definition of a column, its name padded to a width. -/
def columnText (width : Nat) (column : Column) : String :=
  "    " ++ Text.padTo width (quoteName column.name) ++ " " ++ typeText column ++
    constraintText column ++ referenceText column

/-- The columns that belong to the definition of a table or view. -/
def definedColumns (table : Table) : List Column :=
  table.columns.filter fun column => !column.isVirtual

/-- The `CREATE TABLE` statement of a table. It is given a column if it has none, for without one it
would not be read back. -/
def tableText (table : Table) : String :=
  let columns := definedColumns table
  let width := Text.widest (columns.map fun column => quoteName column.name)
  let lines := if columns.isEmpty then ["    id INT"] else columns.map (columnText width)
  "CREATE TABLE " ++ quoteName table.name ++ " (\n" ++ ",\n".intercalate lines ++ "\n);\n"

/-- An item of the select list of a written view. -/
def selectText (column : Column) : String :=
  match column.sourceTable, column.sourceColumn with
  | some table, some source =>
    quoteName table ++ "." ++ quoteName source ++
      if source = column.name then "" else " AS " ++ quoteName column.name
  | _, _ => "NULL AS " ++ quoteName column.name

/-- Names without repetitions up to ASCII case, in the spelling of the first. -/
def distinctNames (names : List String) : List String :=
  names.foldl (fun seen name => if seen.any (Text.sameName · name) then seen else seen ++ [name]) []

/-- The tables that a written view selects from: those its columns come from, then those it is only
linked to. A view without any selects from itself, which names nothing known. -/
def viewSources (view : Table) : List String :=
  let derived := view.columns.filterMap Column.sourceTable
  let linked := (view.columns.filter Column.isVirtual).filterMap fun column =>
    column.references.map ColumnReference.table
  let sources := distinctNames (derived ++ linked)
  if sources.isEmpty then [view.name] else sources

/-- The `CREATE VIEW` statement of a view. -/
def viewText (view : Table) : String :=
  let items := (definedColumns view).map selectText
  let list := if items.isEmpty then ["NULL AS id"] else items
  "CREATE VIEW " ++ quoteName view.name ++ " AS SELECT " ++ ", ".intercalate list ++ " FROM " ++
    ", ".intercalate ((viewSources view).map quoteName) ++ ";\n"

/-- The SQL text of a schema: tables with an empty line between them, then views. -/
def schemaText (schema : Schema) : String :=
  let tables := schema.tables.filter fun table => !table.isView
  let views := schema.tables.filter Table.isView
  let separation := if tables.isEmpty || views.isEmpty then "" else "\n"
  "\n".intercalate (tables.map tableText) ++ separation ++ String.join (views.map viewText)

end Crowfoot.Sql
