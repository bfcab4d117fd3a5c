import Crowfoot.Layout.Point
import Crowfoot.Schema.Column
import Crowfoot.Schema.Lookup
import Crowfoot.Text.Caseless

/-!
# Tables

A table or view with its columns, and where and how it is drawn. Columns are found by name up to
ASCII case.
-/

namespace Crowfoot

/-- A table or a view. -/
structure Table where
  name : String
  columns : List Column := []
  position : Point := Point.origin
  color : String := ""
  category : String := ""
  isView : Bool := false
  deriving Repr

namespace Table

/-- The first column of a name. -/
def column? (table : Table) (name : String) : Option Column :=
  table.columns.find? fun column => Text.sameName column.name name

/-- The first primary-key column. -/
def primaryKey? (table : Table) : Option Column :=
  table.columns.find? Column.isPrimaryKey

/-- Changes the first column of a name. -/
def modifyColumn (table : Table) (name : String) (change : Column → Column) : Table :=
  { table with
    columns := modifyFirst (fun column => Text.sameName column.name name) change table.columns }

/-- Inserts a column, in the place of the one of the same name if there is one. -/
def upsertColumn (table : Table) (column : Column) : Table :=
  { table with
    columns := putFirst (fun old => Text.sameName old.name column.name) column table.columns }

/-- The columns that are foreign keys, with their targets. -/
def foreignKeys (table : Table) : List (Column × ColumnReference) :=
  table.columns.filterMap fun column => column.references.map (column, ·)

end Table

/-- The first table of a name. -/
def findTable? (tables : List Table) (name : String) : Option Table :=
  tables.find? fun table => Text.sameName table.name name

/-- Changes the first table of a name. -/
def modifyTable (tables : List Table) (name : String) (change : Table → Table) : List Table :=
  modifyFirst (fun table => Text.sameName table.name name) change tables

end Crowfoot
