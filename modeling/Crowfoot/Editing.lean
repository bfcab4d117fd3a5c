import Crowfoot.Document
import Crowfoot.Layout.Engine

/-!
# Editing

Changes that an editor makes to a schema one after the other. A change that cannot be made leaves
the schema as it is.
-/

namespace Crowfoot

/-- What an editor says about a new column. -/
structure ColumnInput where
  name : String
  type : String := "INT"
  isUnique : Bool := false
  nullability : Nullability := .unknown
  isPrimaryKey : Bool := false
  deriving DecidableEq, Repr

/-- The column that an editor describes; a primary key admits no missing value. -/
def ColumnInput.toColumn (input : ColumnInput) : Column :=
  let column : Column :=
    { name := input.name
      type := input.type
      isUnique := input.isUnique
      nullability := input.nullability }
  if input.isPrimaryKey then column.asPrimaryKey else column

/-- A change to a schema. -/
inductive Edit where
  /-- Adds an empty table or view at the end. -/
  | addTable (name : String) (isView : Bool)
  /-- Inserts a column into a table or replaces the one of the same name. -/
  | upsertColumn (table : String) (column : ColumnInput)
  /-- Makes a column refer to a column of a table, which need not exist. -/
  | setReference (table column targetTable targetColumn : String)
  | clearReference (table column : String)
  /-- Writes the schema and reads it again, in the format given or in its own. -/
  | reparse (format : Option Format)
  | categorize (config : CategoryConfig)
  | layout (algorithm : LayoutAlgorithm) (mode : ViewMode)

/-- Why a change cannot be made. -/
inductive EditFailure where
  | noTable
  | noColumn
  /-- What was written cannot be read again. -/
  | unparseable
  deriving DecidableEq, Repr

namespace Schema

/-- Changes the first table of a name. -/
def editTable (schema : Schema) (name : String) (change : Table → Table) :
    Except EditFailure Schema :=
  match schema.table? name with
  | none => .error .noTable
  | some _ => .ok { schema with tables := modifyTable schema.tables name change }

/-- Changes the first column of a name in the first table of a name. -/
def editColumn (schema : Schema) (table column : String) (change : Column → Column) :
    Except EditFailure Schema :=
  match schema.table? table with
  | none => .error .noTable
  | some found =>
    match found.column? column with
    | none => .error .noColumn
    | some _ =>
      .ok { schema with tables := modifyTable schema.tables table (·.modifyColumn column change) }

/-- Makes a change. -/
def edit (schema : Schema) : Edit → Except EditFailure Schema
  | .addTable name isView =>
    .ok { schema with tables := schema.tables ++ [{ name, isView }] }
  | .upsertColumn table column => schema.editTable table (·.upsertColumn column.toColumn)
  | .setReference table column targetTable targetColumn =>
    schema.editColumn table column (·.referTo targetTable targetColumn)
  | .clearReference table column => schema.editColumn table column Column.clearReference
  | .reparse format =>
    match Document.read? .standard format (Document.write format schema) with
    | some read => .ok read
    | none => .error .unparseable
  | .categorize config => .ok { schema with tables := config.assign schema.tables }
  | .layout algorithm mode => .ok (({} : LayoutEngine).layout algorithm mode schema)

/-- Makes a change, or leaves the schema as it is if the change cannot be made. -/
def tryEdit (schema : Schema) (edit : Edit) : Schema :=
  match schema.edit edit with
  | .ok edited => edited
  | .error _ => schema

/-- Makes changes one after the other. -/
def editAll (schema : Schema) (edits : List Edit) : Schema :=
  edits.foldl tryEdit schema

/-- The schema an editor starts with. -/
def empty : Schema :=
  { name := "empty", format := .sql }

end Schema

end Crowfoot
