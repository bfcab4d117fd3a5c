import Crowfoot.Mermaid.Diagram

/-!
# Placing foreign keys

A relationship line names two entities but no column. Its foreign key goes to the entity on the
side of many, on the column that looks most like it; if there is none, a column is added.
-/

namespace Crowfoot.Mermaid

/-- A relationship seen from the entity that holds the foreign key. -/
structure KeyLine where
  child : String
  parent : String
  /-- The referenced entity stands on the left. -/
  cardinality : Cardinality
  label : Option String
  deriving DecidableEq, Repr

/-- The right entity holds the key if its side is many, else the left one. -/
def Relationship.toKeyLine (relationship : Relationship) : KeyLine :=
  if relationship.cardinality.right.isMany then
    ⟨relationship.right, relationship.left, relationship.cardinality, relationship.label⟩
  else
    ⟨relationship.left, relationship.right, relationship.cardinality.reversed, relationship.label⟩

/-- How well a column suits a key line, best first: a marked column with no reference that is named
like the label; a marked column named after the parent, exactly with or without an underscore or in
part; any column named after the parent; a column named like the parent's key that is no key. -/
def tiers (line : KeyLine) (keyName : String) : List (Column → Bool) :=
  let parent := Text.lower line.parent.toList
  let lowerName (column : Column) : List Char := Text.lower column.name.toList
  let underscored (column : Column) : Bool := lowerName column == parent ++ "_id".toList
  let joined (column : Column) : Bool := lowerName column == parent ++ "id".toList
  [fun column => column.isForeignKey && column.references.isNone &&
      line.label.any (column.name == ·),
    fun column => column.isForeignKey && underscored column,
    fun column => column.isForeignKey && joined column,
    fun column => column.isForeignKey && Text.contains parent (lowerName column),
    underscored,
    joined,
    fun column => !column.isPrimaryKey && lowerName column == Text.lower keyName.toList]

/-- A column may carry a reference to the parent unless it has one to another entity. -/
def isFree (parent : String) (column : Column) : Bool :=
  column.references.all (·.table == parent)

/-- The place of the column that suits a key line best. -/
def bestColumn? (line : KeyLine) (keyName : String) (columns : List Column) : Option Nat :=
  (tiers line keyName).findSome? fun suits =>
    columns.findIdx? fun column => isFree line.parent column && suits column

/-- The name of a column that is added for a key to an entity. -/
def addedName (parent : String) : String :=
  String.ofList (Text.lower parent.toList ++ "_id".toList)

/-- Makes a column the key of a line. -/
def carryKey (line : KeyLine) (keyName : String) (column : Column) : Column :=
  (column.referTo line.parent keyName).withCardinality (some line.cardinality)

/-- The name and type of the column that references to an entity point at. -/
def keyOf (table : Table) : String × String :=
  match table.primaryKey? with
  | some column => (column.name, column.type)
  | none => ("id", "INT")

/-- Puts the key of a line on a column of its entity. A column is added when none suits, unless its
name is taken. -/
def placeIn (line : KeyLine) (key : String × String) (table : Table) : Table :=
  match bestColumn? line key.1 table.columns with
  | some index => { table with columns := table.columns.modify index (carryKey line key.1) }
  | none =>
    let name := addedName line.parent
    if (table.column? name).isSome then
      table
    else
      { table with
        columns := table.columns ++ [carryKey line key.1 { name, type := key.2 }] }

/-- Places the key of a line. -/
def placeKey (tables : List Table) (line : KeyLine) : List Table :=
  match tables.find? (·.name == line.parent) with
  | none => tables
  | some parent => modifyFirst (·.name == line.child) (placeIn line (keyOf parent)) tables

/-- Takes the foreign-key mark from a column without a reference. -/
def settleMark (column : Column) : Column :=
  if column.references.isNone then { column with isForeignKey := false } else column

/-- The tables of a diagram with the keys of all its relationships. -/
def Diagram.resolve (diagram : Diagram) : List Table :=
  let placed := (diagram.relationships.map Relationship.toKeyLine).foldl placeKey diagram.tables
  placed.map fun table => { table with columns := table.columns.map settleMark }

end Crowfoot.Mermaid
