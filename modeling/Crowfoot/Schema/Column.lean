import Crowfoot.Schema.Cardinality

/-!
# Columns

A column with its keys, its nullability, the column it refers to, and, in a view, the column it is
taken from.
-/

namespace Crowfoot

/-- What a definition says about missing values. -/
inductive Nullability where
  | notNull
  | nullable
  /-- Nothing was declared either way. -/
  | unknown
  deriving DecidableEq, Repr

/-- The target of a foreign key. -/
structure ColumnReference where
  table : String
  column : String
  cardinality : Option Cardinality := none
  deriving DecidableEq, Repr

/-- A column of a table or a view. -/
structure Column where
  name : String
  type : String
  isPrimaryKey : Bool := false
  isUnique : Bool := false
  isForeignKey : Bool := false
  nullability : Nullability := .unknown
  references : Option ColumnReference := none
  sourceTable : Option String := none
  sourceColumn : Option String := none
  deriving DecidableEq, Repr

namespace Column

/-- The names of linking columns that a view gets start with this. -/
def linkMark : String := "_ref_"

/-- Makes the column a primary key, which admits no missing value. -/
def asPrimaryKey (column : Column) : Column :=
  { column with isPrimaryKey := true, nullability := .notNull }

/-- Makes the column a unique key. -/
def asUnique (column : Column) : Column :=
  { column with isUnique := true }

/-- Points the column at a column of a table. -/
def referTo (column : Column) (table target : String) : Column :=
  { column with references := some { table, column := target }, isForeignKey := true }

/-- Ends the column's being a foreign key. -/
def clearReference (column : Column) : Column :=
  { column with references := none, isForeignKey := false }

/-- Records the cardinality of the column's reference. -/
def withCardinality (column : Column) (cardinality : Option Cardinality) : Column :=
  { column with references := column.references.map ({ · with cardinality }) }

/-- The column links a view to a table and belongs to no definition. -/
def isVirtual (column : Column) : Bool :=
  linkMark.toList.isPrefixOf column.name.toList

/-- The foreign-key flag says whether there is a reference. -/
def IsConsistent (column : Column) : Prop :=
  column.isForeignKey = column.references.isSome

end Column

namespace Cardinality

/-- The cardinality of a foreign key, read off the constraints of both columns.

The referenced side is singular when its column is a key; it is optional unless the foreign key is
`NOT NULL`. The other side is singular when the foreign key is unique, and otherwise as optional as
the foreign key is. -/
def ofKeys (target foreignKey : Column) : Cardinality where
  left :=
    if target.isPrimaryKey || target.isUnique then
      match foreignKey.nullability with
      | .notNull => .one
      | .nullable | .unknown => .zeroOrOne
    else
      .many
  right :=
    if foreignKey.isUnique then
      .one
    else
      match foreignKey.nullability with
      | .notNull => .oneOrMany
      | .nullable => .zeroOrMany
      | .unknown => .many

end Cardinality

end Crowfoot
