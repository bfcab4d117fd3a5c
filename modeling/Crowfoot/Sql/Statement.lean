import Crowfoot.Schema.Column

/-!
# SQL statements

What the statements of a script define: tables, views, additions to tables, and the name of the
schema.
-/

namespace Crowfoot.Sql

/-- A declared foreign key. Without a target column it means the target's primary key. -/
structure ForeignKey where
  column : String
  target : String
  targetColumn : Option String := none
  deriving DecidableEq, Repr

/-- A clause of a table definition or of `ALTER TABLE … ADD`. -/
inductive Clause where
  | column (column : Column) (foreignKey : Option ForeignKey)
  | primaryKey (columns : List String)
  | unique (columns : List String)
  | foreignKeys (foreignKeys : List ForeignKey)
  deriving DecidableEq, Repr

/-- A table as `CREATE TABLE` defines it. -/
structure TableDefinition where
  name : String
  columns : List Column
  foreignKeys : List ForeignKey := []
  deriving DecidableEq, Repr

/-- What `ALTER TABLE` adds to a table. -/
structure Alteration where
  table : String
  additions : List Clause
  deriving DecidableEq, Repr

/-- A table named in a `FROM` clause. -/
structure TableMention where
  table : String
  aliasName : Option String := none
  deriving DecidableEq, Repr

/-- What a column of a view is selected from. -/
inductive SelectExpression where
  /-- All columns of the first table. -/
  | everything
  /-- All columns of the table under a name or alias. -/
  | everythingOf (qualifier : String)
  | column (qualifier : Option String) (name : String)
  /-- Any other expression, as source text. -/
  | computed (text : List Char)
  deriving DecidableEq, Repr

/-- An item of a select list. -/
structure SelectItem where
  expression : SelectExpression
  aliasName : Option String := none
  deriving DecidableEq, Repr

/-- A view as `CREATE VIEW` defines it. -/
structure ViewDefinition where
  name : String
  items : List SelectItem
  sources : List TableMention
  deriving DecidableEq, Repr

/-- A statement that bears on the schema. -/
inductive Statement where
  | createTable (definition : TableDefinition)
  | createView (definition : ViewDefinition)
  | alterTable (alteration : Alteration)
  /-- `CREATE SCHEMA`, `CREATE DATABASE` or `USE`. -/
  | nameSchema (name : String)
  deriving DecidableEq, Repr

end Crowfoot.Sql
