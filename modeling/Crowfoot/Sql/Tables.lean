import Crowfoot.Schema.Table
import Crowfoot.Sql.Statement

/-!
# Base tables

The tables that the statements of a script define. All `CREATE TABLE` statements come first, then
added columns, then references of both, then added keys, and at last added foreign keys; the order
of statements of different kinds does not matter.
-/

namespace Crowfoot.Sql

/-- A foreign key declared on a table before all tables are known. -/
structure PendingKey where
  table : String
  foreignKey : ForeignKey
  deriving DecidableEq, Repr

/-- The tables found so far and the foreign keys still to be resolved. -/
structure Catalog where
  tables : List Table := []
  pending : List PendingKey := []

/-- The table definitions of a script. -/
def tableDefinitions (statements : List Statement) : List TableDefinition :=
  statements.filterMap fun statement =>
    match statement with
    | .createTable definition => some definition
    | _ => none

/-- The additions to tables, each with the name of its table. -/
def additions (statements : List Statement) : List (String × Clause) :=
  statements.flatMap fun statement =>
    match statement with
    | .alterTable alteration => alteration.additions.map (alteration.table, ·)
    | _ => []

namespace Catalog

/-- Defines a table. A table without columns is dropped; a later definition of a name takes the
place of the earlier one and of the foreign keys declared there. -/
def define (catalog : Catalog) (definition : TableDefinition) : Catalog :=
  if definition.columns.isEmpty then
    catalog
  else
    { tables :=
        putFirst (fun old => Text.sameName old.name definition.name)
          { name := definition.name, columns := definition.columns } catalog.tables
      pending :=
        catalog.pending.filter (fun key => !Text.sameName key.table definition.name) ++
          definition.foreignKeys.map (⟨definition.name, ·⟩) }

/-- Adds a column to a table that exists. -/
def addColumn (catalog : Catalog) (addition : String × Clause) : Catalog :=
  match addition.2 with
  | .column column foreignKey =>
    match findTable? catalog.tables addition.1 with
    | none => catalog
    | some table =>
      { tables := modifyTable catalog.tables addition.1 (·.upsertColumn column)
        pending := catalog.pending ++ foreignKey.toList.map (⟨table.name, ·⟩) }
  | _ => catalog

end Catalog

/-- The table and column that a foreign key refers to, in the spelling of their definitions. A key
that names no column means the primary key; so does one that names a missing column, if
`lenient`. -/
def resolveTarget? (lenient : Bool) (tables : List Table) (foreignKey : ForeignKey) :
    Option (String × String) := do
  let table ← findTable? tables foreignKey.target
  let column ←
    match foreignKey.targetColumn with
    | none => table.primaryKey?
    | some name =>
      match table.column? name with
      | some column => some column
      | none => if lenient then table.primaryKey? else none
  return (table.name, column.name)

/-- Puts a foreign key on its column, if both ends exist. -/
def placeForeignKey (lenient : Bool) (tables : List Table) (key : PendingKey) : List Table :=
  match resolveTarget? lenient tables key.foreignKey with
  | none => tables
  | some (table, column) =>
    modifyTable tables key.table
      (·.modifyColumn key.foreignKey.column (·.referTo table column))

/-- Applies an added unique or primary key. -/
def applyKey (tables : List Table) (addition : String × Clause) : List Table :=
  match addition.2 with
  | .unique [name] => modifyTable tables addition.1 (·.modifyColumn name Column.asUnique)
  | .primaryKey names =>
    modifyTable tables addition.1 fun table =>
      names.foldl (fun table name => table.modifyColumn name Column.asPrimaryKey) table
  | _ => tables

/-- Applies added foreign keys. -/
def applyForeignKeys (tables : List Table) (addition : String × Clause) : List Table :=
  match addition.2 with
  | .foreignKeys keys =>
    keys.foldl (fun tables key => placeForeignKey false tables ⟨addition.1, key⟩) tables
  | _ => tables

/-- The tables that the `CREATE TABLE` statements and added columns define. -/
def catalogOf (statements : List Statement) : Catalog :=
  (additions statements).foldl Catalog.addColumn
    ((tableDefinitions statements).foldl Catalog.define {})

/-- The base tables of a script. -/
def baseTables (statements : List Statement) : List Table :=
  let catalog := catalogOf statements
  let referring := catalog.pending.foldl (placeForeignKey true) catalog.tables
  let keyed := (additions statements).foldl applyKey referring
  (additions statements).foldl applyForeignKeys keyed

/-- Attaches to the foreign keys of a column the cardinality of the reference among the tables. -/
def withCardinality (tables : List Table) (column : Column) : Column :=
  column.withCardinality do
    let reference ← column.references
    let table ← findTable? tables reference.table
    let target ← table.column? reference.column
    return Cardinality.ofKeys target column

/-- Attaches its cardinality to every reference. -/
def attachCardinalities (tables : List Table) : List Table :=
  tables.map fun table => { table with columns := table.columns.map (withCardinality tables) }

end Crowfoot.Sql
