import Crowfoot.Schema.Basic
import Crowfoot.Schema.Category
import Crowfoot.Sql.Reader
import Crowfoot.Sql.Tables
import Crowfoot.Sql.Views

/-!
# Schemas from SQL

A script gives a schema when it defines a table or a view: the base tables in the order of their
first definition, then the views.
-/

namespace Crowfoot.Sql

/-- The name of a schema whose script does not give one. -/
def defaultName : String := "SQL Schema"

/-- The name that the last naming statement gives the schema. -/
def schemaName (statements : List Statement) : String :=
  let names := statements.filterMap fun statement =>
    match statement with
    | .nameSchema name => some name
    | _ => none
  names.getLast?.getD defaultName

/-- The tables and views that statements define, with links and cardinalities. -/
def schemaTables (statements : List Statement) : List Table :=
  let tables := baseTables statements
  let views := linkViews tables (resolveViews statements tables)
  attachCardinalities (tables ++ views)

/-- The schema that statements define. -/
def schemaOfStatements? (config : CategoryConfig) (statements : List Statement) : Option Schema :=
  let tables := schemaTables statements
  if tables.isEmpty then
    none
  else
    some { name := schemaName statements, format := .sql, tables := config.assign tables }

/-- The schema that a script defines. -/
def readSchema? (config : CategoryConfig) (text : String) : Option Schema :=
  schemaOfStatements? config (Statement.ofScript text.toList)

end Crowfoot.Sql
