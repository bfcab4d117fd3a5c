import Crowfoot.Schema.Format
import Crowfoot.Schema.Table

/-!
# Schemas

A named list of tables, together with the format it was read from.
-/

namespace Crowfoot

/-- A database schema. -/
structure Schema where
  name : String
  format : Format
  tables : List Table := []
  deriving Repr

namespace Schema

/-- The first table of a name. -/
def table? (schema : Schema) (name : String) : Option Table :=
  findTable? schema.tables name

/-- The place of the first table of a name. -/
def tableIndex? (schema : Schema) (name : String) : Option Nat :=
  schema.tables.findIdx? fun table => Text.sameName table.name name

/-- The number of foreign keys in the schema. -/
def relationshipCount (schema : Schema) : Nat :=
  (schema.tables.flatMap Table.foreignKeys).length

end Schema

end Crowfoot
