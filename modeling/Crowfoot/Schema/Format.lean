import Crowfoot.Text.Blank
import Crowfoot.Text.Case

/-!
# Text formats

A schema is read from, and written to, SQL data definitions or a Mermaid entity-relationship
diagram.
-/

namespace Crowfoot

/-- The notation of a schema text. -/
inductive Format where
  | sql
  | mermaid
  deriving DecidableEq, Repr

/-- The canonical form of a name that a user types: trimmed, in lower case. -/
def canonicalName (name : String) : String :=
  Text.lowerCase (Text.trimmed name)

/-- The name of a format. -/
def Format.name : Format → String
  | .sql => "sql"
  | .mermaid => "mermaid"

/-- The format a user means; `mmd` is short for Mermaid. -/
def Format.ofName? (name : String) : Option Format :=
  match canonicalName name with
  | "sql" => some .sql
  | "mermaid" => some .mermaid
  | "mmd" => some .mermaid
  | _ => none

end Crowfoot
