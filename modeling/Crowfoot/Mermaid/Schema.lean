import Crowfoot.Mermaid.Placement
import Crowfoot.Schema.Basic
import Crowfoot.Schema.Category

/-!
# Schemas from diagrams

A text with the header of a diagram gives a schema, be it empty.
-/

namespace Crowfoot.Mermaid

/-- The name of a schema that is read from a diagram. -/
def defaultName : String := "Mermaid Schema"

/-- The schema that a diagram draws. -/
def readSchema? (config : CategoryConfig) (text : String) : Option Schema :=
  (Diagram.ofText? text.toList).map fun diagram =>
    { name := defaultName, format := .mermaid, tables := config.assign diagram.resolve }

end Crowfoot.Mermaid
