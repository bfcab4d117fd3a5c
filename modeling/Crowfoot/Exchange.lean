import Crowfoot.Document
import Crowfoot.Failure
import Crowfoot.Layout.Engine
import Crowfoot.Schema.Json

/-!
# Exchange

The library for callers that hold schemas as JSON texts and name formats, algorithms and views by
strings.
-/

namespace Crowfoot.Exchange

/-- The schema of a JSON text. -/
def load (json : String) : Except Failure Schema :=
  match Schema.ofJson? json with
  | some schema => .ok schema
  | none => .error .invalidJson

/-- The name of the format detected in a text. -/
def detectFormat (text : String) : Option String :=
  (Document.detect? text).map Format.name

/-- The JSON text of the schema read from a text, if there is one. -/
def parseSchema (text : String) (format : Option String) : Except Failure (Option String) := do
  let format ← format.mapM Format.named
  return (Document.read? .standard format text).map Schema.toJson

/-- The schema of a JSON text, laid out. -/
def layoutSchema (json algorithm view : String) : Except Failure Schema := do
  let schema ← load json
  let algorithm ← LayoutAlgorithm.named algorithm
  let mode ← ViewMode.named view
  return ({} : LayoutEngine).layout algorithm mode schema

/-- The text of the schema of a JSON text, in the format given or in its own. -/
def writeSchema (format : Option Format) (json : String) : Except Failure String := do
  let schema ← load json
  return Document.write format schema

end Crowfoot.Exchange
