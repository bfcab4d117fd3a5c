import Crowfoot.Layout.Mode
import Crowfoot.Schema.Cardinality

/-!
# Failures

What can go wrong at the edge of the library, and how users are told. Reading and laying out
themselves never fail in this way: they pass over what they cannot use.
-/

namespace Crowfoot

/-- Why a file could not be used. -/
inductive FileFailure where
  | notFound
  | isDirectory
  | notDirectory
  /-- The content is no UTF-8 text. -/
  | notText
  deriving DecidableEq, Repr

/-- The wording of a file failure. -/
def FileFailure.message : FileFailure → String
  | .notFound => "No such file or directory (os error 2)"
  | .isDirectory => "Is a directory (os error 21)"
  | .notDirectory => "Not a directory (os error 20)"
  | .notText => "stream did not contain valid UTF-8"

/-- Why a request failed. -/
inductive Failure where
  /-- The text gives no schema, in the given format or in any. -/
  | unparseable (format : Option Format)
  | unknownFormat (name : String)
  | unknownAlgorithm (name : String)
  | unknownView (name : String)
  | invalidCardinality (text : String)
  /-- The text is no JSON, or no schema in JSON. -/
  | invalidJson
  | file (failure : FileFailure)
  deriving DecidableEq, Repr

/-- The wording of a failure. -/
def Failure.message : Failure → String
  | .unparseable none => "Could not parse input as SQL or Mermaid"
  | .unparseable (some format) => "Could not parse input as " ++ format.name
  | .unknownFormat name => "Unknown schema format: " ++ name
  | .unknownAlgorithm name => "Unknown layout algorithm: " ++ name
  | .unknownView name => "Unknown view mode: " ++ name
  | .invalidCardinality text => "Invalid cardinality: " ++ text
  | .invalidJson => "Invalid schema JSON"
  | .file failure => "I/O error: " ++ failure.message

/-- The format that a name means. -/
def Format.named (name : String) : Except Failure Format :=
  match ofName? name with
  | some format => .ok format
  | none => .error (.unknownFormat (canonicalName name))

/-- The algorithm that a name means. -/
def LayoutAlgorithm.named (name : String) : Except Failure LayoutAlgorithm :=
  match ofName? name with
  | some algorithm => .ok algorithm
  | none => .error (.unknownAlgorithm (canonicalName name))

/-- The view mode that a name means. -/
def ViewMode.named (name : String) : Except Failure ViewMode :=
  match ofName? name with
  | some mode => .ok mode
  | none => .error (.unknownView (canonicalName name))

/-- The cardinality that a text writes. -/
def Cardinality.written (text : String) : Except Failure Cardinality :=
  match ofText? text with
  | some cardinality => .ok cardinality
  | none => .error (.invalidCardinality text)

end Crowfoot
