import Crowfoot.Command.Request
import Crowfoot.Exchange

/-!
# Running requests

A request is answered from the content of its file. The answer goes to the standard output or to a
file, a failure to the standard error output.
-/

namespace Crowfoot.Command

/-- The name and the version of the program. -/
def versionText : String := "schema-graph 0.1.0"

/-- The content of a file as text. -/
def decodeContent (content : Except FileFailure ByteArray) : Except Failure String :=
  match content with
  | .error failure => .error (.file failure)
  | .ok bytes =>
    match String.fromUTF8? bytes with
    | some text => .ok text
    | none => .error (.file .notText)

/-- A marked range as a value. -/
def rangeValue (range : MarkedRange) : Json.Value :=
  .record
    [("start", .ofNat range.start), ("end", .ofNat range.stop), ("isValid", .bool range.isValid)]

namespace ParseRequest

/-- The schema of a text, laid out if the request says how. -/
def schema (request : ParseRequest) (text : String) : Except Failure Schema :=
  match Document.read? .standard request.format text with
  | none => .error (.unparseable request.format)
  | some schema =>
    .ok <|
      match request.layout with
      | none => schema
      | some algorithm => ({} : LayoutEngine).layout algorithm request.view schema

/-- The text in the form that the request asks for. Ranges need no schema. -/
def render (request : ParseRequest) (text : String) : Except Failure String :=
  match request.emit with
  | .blocks =>
    .ok (Json.Value.array ((Document.highlight request.format text).map rangeValue)).indented
  | .json => (request.schema text).map fun schema => schema.toValue.indented
  | .sql => (request.schema text).map (Document.writeAs .sql)
  | .mermaid => (request.schema text).map (Document.writeAs .mermaid)

end ParseRequest

/-- The file that a request reads. -/
def Request.file? : Request → Option String
  | .version => none
  | .detect file => some file
  | .parse request => some request.file

/-- The file that a request writes. -/
def Request.output? : Request → Option String
  | .parse request => request.output
  | _ => none

/-- The answer to a request. -/
def Request.answer (request : Request) (content : Except FileFailure ByteArray) :
    Except Failure String :=
  match request with
  | .version => .ok versionText
  | .detect _ => do
    let text ← decodeContent content
    match Document.detect? text with
    | some format => .ok format.name
    | none => .error (.unparseable none)
  | .parse request => do
    let text ← decodeContent content
    request.render text

/-- What a run of the program leaves behind. -/
structure Outcome where
  exitCode : Nat
  output : String := ""
  /-- The line on the standard error output. -/
  complaint : Option String := none
  /-- The file that was written, with its content. -/
  written : Option (String × String) := none
  deriving DecidableEq, Repr

/-- How files behave: their contents, and whether they can be written. -/
structure Files where
  content : String → Except FileFailure ByteArray
  access : String → Except FileFailure Unit

/-- The outcome of a failure. -/
def Outcome.ofFailure (failure : Failure) : Outcome :=
  { exitCode := 1, complaint := some ("Error: " ++ failure.message) }

/-- Runs the program on a command line. A command line that makes no sense ends with code two. -/
def run (files : Files) (arguments : List String) : Outcome :=
  match Request.ofArguments? arguments with
  | none => { exitCode := 2 }
  | some request =>
    match request.answer (files.content (request.file?.getD "")) with
    | .error failure => .ofFailure failure
    | .ok text =>
      match request.output? with
      | none => { exitCode := 0, output := text ++ "\n" }
      | some path =>
        match files.access path with
        | .error failure => .ofFailure (.file failure)
        | .ok () => { exitCode := 0, written := some (path, text) }

end Crowfoot.Command
