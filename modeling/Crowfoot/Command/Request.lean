import Crowfoot.Command.Arguments
import Crowfoot.Layout.Mode

/-!
# Requests

What the command line asks for: the version, the format of a file, or a file read and written out
in some form.
-/

namespace Crowfoot.Command

/-- The form in which a file is written out. -/
inductive Emit where
  /-- The schema as JSON. -/
  | json
  | sql
  | mermaid
  /-- The valid and invalid ranges of the file, as JSON. -/
  | blocks
  deriving DecidableEq, Repr

/-- The form with a name. -/
def Emit.ofName? : String → Option Emit
  | "json" => some .json
  | "sql" => some .sql
  | "mermaid" => some .mermaid
  | "blocks" => some .blocks
  | _ => none

/-- How a file is to be read and written out. -/
structure ParseRequest where
  file : String
  format : Option Format := none
  layout : Option LayoutAlgorithm := none
  view : ViewMode := .spatial
  emit : Emit := .json
  output : Option String := none
  deriving DecidableEq, Repr

/-- What the command line asks for. -/
inductive Request where
  | version
  | detect (file : String)
  | parse (request : ParseRequest)
  deriving DecidableEq, Repr

/-- The option for more messages; it may stand before and after the name of the command. -/
def verboseOption : OptionSpec := { long := "verbose", short := some 'v' }

/-- The options of the command that reads and writes out a file. -/
def parseOptions : List OptionSpec :=
  [verboseOption,
    { long := "format", short := some 'f', takesValue := true },
    { long := "layout", short := some 'l', takesValue := true },
    { long := "view", takesValue := true },
    { long := "emit", short := some 'e', takesValue := true },
    { long := "output", short := some 'o', takesValue := true }]

/-- A setting that is not given, or one with a value that its reader accepts. -/
def checked? {α : Type} (read? : String → Option α) (value : Option String) : Option (Option α) :=
  match value with
  | none => some none
  | some text => (read? text).map some

/-- A path is any text but the empty one. -/
def path? (text : String) : Option String :=
  if text.isEmpty then none else some text

/-- The only operand, which is the path of a file. -/
def onlyFile? (arguments : List Argument) : Option String :=
  match operands arguments with
  | [file] => path? file
  | _ => none

/-- Reads the arguments of the command that reads and writes out a file. -/
def readParse? (rest : List String) : Option Request := do
  let arguments ← readArguments? parseOptions none rest
  if areDistinct arguments then
    let file ← onlyFile? arguments
    let format ← checked? Format.ofName? (setting? "format" arguments)
    let layout ← checked? LayoutAlgorithm.ofName? (setting? "layout" arguments)
    let view ← checked? ViewMode.ofName? (setting? "view" arguments)
    let emit ← checked? Emit.ofName? (setting? "emit" arguments)
    let output ← checked? path? (setting? "output" arguments)
    return .parse
      { file, format, layout, output, view := view.getD .spatial, emit := emit.getD .json }
  else
    none

/-- Reads the arguments of the command that detects a format. -/
def readDetect? (rest : List String) : Option Request := do
  let arguments ← readArguments? [verboseOption] none rest
  if areDistinct arguments then
    (onlyFile? arguments).map .detect
  else
    none

/-- What an option in front of the command says. -/
inductive Preface where
  | verbose
  | version
  deriving DecidableEq, Repr

/-- The options in front of the command. -/
def prefaceOptions : List OptionSpec :=
  [verboseOption, { long := "version", short := some 'V' }]

/-- Reads the command line. The version is shown as soon as it is asked for, whatever follows. -/
def readCommand? (isVerbose : Bool) : List String → Option Request
  | [] => none
  | argument :: rest =>
    if argument = "parse" then
      readParse? rest
    else if argument = "detect" then
      readDetect? rest
    else if isPlain argument then
      none
    else
      match readOption? prefaceOptions argument with
      | none => none
      | some (arguments, _) => readPreface? isVerbose arguments rest
where
  /-- Goes through the options of one argument, then through the rest of the command line. -/
  readPreface? (isVerbose : Bool) (arguments : List Argument) (rest : List String) :
      Option Request :=
    match arguments with
    | [] => readCommand? isVerbose rest
    | .switch "version" :: _ => some .version
    | _ :: more => if isVerbose then none else readPreface? true more rest

/-- The request of a command line, if it makes sense. -/
def Request.ofArguments? (arguments : List String) : Option Request :=
  readCommand? false arguments

end Crowfoot.Command
