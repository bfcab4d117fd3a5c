/-!
# Command-line arguments

Arguments are options, with long or short names, and operands. Short options may be written together
behind one dash, and a value may follow its option at once, behind an equals sign, or as the next
argument. Everything behind `--` is an operand.
-/

namespace Crowfoot.Command

/-- An option of a command. -/
structure OptionSpec where
  long : String
  short : Option Char := none
  takesValue : Bool := false
  deriving DecidableEq, Repr

/-- What the arguments of a command say, in order. -/
inductive Argument where
  /-- An option that takes no value. -/
  | switch (long : String)
  /-- An option with its value. -/
  | setting (long value : String)
  | operand (text : String)
  deriving DecidableEq, Repr

/-- An argument is a value or an operand when it does not start with a dash, or is nothing but
one. -/
def isPlain (argument : String) : Bool :=
  argument == "-" || argument.toList.head? != some '-'

/-- Reads options written together behind one dash. An option that takes a value takes the rest of
them; if nothing is left, its name is given back to wait for a value. -/
def readCluster? (specs : List OptionSpec) :
    List Char → Option (List Argument × Option String)
  | [] => some ([], none)
  | letter :: rest =>
    match specs.find? fun spec => spec.short == some letter with
    | none => none
    | some spec =>
      if spec.takesValue then
        match rest with
        | [] => some ([], some spec.long)
        | '=' :: value => some ([.setting spec.long (String.ofList value)], none)
        | value => some ([.setting spec.long (String.ofList value)], none)
      else
        (readCluster? specs rest).map fun (arguments, waiting) =>
          (.switch spec.long :: arguments, waiting)

/-- Reads a long option, which may have its value behind an equals sign. -/
def readLong? (specs : List OptionSpec) (text : List Char) :
    Option (List Argument × Option String) :=
  let name := text.takeWhile (· != '=')
  match specs.find? fun spec => spec.long.toList == name, text.dropWhile (· != '=') with
  | none, _ => none
  | some spec, [] =>
    if spec.takesValue then some ([], some spec.long) else some ([.switch spec.long], none)
  | some spec, _ :: value =>
    if spec.takesValue then some ([.setting spec.long (String.ofList value)], none) else none

/-- Reads an argument that starts with a dash. -/
def readOption? (specs : List OptionSpec) (argument : String) :
    Option (List Argument × Option String) :=
  match argument.toList with
  | '-' :: '-' :: name => readLong? specs name
  | '-' :: letters => readCluster? specs letters
  | _ => none

/-- Reads all arguments of a command; `waiting` names an option that still needs its value. -/
def readArguments? (specs : List OptionSpec) (waiting : Option String) :
    List String → Option (List Argument)
  | [] => if waiting.isNone then some [] else none
  | argument :: rest =>
    match waiting with
    | some long =>
      if isPlain argument then
        (readArguments? specs none rest).map (.setting long argument :: ·)
      else
        none
    | none =>
      if argument == "--" then
        some (rest.map .operand)
      else if isPlain argument then
        (readArguments? specs none rest).map (.operand argument :: ·)
      else
        match readOption? specs argument with
        | none => none
        | some (arguments, waiting) => (readArguments? specs waiting rest).map (arguments ++ ·)

/-- No option is given twice. -/
def areDistinct (arguments : List Argument) : Bool :=
  let names := arguments.filterMap fun argument =>
    match argument with
    | .switch long => some long
    | .setting long _ => some long
    | .operand _ => none
  names.eraseDups.length = names.length

/-- The value of an option, if it is given. -/
def setting? (long : String) (arguments : List Argument) : Option String :=
  arguments.findSome? fun argument =>
    match argument with
    | .setting name value => if name = long then some value else none
    | _ => none

/-- The operands among the arguments. -/
def operands (arguments : List Argument) : List String :=
  arguments.filterMap fun argument =>
    match argument with
    | .operand text => some text
    | _ => none

end Crowfoot.Command
