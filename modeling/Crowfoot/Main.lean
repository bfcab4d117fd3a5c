import Crowfoot.Command.Run

/-!
# The program

Reads the command line and the file, and writes the answer.
-/

namespace Crowfoot

/-- The failure that an error of the system stands for. -/
def fileFailureOf : IO.Error → FileFailure
  | .noFileOrDirectory .. => .notFound
  | .inappropriateType .. => .notDirectory
  | _ => .isDirectory

/-- Complains about a failure. -/
def complain (failure : Failure) : IO UInt32 := do
  IO.eprintln ("Error: " ++ failure.message)
  return 1

/-- Answers a request. -/
def answerRequest (request : Command.Request) : IO UInt32 := do
  let content ←
    match request.file? with
    | none => pure (.error .notFound)
    | some path =>
      try
        pure (.ok (← IO.FS.readBinFile path))
      catch error =>
        pure (.error (fileFailureOf error))
  match request.answer content with
  | .error failure => complain failure
  | .ok text =>
    match request.output? with
    | none =>
      IO.println text
      return 0
    | some path =>
      try
        IO.FS.writeFile path text
        return 0
      catch error =>
        complain (.file (fileFailureOf error))

end Crowfoot

/-- Runs the program. -/
def main (arguments : List String) : IO UInt32 :=
  match Crowfoot.Command.Request.ofArguments? arguments with
  | some request => Crowfoot.answerRequest request
  | none => do
    IO.eprintln "usage: schema-graph [-v] (parse FILE [OPTIONS] | detect FILE)"
    return 2
