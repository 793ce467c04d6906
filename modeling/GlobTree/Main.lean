import GlobTree.Cli.Run
/-!
# The program

Reads the command line, answers it and leaves with the exit status of the answer.
-/

namespace GlobTree

/-- Reads the text of a file. -/
def readFile (path : String) : IO (Except Cli.FileError String) := do
  try
    return .ok (← IO.FS.readFile path)
  catch error =>
    match error with
    | .noFileOrDirectory .. => return .error .notFound
    | .inappropriateType .. => return .error .isDirectory
    | .otherError _ _ => return .error .notText
    | .userError _ => return .error .notText
    | error => return .error (.other (toString error))

end GlobTree

/-- The program: the file that the command line names, if it names one, is read first. -/
def main (arguments : List String) : IO UInt32 := do
  let contents ←
    match GlobTree.Cli.Request.ofArguments arguments with
    | .ok (.parse input) | .ok (.render input _ _) | .ok (.check input) =>
      if input.file then GlobTree.readFile input.pattern else pure (.error .notFound)
    | _ => pure (.error .notFound)
  let report := GlobTree.Cli.run (fun _ => contents) arguments
  IO.print report.stdout
  IO.eprint report.stderr
  return UInt32.ofNat report.exit
