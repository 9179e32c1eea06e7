import TableQuery.Command.Run

/-!
# The command line program

The files of the machine as a `FileSystem`, and the program.
-/

namespace TableQuery

/-- The cause of a failed operation on a file. -/
def FileError.ofError : IO.Error → FileError
  | .noFileOrDirectory .. => .notFound
  | .inappropriateType _ 21 _ => .isDirectory
  | .inappropriateType _ 20 _ => .notDirectory
  | .resourceExhausted _ 28 _ => .noSpace
  | .permissionDenied _ code details | .invalidArgument _ code details =>
    .other (details ++ " (os error " ++ toString code ++ ")")
  | e => .other e.toString

/-- An operation on a file, with the cause of its failure. -/
def attempt {α : Type} (action : IO α) : IO (Except FileError α) := do
  return (← action.toBaseIO).mapError .ofError

/-- An operation on the file at a path, with the cause of its failure. -/
def attemptAt {α : Type} (path : String) (action : IO α) : IO (Except FileError α) := do
  if hasZero path then return .error .zeroCharacter
  attempt action

/-- The files of the machine. -/
def FileSystem.machine : FileSystem IO IO.FS.Handle where
  size path := attemptAt path (return (← IO.FS.readBinFile path).size)
  read path := attemptAt path (return (← IO.FS.readBinFile path).data.toList)
  create path := attemptAt path (IO.FS.Handle.mk path .write)
  write file bytes := attempt do
    file.write ⟨bytes.toArray⟩
    file.flush

/-- What the program says of a text that stores no policy. -/
def Policy.notStoredMessage : String :=
  "the policy is not a JSON object of policy fields"

end TableQuery

/-- Carries out a command line. -/
def main (words : List String) : IO UInt32 := do
  let report ← TableQuery.Command.execute .machine
    (fun _ => TableQuery.Policy.notStoredMessage) words
  IO.print report.output
  IO.eprint report.errors
  return report.code
