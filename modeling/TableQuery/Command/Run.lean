import TableQuery.Command.Arguments
import TableQuery.Command.Files
import TableQuery.Session.Calls
import TableQuery.Session.Stored
import TableQuery.Policy.Stored
import TableQuery.Json.Writer

/-!
# Running commands

`Command.prepare` loads the file of a command line, and `Command.perform` shows a page of it, or
writes the rows that satisfy the filter to a file.  The file to write is made before the filter
is read.  `Command.execute` goes from the words of a command line to what is printed and the exit
code.  The files are those of a `FileSystem`, and what the reader of JSON says of a text that
stores no policy is given by `reason`.
-/

namespace TableQuery

/-- Why a command fails. -/
inductive CommandError where
  | usage (e : Command.UsageError)
  | policyFile (e : FileError)
  | policy (e : Policy.ReadFailure)
  | dataFile (e : FileError)
  | session (e : SessionError)
  | createFile (e : FileError)
  | writeFile (e : FileError)
  deriving DecidableEq

/-- The message of a command error. -/
def CommandError.message : CommandError → String
  | usage e => e.message
  | policyFile e => e.message
  | policy e => e.message
  | dataFile e => e.message
  | session e => e.message
  | createFile e => e.message
  | writeFile e => e.message

namespace Arguments

/-- The view that the arguments ask for. -/
def request (a : Arguments) : ViewRequest where
  filter := a.filter
  sort? := a.sort?.map fun column => ⟨column, a.direction⟩
  page := a.page
  size? := a.size?

end Arguments

namespace Command

variable {m : Type → Type} [Monad m] {File : Type} (fs : FileSystem m File)
  (reason : String → String)

/-- The policy in a file. -/
def readPolicy (path : String) : m (Except CommandError Policy) := do
  match ← fs.read path with
  | .error e => return .error (.policyFile e)
  | .ok bytes =>
    match Text.decode bytes with
    | .error _ => return .error (.policyFile .notText)
    | .ok text => return (Policy.ofText reason text).mapError .policy

/-- The policy in a file, or the strict one if no file is named. -/
def choosePolicy : Option String → m (Except CommandError Policy)
  | none => return .ok .strict
  | some path => readPolicy fs reason path

/-- The session with the table in a file loaded.  A file that is too large is not read. -/
def loadFile (s : Session) (path : String) : m (Except CommandError Session) := do
  match ← fs.size path with
  | .error e => return .error (.dataFile e)
  | .ok size =>
    match s.checkSize size with
    | .error e => return .error (.session e)
    | .ok () =>
      match ← fs.read path with
      | .error e => return .error (.dataFile e)
      | .ok bytes => return (s.loadBytes bytes).mapError .session

/-- The session with the table of the arguments loaded, under their policy. -/
def prepare (a : Arguments) : m (Except CommandError Session) := do
  match ← choosePolicy fs reason a.policy? with
  | .error e => return .error e
  | .ok policy => loadFile fs (.start policy) a.file

/-- Writes the rows that satisfy a filter to a file, and says how many they are.  The file is
made, or emptied, before anything else. -/
def exportTo (s : Session) (filter path : String) : m (Except CommandError String) := do
  match ← fs.create path with
  | .error e => return .error (.createFile e)
  | .ok file =>
    match s.exportRows filter with
    | .error e => return .error (.session e)
    | .ok (text, count) =>
      match ← fs.write file (Text.encode text) with
      | .error e => return .error (.writeFile e)
      | .ok () => return .ok ("exported " ++ toString count ++ " rows to " ++ path)

/-- Carries out the arguments, and gives the text to print. -/
def perform (a : Arguments) : m (Except CommandError String) := do
  match ← prepare fs reason a with
  | .error e => return .error e
  | .ok s =>
    match a.exportTo? with
    | some path => exportTo fs s a.filter path
    | none => return ((s.view a.request).mapError .session).map fun v => v.report.pretty

/-- The help text. -/
def usage : String :=
  "cq-cli\n" ++
  "Usage:\n" ++
  "\tcq-cli --file <path> [--filter <expr>] [--sort <column>] [--dir asc|desc] [--page N] " ++
  "[--size N] [--export <path>] [--policy <path>]\n" ++
  "Options:\n" ++
  "\t--file <path>      CSV file to load (first row is the header)\n" ++
  "\t--filter <expr>    filter expression, e.g. 'age > 18 AND name startsWith \"a\"'\n" ++
  "\t--sort <column>    sort the filtered rows by one column\n" ++
  "\t--dir asc|desc     sort direction (default: asc)\n" ++
  "\t--page N           zero-based page index (default: 0)\n" ++
  "\t--size N           rows per page (default from policy: 20)\n" ++
  "\t--export <path>    write the filtered rows as CSV instead of printing a page\n" ++
  "\t--policy <path>    JSON query policy overriding the strict defaults\n" ++
  "\t-h, --help         show this help\n" ++
  "Set RUST_LOG (e.g. RUST_LOG=debug) for diagnostic output on stderr."

/-- What a run prints on its two outputs, and its exit code. -/
structure Report where
  output : String
  errors : String
  code : UInt32
  deriving DecidableEq

/-- The report of a result: a text on the output, or one error message. -/
def Report.of : Except CommandError String → Report
  | .ok text => ⟨text ++ "\n", "", 0⟩
  | .error e => ⟨"", "cq-cli error: " ++ e.message ++ "\n", 1⟩

/-- The result of the words of a command line. -/
def respond (words : List String) : m (Except CommandError String) :=
  match read words with
  | .error e => return .error (.usage e)
  | .ok .help => return .ok usage
  | .ok (.run a) => perform fs reason a

/-- Carries out the words of a command line. -/
def execute (words : List String) : m Report := do
  return .of (← respond fs reason words)

end Command

end TableQuery
