import TableQuery.Number.Decimal
import TableQuery.Table.Sort

/-!
# Command lines

`Command.read` reads the words of a command line.  Options come in any order, each with a
value after it, and the last value of an option counts.  A help flag in the place of an
option ends the reading.
-/

namespace TableQuery

/-- What a command line asks for: the file to load, what to show of it, where to write the
rows instead if they are exported, and the file with the policy. -/
structure Arguments where
  file : String
  filter : String
  sort? : Option String
  direction : SortDirection
  page : UInt64
  size? : Option UInt64
  exportTo? : Option String
  policy? : Option String
  deriving DecidableEq

/-- A command. -/
inductive Command where
  | help
  | run (a : Arguments)
  deriving DecidableEq

namespace Command

/-- The options of a command line, each followed by its value. -/
inductive Flag where
  | file
  | filter
  | sort
  | direction
  | page
  | size
  | exportTo
  | policy
  deriving DecidableEq, Repr

namespace Flag

/-- The word for an option. -/
def word : Flag → String
  | file => "--file"
  | filter => "--filter"
  | sort => "--sort"
  | direction => "--dir"
  | page => "--page"
  | size => "--size"
  | exportTo => "--export"
  | policy => "--policy"

/-- What an option is followed by. -/
def operand : Flag → String
  | file => "a path"
  | filter => "an expression"
  | sort => "a column name"
  | direction => "asc or desc"
  | page => "a page index"
  | size => "a page size"
  | exportTo => "a path"
  | policy => "a path"

/-- All options. -/
def all : List Flag := [file, filter, sort, direction, page, size, exportTo, policy]

/-- The option that a word stands for. -/
def ofWord? (s : String) : Option Flag :=
  all.find? fun f => f.word = s

end Flag

/-- Why words are no command line. -/
inductive UsageError where
  | missingValue (f : Flag)
  | unknownArgument (word : String)
  | missingFile
  | notANumber (f : Flag) (value : String)
  | notADirection (value : String)
  deriving DecidableEq

/-- The message of a usage error. -/
def UsageError.message : UsageError → String
  | missingValue f => f.word ++ " requires " ++ f.operand
  | unknownArgument word => "unknown argument: " ++ word
  | missingFile => "--file is required"
  | notANumber f value =>
    f.word ++ " expects a non-negative integer, got " ++ Text.quoted value
  | notADirection value => SortDirection.unknownMessage value

/-- The options read so far. -/
structure Draft where
  file? : Option String := none
  filter : String := ""
  sort? : Option String := none
  direction : SortDirection := .ascending
  page : UInt64 := 0
  size? : Option UInt64 := none
  exportTo? : Option String := none
  policy? : Option String := none
  deriving DecidableEq

/-- The number that the value of an option spells. -/
def readNumber (f : Flag) (value : String) : Except UsageError UInt64 :=
  match readCount? value.toList with
  | some n => .ok n
  | none => .error (.notANumber f value)

/-- The options with the value of one of them set. -/
def Draft.set (d : Draft) (f : Flag) (value : String) : Except UsageError Draft :=
  match f with
  | .file => .ok { d with file? := some value }
  | .filter => .ok { d with filter := value }
  | .sort => .ok { d with sort? := some value }
  | .direction =>
    match SortDirection.read? value with
    | some direction => .ok { d with direction }
    | none => .error (.notADirection value)
  | .page => (readNumber f value).map fun page => { d with page }
  | .size => (readNumber f value).map fun size => { d with size? := some size }
  | .exportTo => .ok { d with exportTo? := some value }
  | .policy => .ok { d with policy? := some value }

/-- The command with the options read, of which the file must be given. -/
def Draft.finish (d : Draft) : Except UsageError Command :=
  match d.file? with
  | none => .error .missingFile
  | some file =>
    .ok <| .run
      { file, filter := d.filter, sort? := d.sort?, direction := d.direction, page := d.page,
        size? := d.size?, exportTo? := d.exportTo?, policy? := d.policy? }

/-- Whether a word asks for help. -/
def isHelp (word : String) : Bool :=
  word = "--help" || word = "-h"

/-- The command that is spelled by the options read so far and the words to come. -/
def readFrom (d : Draft) : List String → Except UsageError Command
  | [] => d.finish
  | [word] =>
    match Flag.ofWord? word with
    | some f => .error (.missingValue f)
    | none => if isHelp word then .ok .help else .error (.unknownArgument word)
  | word :: value :: rest =>
    match Flag.ofWord? word with
    | some f =>
      match d.set f value with
      | .error e => .error e
      | .ok d => readFrom d rest
    | none => if isHelp word then .ok .help else .error (.unknownArgument word)

/-- The command that words spell. -/
def read (words : List String) : Except UsageError Command :=
  readFrom {} words

end Command

end TableQuery
