import TableQuery.Table.Record

/-!
# Files

`FileSystem m File` is what a command asks of the files around it, in a monad `m`; a `File` is one
that has been made and can be written.  `FileStore.system` answers from a `FileStore`, which knows
its files by their paths from the root, the directory in which a command runs, and how much all
files can hold.  `FileStore.walk` follows a path step by step.
-/

namespace TableQuery

/-- Why a file cannot be used. -/
inductive FileError where
  | notFound
  | isDirectory
  | notDirectory
  | nameTooLong
  | zeroCharacter
  | notText
  | noSpace
  | other (message : String)
  deriving DecidableEq

/-- The message of a file error. -/
def FileError.message : FileError → String
  | notFound => "No such file or directory (os error 2)"
  | isDirectory => "Is a directory (os error 21)"
  | notDirectory => "Not a directory (os error 20)"
  | nameTooLong => "File name too long (os error 36)"
  | zeroCharacter => "file name contained an unexpected NUL byte"
  | notText => "stream did not contain valid UTF-8"
  | noSpace => "No space left on device (os error 28)"
  | other message => message

/-- The operations on files that a command needs: asking for the size of one, reading one, making
an empty one or emptying it, and writing one that has been made to its end.  Each can fail. -/
structure FileSystem (m : Type → Type) (File : Type) where
  size : String → m (Except FileError Nat)
  read : String → m (Except FileError (List UInt8))
  create : String → m (Except FileError File)
  write : File → List UInt8 → m (Except FileError Unit)

/-! ### Paths -/

/-- The number of bytes from which on a path is too long. -/
def pathLimit : Nat := 4096

/-- The number of bytes from which on the name of a file or directory is too long. -/
def nameLimit : Nat := 256

/-- Whether a path holds the character that ends a path for the system. -/
def hasZero (path : String) : Bool :=
  path.toList.contains '\x00'

/-- The steps of a path that can be followed.  A path that starts with a slash has an empty
first step, and one that ends with a slash an empty last one. -/
def pathSteps (path : String) : Except FileError (List String) :=
  if hasZero path then .error .zeroCharacter
  else if pathLimit ≤ path.utf8ByteSize then .error .nameTooLong
  else if path = "" then .error .notFound
  else .ok ((path.toList.splitOn '/').map String.ofList)

/-- The path from the root with the given names. -/
def pathOf (names : List String) : String :=
  "/".intercalate names

/-- The directory of the devices. -/
def devices : List String := ["dev"]

/-- The path from the root to the device that holds nothing and takes everything. -/
def nullDevice : String := pathOf (devices ++ ["null"])

/-- The size of a directory, in bytes. -/
def directorySize : Nat := 4096

/-! ### Stores -/

/-- Files by their paths from the root.  A directory is there when a file is in it, and so are the
one in which commands run, that of the devices, and those that are listed. -/
structure FileStore where
  files : Record (List UInt8)
  /-- The names down to the directory in which commands run. -/
  home : List String := []
  /-- The names down to further directories. -/
  directories : List (List String) := []
  /-- The number of bytes that all files can hold together, if there is a limit. -/
  capacity? : Option Nat := none
  deriving DecidableEq

namespace FileStore

/-- The store of a list of files in the directory in which commands run. -/
def ofList (home : List String) (files : List (String × List UInt8)) : FileStore where
  files := .ofList (files.map fun (name, bytes) => (pathOf (home ++ [name]), bytes))
  home

/-- The bytes of the file at a path from the root. -/
def bytes? (s : FileStore) (file : String) : Option (List UInt8) :=
  if file = nullDevice then some [] else s.files.get? file

/-- Whether there is a directory with the given names down to it. -/
def isDirectory (s : FileStore) (names : List String) : Bool :=
  (s.home :: devices :: s.directories).any names.isPrefixOf ||
    s.files.entries.any fun (file, _) =>
      (pathOf names ++ "/").toList.isPrefixOf file.toList

/-- The place that is reached from a directory by a list of steps, each a name, a dot for
staying or two dots for going up, which stays in the root.  All but the last must lead to
directories. -/
def walk (s : FileStore) (here : List String) : List String → Except FileError (List String)
  | [] => .ok here
  | step :: rest =>
    if step = "" ∨ step = "." then walk s here rest
    else if step = ".." then walk s here.dropLast rest
    else if nameLimit ≤ step.utf8ByteSize then .error .nameTooLong
    else
      let there := here ++ [step]
      if rest.isEmpty then .ok there
      else if s.isDirectory there then walk s there rest
      else .error (if (s.bytes? (pathOf there)).isSome then .notDirectory else .notFound)

/-- The place that is reached by the steps of a path, from the root if the path starts with a
slash. -/
def locate (s : FileStore) (steps : List String) : Except FileError (List String) :=
  s.walk (if steps.head? = some "" then [] else s.home) steps

/-- The bytes of the file at a path, unless there is a directory. -/
def find (s : FileStore) (path : String) : Except FileError (Option (List UInt8)) := do
  let names ← s.locate (← pathSteps path)
  if s.isDirectory names then return none
  match s.bytes? (pathOf names) with
  | some bytes => return some bytes
  | none => .error .notFound

/-- The size of the file or directory at a path. -/
def size (s : FileStore) (path : String) : Except FileError Nat :=
  (s.find path).map fun
    | some bytes => bytes.length
    | none => directorySize

/-- The bytes of the file at a path. -/
def read (s : FileStore) (path : String) : Except FileError (List UInt8) := do
  match ← s.find path with
  | some bytes => return bytes
  | none => .error .isDirectory

/-- The path from the root of the file that can be made or emptied.  A path that ends with a slash
can only be that of a directory, whether or not its last name is in use. -/
def target (s : FileStore) (steps : List String) : Except FileError String := do
  let names := (steps.reverse.dropWhile (· = "")).reverse
  if steps.getLast? = some "" then
    let _ ← s.locate (if names.isEmpty then steps else names.dropLast ++ ["."])
    .error .isDirectory
  else
    let names ← s.locate steps
    if s.isDirectory names then .error .isDirectory else .ok (pathOf names)

/-- The store with the given bytes in a file, which may be new. -/
def put (s : FileStore) (file : String) (bytes : List UInt8) : FileStore :=
  if file = nullDevice then s else { s with files := s.files.insert file bytes }

/-- The file at a path, which may be new, and the store in which it is empty. -/
def create (s : FileStore) (path : String) : Except FileError (String × FileStore) :=
  ((pathSteps path).bind s.target).map fun file => (file, s.put file [])

/-- The number of bytes that a file can hold beside the other files, if there is a limit. -/
def room? (s : FileStore) (file : String) : Option Nat :=
  s.capacity?.map fun capacity =>
    capacity - ((s.files.entries.filter (·.1 ≠ file)).flatMap (·.2)).length

/-- The store with as many of the bytes in a file as it can hold, and whether these are all. -/
def write (s : FileStore) (file : String) (bytes : List UInt8) :
    Except FileError Unit × FileStore :=
  let written := ((s.room? file).map bytes.take).getD bytes
  (if file = nullDevice ∨ written = bytes then .ok () else .error .noSpace, s.put file written)

/-- The files of a store as a file system, in which a file is its path from the root. -/
def system : FileSystem (StateM FileStore) String where
  size path := do return (← get).size path
  read path := do return (← get).read path
  create path := do
    match (← get).create path with
    | .error e => return .error e
    | .ok (file, s) =>
      set s
      return .ok file
  write file bytes := modifyGet fun s => s.write file bytes

end FileStore

end TableQuery
