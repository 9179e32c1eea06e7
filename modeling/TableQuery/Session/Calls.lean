import TableQuery.Command.Files
import TableQuery.Session.Basic

/-!
# Calls of a session

A session is used call by call.  `Session.call` is what one call does: the session after it, the
reply, and the bytes that an export has put into its sink.  A call that fails leaves the session
as it was.
-/

namespace TableQuery

namespace Session

/-- What an export writes to: given the text, the bytes that it takes, and whether it takes the
text without a fault. -/
abbrev Sink := List UInt8 → List UInt8 × Except FileError Unit

/-- The sink that takes everything. -/
def Sink.whole : Sink := fun bytes => (bytes, .ok ())

/-- A use of a session.  A file to load is given by its size, as it is asked for beforehand, and its
bytes, or by the reasons why these cannot be had. -/
inductive Call where
  | loadText (text : String)
  | loadFile (size : Except FileError Nat) (file : Except FileError (List UInt8))
  | loadTable (t : Csv.RawTable)
  | view (q : ViewRequest)
  | exportRows (filter : String) (sink : Sink)
  | reset

/-- Why a call fails. -/
inductive CallError where
  | session (e : SessionError)
  | file (e : FileError)
  | sink (e : FileError)
  deriving DecidableEq

/-- What a call that does not fail replies. -/
inductive Reply where
  | loaded
  | page (v : View)
  | exported (rows : Nat)
  | reset

/-- What a call does: the session after it, its reply, and the bytes it has written. -/
structure Outcome where
  session : Session
  reply : Except CallError Reply
  written : List UInt8 := []

/-- The outcome of loading, from the session with the table loaded. -/
def afterLoad (s : Session) : Except CallError Session → Outcome
  | .ok t => { session := t, reply := .ok .loaded }
  | .error e => { session := s, reply := .error e }

/-- The session with the table in a file loaded, of which the size is checked first. -/
def loadFile (s : Session) (size : Except FileError Nat) (file : Except FileError (List UInt8)) :
    Except CallError Session := do
  (s.checkSize (← size.mapError .file)).mapError .session
  (s.loadBytes (← file.mapError .file)).mapError .session

/-- The outcome of writing the rows that satisfy a filter into a sink. -/
def exportInto (s : Session) (filter : String) (sink : Sink) : Outcome :=
  match s.exportRows filter with
  | .ok (text, count) =>
    let (written, result) := sink (Text.encode text)
    { session := s, reply := (result.mapError .sink).map fun () => .exported count, written }
  | .error e => { session := s, reply := .error (.session e) }

/-- What a call does. -/
def call (s : Session) : Call → Outcome
  | .loadText text => s.afterLoad ((s.loadText text).mapError .session)
  | .loadFile size file => s.afterLoad (s.loadFile size file)
  | .loadTable t => s.afterLoad ((s.loadTable t).mapError .session)
  | .view q => { session := s, reply := ((s.view q).mapError .session).map .page }
  | .exportRows filter sink => s.exportInto filter sink
  | .reset => { session := s.reset, reply := .ok .reset }

/-- The session after a list of calls. -/
def run (s : Session) (calls : List Call) : Session :=
  calls.foldl (fun s c => (s.call c).session) s

end Session

end TableQuery
