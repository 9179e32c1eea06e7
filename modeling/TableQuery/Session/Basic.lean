import TableQuery.Policy.Basic
import TableQuery.Table.Sort
import TableQuery.Table.Page
import TableQuery.Filter.Selection
import TableQuery.Csv.Reader
import TableQuery.Csv.Writer

/-!
# Sessions

A `Session` is a policy and at most one dataset.  Loading replaces the dataset and, if it
fails, leaves the session as it was; `Session.view` cuts one page out of the filtered and
sorted rows, and `Session.exportRows` writes the filtered rows as CSV.
-/

namespace TableQuery

/-- Why a session cannot do what it is asked. -/
inductive SessionError where
  | noData
  | tooLarge (size limit : Nat)
  | csv (e : Csv.InvalidText)
  | load (e : LoadError)
  | filter (e : Filter.FilterError)
  | zeroPageSize
  deriving DecidableEq

/-- The message of a session error. -/
def SessionError.message : SessionError → String
  | noData => "No CSV data loaded"
  | tooLarge size limit =>
    "File is too large: " ++ toString size ++ " bytes exceeds the " ++ toString limit ++
      " byte upload limit"
  | csv e => e.message
  | load e => e.message
  | filter e => e.message
  | zeroPageSize => Page.zeroSizeMessage

/-- What to show: the rows that satisfy a filter, in the order of a sort key, and of these
the page with a number, counted from zero, and a size. -/
structure ViewRequest where
  filter : String := ""
  sort? : Option SortKey := none
  page : UInt64 := 0
  size? : Option UInt64 := none
  deriving DecidableEq

/-- What is shown: the column names, one page of rows, and the counts of the filter. -/
structure View where
  headers : List String
  page : Page Row
  stats : Filter.Stats

/-- A policy and at most one dataset. -/
structure Session where
  policy : Policy
  dataset? : Option Dataset
  deriving DecidableEq

namespace Session

/-- The session without data under a policy. -/
def start (p : Policy) : Session := ⟨p, none⟩

/-- Whether a dataset is loaded. -/
def hasData (s : Session) : Bool := s.dataset?.isSome

/-- The column names of the dataset. -/
def headers (s : Session) : List String :=
  match s.dataset? with
  | some d => d.headers
  | none => []

/-- The session without its data. -/
def reset (s : Session) : Session := { s with dataset? := none }

/-- The session with a table loaded. -/
def loadTable (s : Session) (t : Csv.RawTable) : Except SessionError Session :=
  match Dataset.load t.headers t.rows s.policy.sampleSize.toNat with
  | .error e => .error (.load e)
  | .ok d => .ok { s with dataset? := some d }

/-- Checks the size of what is to be loaded. -/
def checkSize (s : Session) (size : Nat) : Except SessionError Unit :=
  if s.policy.maxUploadBytes.toNat < size then
    .error (.tooLarge size s.policy.maxUploadBytes.toNat)
  else .ok ()

/-- The session with the table in a CSV text loaded, whatever its size. -/
def loadBytes (s : Session) (bytes : List UInt8) : Except SessionError Session :=
  match Csv.read bytes with
  | .error e => .error (.csv e)
  | .ok t => s.loadTable t

/-- The session with the table in a CSV text loaded. -/
def loadText (s : Session) (text : String) : Except SessionError Session := do
  s.checkSize (Text.encode text).length
  s.loadBytes (Text.encode text)

/-- The dataset, which must be there. -/
def loaded (s : Session) : Except SessionError Dataset :=
  match s.dataset? with
  | some d => .ok d
  | none => .error .noData

/-- The rows of a dataset that satisfy a filter, and the counts. -/
def matching (s : Session) (d : Dataset) (filter : String) :
    Except SessionError (List Row × Filter.Stats) :=
  (Filter.select d.rows d.schema filter s.policy).mapError .filter

/-- The page that a request asks for. -/
def view (s : Session) (q : ViewRequest) : Except SessionError View := do
  let d ← s.loaded
  let (rows, stats) ← s.matching d q.filter
  match Page.slice? (sortRows d.schema q.sort? rows) q.page (s.policy.pageSize q.size?) with
  | some page => .ok { headers := d.headers, page, stats }
  | none => .error .zeroPageSize

/-- The rows that satisfy a filter as a CSV text, and their number. -/
def exportRows (s : Session) (filter : String) : Except SessionError (String × Nat) := do
  let d ← s.loaded
  let (rows, _) ← s.matching d filter
  return (Csv.write d.headers rows, rows.length)

end Session

end TableQuery
