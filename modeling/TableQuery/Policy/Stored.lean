import TableQuery.Json.Decode
import TableQuery.Json.Reader
import TableQuery.Policy.Basic

/-!
# Stored policies

The JSON form of a policy.  A field that is not given has its strict value.
`Policy.ofText` reads a policy and checks it.
-/

namespace TableQuery

/-- The stored names of the modes. -/
def Mode.storedNames : List (String × Mode) :=
  [("strict", strict), ("lenient", lenient)]

/-- The stored name of a mode. -/
def Mode.storedName : Mode → String
  | strict => "strict"
  | lenient => "lenient"

namespace Policy

/-- The names of the fields, in their stored order. -/
def fieldNames : List String :=
  ["mode", "inference_sample_rows", "default_page_size", "max_page_size", "max_upload_bytes",
   "max_depth"]

/-- The JSON form of a policy. -/
def toJson (p : Policy) : Json :=
  .object
    [("mode", .string p.mode.storedName), ("inference_sample_rows", .nat p.sampleSize.toNat),
     ("default_page_size", .nat p.defaultPageSize.toNat),
     ("max_page_size", .nat p.maxPageSize.toNat),
     ("max_upload_bytes", .nat p.maxUploadBytes.toNat), ("max_depth", .nat p.maxDepth.toNat)]

/-- Reads a policy. -/
def decode : Json.Decoder Policy := fun r j => do
  match ← Json.fields? fieldNames r j with
  | (r, [mode, sampleSize, defaultPageSize, maxPageSize, maxUploadBytes, maxDepth]) =>
    return {
      mode := ← Json.orElse strict.mode (Json.Decoder.constant Mode.storedNames) r mode
      sampleSize := ← Json.orElse strict.sampleSize Json.Decoder.word r sampleSize
      defaultPageSize := ← Json.orElse strict.defaultPageSize Json.Decoder.word r defaultPageSize
      maxPageSize := ← Json.orElse strict.maxPageSize Json.Decoder.word r maxPageSize
      maxUploadBytes := ← Json.orElse strict.maxUploadBytes Json.Decoder.word r maxUploadBytes
      maxDepth := ← Json.orElse strict.maxDepth Json.Decoder.word r maxDepth }
  | _ => none

/-- Why a text is no usable policy.  Where it stores none, the reader of JSON says why. -/
inductive ReadFailure where
  | notStored (reason : String)
  | flawed (flaw : Flaw)
  deriving DecidableEq

/-- The message for a text that is no usable policy. -/
def ReadFailure.message : ReadFailure → String
  | notStored reason => reason
  | flawed flaw => flaw.message

/-- The policy, unless it has a flaw. -/
def check (p : Policy) : Except Flaw Policy :=
  match p.flaw? with
  | some flaw => .error flaw
  | none => .ok p

/-- The policy that a JSON text stores, if it is usable.  What the reader of JSON says of a text
that stores none is `reason`. -/
def ofText (reason : String → String) (s : String) : Except ReadFailure Policy :=
  match (Json.read? s).bind (decode .top) with
  | none => .error (.notStored (reason s))
  | some p => p.check.mapError .flawed

end Policy

end TableQuery
