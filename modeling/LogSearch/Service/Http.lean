import LogSearch.Calendar.Zone
import LogSearch.Json.Value
import LogSearch.Service.Settings

/-!
# Requests, answers and their headers

Every answer is tagged with an identifier of the request and with headers that protect a browser.

* `Request`, `Response` — what goes in and out.
* `requestId` — the identifier that the request came with, if it looks like one, or a fresh one.
* `protectiveHeaders` — the headers of an answer, except for one that an unexpected failure cuts
  off.
-/

namespace LogSearch

/-- A request.  The path may carry parameters after a question mark, and an empty body is none. -/
structure Request where
  method : Text
  path : Text
  headers : List (Text × Text)
  body : Text
  deriving DecidableEq

/-- An answer. -/
structure Response where
  status : Nat
  headers : List (Text × Text)
  body : Option Json

namespace Request

/-- The first header with a name, which is given in small letters. -/
def header? (r : Request) (name : String) : Option Text :=
  (r.headers.find? fun h => h.1.map CodePoint.toLower == name.text).map (·.2)

/-- The path without parameters. -/
def route (r : Request) : Text :=
  r.path.takeWhile (· ≠ chr '?')

end Request

/-! ## Identifiers -/

/-- Characters of an identifier. -/
def isIdChar (c : CodePoint) : Bool :=
  c.isAlphanum || c == chr '.' || c == chr '_' || c == chr '-'

/-- Whether a text can be the identifier of a request: 1 to 128 letters, digits, points,
underscores and hyphens. -/
def isRequestId (s : Text) : Bool :=
  !s.isEmpty && s.length ≤ 128 && s.all isIdChar

/-- The identifier of a request.  Only its first header counts. -/
def requestId (r : Request) (fresh : Text) : Text :=
  ((r.header? "x-request-id").filter isRequestId).getD fresh

/-! ## Headers of answers -/

/-- The headers that an answer carries under some settings. -/
def protectiveHeaders (s : Settings) (id : Text) : List (Text × Text) :=
  [("x-request-id".text, id),
    ("x-content-type-options".text, "nosniff".text),
    ("x-frame-options".text, "DENY".text)] ++
  if s.isProduction then
    [("strict-transport-security".text, "max-age=31536000; includeSubDomains".text)]
  else []

end LogSearch
