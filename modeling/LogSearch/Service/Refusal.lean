import LogSearch.Calendar.Zone
import LogSearch.Json.Value
import LogSearch.Number.Written
import LogSearch.Service.Checked
import LogSearch.Text.Case

/-!
# Refusals

Why a request is not answered as asked, with the status and the body of the answer.

* `Refusal` — the reasons.
* `Mishap` — failures that no rule of the service foresees.  They are reported in general words.
* `publicMessage` — the messages that may leave the service.
-/

namespace LogSearch

/-- The words for a date that cannot be computed. -/
def DateError.message : DateError → Text
  | outOfRange => "date value out of range".text
  | noSuchYear year => "year ".text ++ integerText year ++ " is out of range".text

/-- A failure while a request is worked on. -/
inductive Mishap where
  /-- A date filter reaches out of the calendar. -/
  | date (e : DateError)
  /-- Keys are compared in constant time, which works on ASCII texts only. -/
  | keyNotAscii
  /-- An answer holds a surrogate, or a number that is not finite. -/
  | notEncodable
  deriving DecidableEq

/-- The words for a failure. -/
def Mishap.message : Mishap → Text
  | date e => e.message
  | keyNotAscii => "comparing strings with non-ASCII characters is not supported".text
  | notEncodable => "surrogates not allowed".text

/-- What is said instead of a message that may not leave the service. -/
def generalMessage : Text :=
  "An error occurred processing your request. Please try again.".text

/-- The phrases, in small letters, that mark a message as fit to leave the service. -/
def publicPhrases : List Text :=
  ["query too long".text, "invalid api key".text, "incomplete query".text]

/-- A message, if it may leave the service, or the general one. -/
def publicMessage (message : Text) : Text :=
  if publicPhrases.any fun phrase => contains phrase (lower message) then message
  else generalMessage

/-- Why a request is not answered as asked. -/
inductive Refusal where
  /-- No such path. -/
  | notFound
  /-- The path is known, but not with this method. -/
  | methodNotAllowed
  /-- The path is known under another spelling of its end. -/
  | redirected
  /-- The body is JSON, but holds a number with too many digits. -/
  | unreadable
  /-- The body is not JSON or does not pass its check. -/
  | invalid (faults : List Fault)
  /-- The key of a change is not the configured one. -/
  | wrongKey
  /-- The query is longer than allowed. -/
  | tooLong (limit : Int)
  /-- A query that must be finished is not. -/
  | incomplete
  /-- An unforeseen failure. -/
  | unexpected (mishap : Mishap)
  deriving DecidableEq

/-! ## Answers -/

/-- A step of a path. -/
def PathStep.toJson : PathStep → Json
  | name s => .string s
  | position n => .integer n

/-- A fault. -/
def Fault.toJson (f : Fault) : Json :=
  .record [("type", .string f.reason.code), ("loc", .array (f.path.map PathStep.toJson))]

/-- The body of an answer that gives an error in words. -/
def errorBody (message : Text) : Json :=
  .record [("success", .bool false), ("error", .string message)]

namespace Refusal

/-- The status of the answer. -/
def status : Refusal → Nat
  | notFound => 404
  | methodNotAllowed => 405
  | redirected => 307
  | unreadable => 400
  | invalid _ => 422
  | wrongKey => 401
  | tooLong _ => 413
  | incomplete => 422
  | unexpected _ => 500

/-- The body of the answer. -/
def body : Refusal → Option Json
  | notFound => some (.record [("detail", .string "Not Found".text)])
  | methodNotAllowed => some (.record [("detail", .string "Method Not Allowed".text)])
  | redirected => none
  | unreadable => some (errorBody "There was an error parsing the body".text)
  | invalid faults => some (.record [("detail", .array (faults.map Fault.toJson))])
  | wrongKey => some (errorBody "Invalid API key".text)
  | tooLong limit =>
    some <| errorBody <|
      "Query too long. Maximum length: ".text ++ integerText limit ++ " characters".text
  | incomplete =>
    some (errorBody "Incomplete query: finish the last filter or close the open quote".text)
  | unexpected mishap => some (errorBody (publicMessage mishap.message))

end Refusal

end LogSearch
