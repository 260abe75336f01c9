import LogSearch.Completion.Suggestion
import LogSearch.Service.Scalar

/-!
# Request bodies

The body of a request is one JSON object.  Some members go by two names, of which the first one
that is there counts and is the one that faults are reported under.  Members that are not known are
passed over.

* `member`, `memberOr` — a member that must be there, and one that has a default.
* `ParseBody`, `SuggestBody`, `PreviewBody`, `ValidateBody`, `NamesBody` — the bodies.
-/

namespace LogSearch

/-! ## Members -/

/-- The first of some names that an object has a member of, and that member. -/
def Json.firstField? (json : Json) (names : List String) : Option (Text × Json) :=
  names.findSome? fun name => (json.field? name.text).map (name.text, ·)

/-- A member that must be there. -/
def member {α : Type} (json : Json) (name : String) (check : Json → Checked α) : Checked α :=
  Checked.inside (.name name.text) <|
    match json.field? name.text with
    | some value => check value
    | none => .refuse .missing

/-- A member under one of some names, with a default. -/
def memberOr {α : Type} (json : Json) (names : List String) (standard : α)
    (check : Json → Checked α) : Checked α :=
  match json.firstField? names with
  | some (name, value) => (check value).inside (.name name)
  | none => pure standard

/-- Checks an object, and refuses everything else for a reason. -/
def checkObject {α : Type} (reason : Reason) (check : Json → Checked α) : Json → Checked α
  | .object members => check (.object members)
  | _ => .refuse reason

/-- The query of a body; without one it is empty. -/
def queryMember (json : Json) : Checked Text :=
  memberOr json ["query"] [] checkText

/-- The cursor of a body, of any size or none. -/
def cursorMember (json : Json) : Checked (Option Int) :=
  memberOr json ["cursorPosition", "cursor_position"] none (checkOrNull checkInteger)

/-! ## Bodies -/

/-- Reads a suggestion; only the description may be left out. -/
def Suggestion.ofMembers (json : Json) : Checked Suggestion :=
  Suggestion.mk
    <$> member json "id" checkText
    <*> member json "value" checkText
    <*> member json "label" checkText
    <*> memberOr json ["description"] none (checkOrNull checkText)
    <*> member json "category" checkText

/-- A query to be parsed; if strict, only when it is finished. -/
structure ParseBody where
  query : Text
  strict : Bool

/-- Reads the body of a parse request. -/
def ParseBody.ofMembers (json : Json) : Checked ParseBody :=
  ParseBody.mk <$> queryMember json <*> memberOr json ["strict"] false checkFlag

/-- A query and a cursor to find suggestions for. -/
structure SuggestBody where
  query : Text
  cursor : Option Int

/-- Reads the body of a suggest request. -/
def SuggestBody.ofMembers (json : Json) : Checked SuggestBody :=
  SuggestBody.mk <$> queryMember json <*> cursorMember json

/-- A suggestion to be accepted at a cursor in a query. -/
structure PreviewBody where
  suggestion : Suggestion
  query : Text
  cursor : Option Int

/-- Reads the body of a preview request. -/
def PreviewBody.ofMembers (json : Json) : Checked PreviewBody :=
  PreviewBody.mk
    <$> member json "suggestion" (checkObject .notBody Suggestion.ofMembers)
    <*> queryMember json
    <*> cursorMember json

/-- A query to be validated. -/
structure ValidateBody where
  query : Text

/-- Reads the body of a validate request. -/
def ValidateBody.ofMembers (json : Json) : Checked ValidateBody :=
  ValidateBody.mk <$> queryMember json

/-- New names; a list that is not given stays as it is. -/
structure NamesBody where
  workflows : Option (List Text)
  folders : Option (List Text)

/-- Reads the body of a request that replaces names. -/
def NamesBody.ofMembers (json : Json) : Checked NamesBody :=
  NamesBody.mk
    <$> memberOr json ["workflows"] none (checkOrNull checkTexts)
    <*> memberOr json ["folders"] none (checkOrNull checkTexts)

end LogSearch
