import LogSearch.Number.Binary64
import LogSearch.Text.Basic

/-!
# JSON values

Requests and answers are JSON.  Whole numbers are kept apart from doubles: a number written without
point and exponent is an integer of any size.

* `Json` — the values.
* `Json.field?` — a member of an object; of members with one name the last counts.
* `Json.portable` — JSON has no infinite numbers, so `null` takes their place.
* `Json.isEncodable` — whether a value can be written as bytes.
-/

namespace LogSearch

/-- A JSON value.  Objects keep their members in the order in which they were written. -/
inductive Json where
  | null
  | bool (b : Bool)
  | integer (i : Int)
  | number (x : Binary64)
  | string (s : Text)
  | array (items : List Json)
  | object (members : List (Text × Json))

namespace Json

/-- The member of an object with a given name.  Of several the last one counts. -/
def field? (name : Text) : Json → Option Json
  | object members => members.reverse.lookup name
  | _ => none

/-- A text, or `null` for none. -/
def ofText? : Option Text → Json
  | some s => string s
  | none => null

/-- An array of texts. -/
def ofTexts (texts : List Text) : Json :=
  array (texts.map string)

/-- An object from names that are given as literals. -/
def record (members : List (String × Json)) : Json :=
  object (members.map fun (name, value) => (name.text, value))

mutual

/-- Replaces numbers that are not finite by `null`. -/
def portable : Json → Json
  | number x => if x.isFinite then number x else null
  | array items => array (portableItems items)
  | object members => object (portableMembers members)
  | json => json

/-- Replaces numbers that are not finite in the items of an array. -/
def portableItems : List Json → List Json
  | [] => []
  | json :: rest => portable json :: portableItems rest

/-- Replaces numbers that are not finite in the members of an object. -/
def portableMembers : List (Text × Json) → List (Text × Json)
  | [] => []
  | (name, json) :: rest => (name, portable json) :: portableMembers rest

end

mutual

/-- Whether a value can be written as bytes: no text holds a surrogate, and the numbers are
finite. -/
def isEncodable : Json → Bool
  | number x => x.isFinite
  | string s => isWellFormed s
  | array items => encodableItems items
  | object members => encodableMembers members
  | _ => true

/-- Whether the items of an array can be written as bytes. -/
def encodableItems : List Json → Bool
  | [] => true
  | json :: rest => isEncodable json && encodableItems rest

/-- Whether the members of an object can be written as bytes.  Of members with one name only the
last one is written. -/
def encodableMembers : List (Text × Json) → Bool
  | [] => true
  | (name, json) :: rest =>
    (rest.any (·.1 == name) || isWellFormed name && isEncodable json) && encodableMembers rest

end

end Json

end LogSearch
