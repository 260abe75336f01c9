import LogSearch.Completion.SearchBar
import LogSearch.Json.Value

/-!
# Domain values as JSON

Every structure becomes an object that always has the same members; what is not there is `null`.
Enumerations become texts, and positions become integers.
-/

namespace LogSearch

/-! ## Queries -/

/-- A value keeps its type. -/
def Value.toJson : Value → Json
  | text s => .string s
  | number x => .number x
  | flag b => .bool b

/-- A filter. -/
def Filter.toJson (f : Filter) : Json :=
  .record [("field", .string f.field), ("operator", .string f.operator.text),
    ("value", f.value.toJson), ("originalValue", .string f.typed)]

/-- A parsed query. -/
def Query.toJson (q : Query) : Json :=
  .record [("filters", .array (q.filters.map Filter.toJson)), ("textSearch", .string q.freeText)]

/-- The backend parameters, as an object. -/
def Params.toJson (p : Params) : Json :=
  .object (p.entries.map fun (name, value) => (name, .string value))

/-! ## The catalog -/

/-- An enumerated value. -/
def Choice.toJson (c : Choice) : Json :=
  .record [("value", .string c.value), ("label", .string c.label),
    ("description", .string c.description)]

/-- A field with its enumerated values. -/
def Definition.toJson (d : Definition) : Json :=
  .record [("key", .string d.key), ("label", .string d.label),
    ("description", .string d.description), ("options", .array (d.choices.map Choice.toJson))]

/-! ## Completion -/

/-- The name of a kind of context. -/
def Context.kind : Context → Text
  | initial => "initial".text
  | key .. => "filter-key-partial".text
  | value .. => "filter-value-context".text
  | free => "text-search".text

/-- The members of a context. -/
def Context.record (kind : Text) (key typed : Option Text) (start stop : Option Nat) : Json :=
  let position (n : Option Nat) : Json := (n.map fun n => Json.integer n).getD .null
  .record [("type", .string kind), ("filterKey", .ofText? key), ("partialInput", .ofText? typed),
    ("startPosition", position start), ("endPosition", position stop)]

/-- A context. -/
def Context.toJson (c : Context) : Json :=
  match c with
  | initial | free => Context.record c.kind none none none none
  | key typed start stop => Context.record c.kind none (some typed) (some start) (some stop)
  | value name typed start stop =>
    Context.record c.kind (some name) (some typed) (some start) (some stop)

/-- A suggestion. -/
def Suggestion.toJson (s : Suggestion) : Json :=
  .record [("id", .string s.id), ("value", .string s.value), ("label", .string s.label),
    ("description", .ofText? s.description), ("category", .string s.category)]

/-- A group of suggestions. -/
def Group.toJson : Group → Json
  | keys suggestions =>
    .record [("type", .string "filter-keys".text), ("filterKey", .null),
      ("suggestions", .array (suggestions.map Suggestion.toJson))]
  | values key suggestions =>
    .record [("type", .string "filter-values".text), ("filterKey", .string key),
      ("suggestions", .array (suggestions.map Suggestion.toJson))]

/-- A group, or `null` for none. -/
def Group.toJson? (g : Option Group) : Json :=
  (g.map Group.toJson).getD .null

/-- The names that an engine holds. -/
def Engine.toJson (e : Engine) : Json :=
  .record [("workflows", .ofTexts e.workflows), ("folders", .ofTexts e.folders)]

end LogSearch
