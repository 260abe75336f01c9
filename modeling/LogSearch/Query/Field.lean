import LogSearch.Number.Numeral
import LogSearch.Query.Value

/-!
# Fields

A filter names one of eleven fields.  Each has a name, a kind of value and a role in the
parameters that the backend receives.

* `Field.ofName?` — names are exact, with their capitals.
* `Field.kind` — the kind of value.
* `Field.coerce?` — the value of a field from its text, or nothing if the text does not fit.
* `Field.role` — what an accepted filter contributes to the parameters.
-/

namespace LogSearch

/-- The fields that a filter may name. -/
inductive Field where
  | level | status | trigger | workflow | folder | execution | workflowId | executionId
  | date | cost | duration
  deriving DecidableEq

/-- Kinds of field values. -/
inductive FieldKind where
  | string | number | date
  deriving DecidableEq

/-- The name of a kind. -/
def FieldKind.text : FieldKind → Text
  | string => "string".text
  | number => "number".text
  | date => "date".text

/-- What a filter contributes to the backend parameters. -/
inductive Role where
  /-- An equality filter sets the parameter; the last one counts. -/
  | single (param : Text)
  /-- Equality filters append to the parameter, with a separator between them. -/
  | joined (param : Text) (separator : CodePoint)
  /-- An equality filter that names a range sets the bounds of the time window. -/
  | window
  /-- A filter with any operator raises a flag named after field, operator and value. -/
  | comparison
  deriving DecidableEq

namespace Field

/-- All fields. -/
def all : List Field :=
  [level, status, trigger, workflow, folder, execution, workflowId, executionId, date, cost,
    duration]

/-- The name of a field in a query. -/
def name : Field → Text
  | level => "level".text
  | status => "status".text
  | trigger => "trigger".text
  | workflow => "workflow".text
  | folder => "folder".text
  | execution => "execution".text
  | workflowId => "workflowId".text
  | executionId => "executionId".text
  | date => "date".text
  | cost => "cost".text
  | duration => "duration".text

/-- The field with a given name. -/
def ofName? (s : Text) : Option Field :=
  all.find? (·.name == s)

/-- A field that is found has the name that was looked up. -/
theorem name_of_ofName? {s : Text} {f : Field} (h : ofName? s = some f) : f.name = s := by
  simpa using List.find?_some h

/-- Every field is found by its name. -/
theorem ofName?_name (f : Field) : ofName? f.name = some f := by
  cases f <;> decide

/-- The kind of value that a field takes. -/
def kind : Field → FieldKind
  | date => .date
  | cost | duration => .number
  | _ => .string

/-! ## Values -/

/-- The text before a given ending. -/
def beforeEnding? (ending s : Text) : Option Text :=
  if ending.isSuffixOf s then some (s.take (s.length - ending.length)) else none

/-- A duration in milliseconds: a plain number, or one with the unit `ms` or `s`. -/
def readDuration? (s : Text) : Option Binary64 :=
  match beforeEnding? [chr 'm', chr 's'] s with
  | some n => readNumber? n
  | none =>
    match beforeEnding? [chr 's'] s with
    | some n => (readNumber? n).map (Binary64.scale 1000)
    | none => readNumber? s

/-- The value of a field, from a text without operator and quotes. -/
def coerce? (f : Field) (s : Text) : Option Value :=
  match f with
  | cost => (readNumber? s).map .number
  | duration => (readDuration? s).map .number
  | _ => some (.text s)

/-! ## Parameters -/

/-- The role of a field.  `level` and `status` are two names of one parameter, and `execution`
searches for an execution by free text. -/
def role : Field → Role
  | level | status => .single "level".text
  | trigger => .joined "triggers".text (chr ',')
  | workflow => .single "workflowName".text
  | folder => .single "folderName".text
  | execution => .joined "search".text (chr ' ')
  | workflowId => .single "workflowId".text
  | executionId => .single "executionId".text
  | date => .window
  | cost | duration => .comparison

/-- Only dates set the window. -/
theorem role_eq_window_iff {f : Field} : f.role = .window ↔ f = date := by
  cases f <;> simp [role]

end Field

end LogSearch
