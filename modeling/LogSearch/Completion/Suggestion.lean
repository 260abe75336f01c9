import LogSearch.Text.Basic

/-!
# Suggestions

* `Suggestion` — one candidate: an identifier, the text that is inserted when it is accepted, how
  it is shown, and the category that it belongs to.  Suggested keys share one category, and a
  suggested value has its key as category.
* `Group` — the candidates offered together, all keys or all values of one key.
-/

namespace LogSearch

/-- One completion candidate. -/
structure Suggestion where
  id : Text
  value : Text
  label : Text
  description : Option Text
  category : Text
  deriving DecidableEq

/-- The candidates offered at a cursor. -/
inductive Group where
  | keys (suggestions : List Suggestion)
  | values (key : Text) (suggestions : List Suggestion)
  deriving DecidableEq

/-- The candidates of a group. -/
def Group.suggestions : Group → List Suggestion
  | keys s => s
  | values _ s => s

/-- The category of suggested keys. -/
def keyCategory : Text :=
  "filters".text

end LogSearch
