import LogSearch.Completion.Engine
import LogSearch.Completion.Preview
import LogSearch.Completion.Finished
import LogSearch.Query.Params

/-!
# A search bar

A search bar is a completion engine and the text typed so far.

* `SearchBar.type`, `SearchBar.replace` — edit the text.
* `SearchBar.accept?` — takes the suggestion with a given number at the cursor.
* `submit` — what a text means when it is sent off: whether it is finished, what it parses to, and
  the backend parameters.
-/

namespace LogSearch

/-- What becomes of a text when it is sent off. -/
structure Submission where
  finished : Bool
  query : Query
  params : Params
  deriving DecidableEq

/-- Sends off a text at a moment, in a time zone. -/
def submit (z : Zone) (now : Moment) (text : Text) : Except DateError Submission := do
  let query := Query.parse text
  let params ← query.params z now
  return ⟨isFinished text, query, params⟩

/-- A search bar. -/
structure SearchBar where
  engine : Engine
  text : Text
  deriving DecidableEq

namespace SearchBar

/-- Types at the end of the text. -/
def type (b : SearchBar) (more : Text) : SearchBar :=
  { b with text := b.text ++ more }

/-- Replaces the text. -/
def replace (b : SearchBar) (text : Text) : SearchBar :=
  { b with text := text }

/-- Replaces the lists of names that are given. -/
def update (b : SearchBar) (workflows folders : Option (List Text)) : SearchBar :=
  { b with engine := b.engine.update workflows folders }

/-- Accepts the suggestion with a given number, if there is one at the cursor. -/
def accept? (b : SearchBar) (index : Nat) (cursor : Option Int) : Option SearchBar := do
  let group ← b.engine.suggest? b.text cursor
  let suggestion ← group.suggestions[index]?
  some (b.replace (preview suggestion b.text cursor))

end SearchBar

end LogSearch
