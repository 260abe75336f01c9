import LogSearch.Query.Field
import LogSearch.Query.Scan

/-!
# Parsing a query

A query is free text with filters in it: `level:error cost:>0.01 workflow:"Daily report" timeout`.
Parsing never fails.  What looks like a filter but names no field, or has a value that does not fit
its field, stays in the free text as it was typed.

* `Filter` — a field, an operator and a value, with the text the value was read from.
* `Filter.read?` — a filter from its key and its value as typed.
* `Query.parse` — the filters of a query in order, and the words of everything else.
-/

namespace LogSearch

/-- A filter.  The field is kept by name. -/
structure Filter where
  field : Text
  operator : Operator
  value : Value
  /-- The value as it was typed, operator and quotes included. -/
  typed : Text
  deriving DecidableEq

/-- A query after parsing. -/
structure Query where
  filters : List Filter
  freeText : Text
  deriving DecidableEq

/-- A filter from its key and its value as typed, if the key names a field that takes the value. -/
def Filter.read? (key typed : Text) : Option Filter := do
  let field ← Field.ofName? key
  let (operator, rest) := Operator.split typed
  let value ← field.coerce? (unquote rest)
  some ⟨key, operator, value, typed⟩

namespace Span

/-- The filter that a span stands for, if it is accepted. -/
def filter? (f : Span) : Option Filter :=
  Filter.read? f.key f.value

/-- The words that a span adds to the free text: none if it is accepted as a filter. -/
def freeWords (f : Span) : List Text :=
  if f.filter?.isSome then [] else words f.text

end Span

namespace Query

/-- The query with no filters and no free text. -/
def empty : Query := ⟨[], []⟩

/-- The words of a query that belong to no filter. -/
def freeWords (s : Text) : List Text :=
  let (found, tail) := spans s
  found.flatMap (fun (before, f) => words before ++ f.freeWords) ++ words tail

/-- Parses a query. -/
def parse (s : Text) : Query where
  filters := (spans s).1.filterMap (·.2.filter?)
  freeText := unwords (freeWords s)

end Query

end LogSearch
