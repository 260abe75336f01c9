import LogSearch.Completion.Context

/-!
# Unfinished queries

A query is not ready to be submitted while a double quote is open or a key at its end still waits
for a value.
-/

namespace LogSearch

/-- Whether a text ends in `key:`, blanks at the end aside. -/
def endsInKey (s : Text) : Bool :=
  match keyAndRest? (lastToken (s.reverse.dropWhile isBlank).reverse) with
  | some (_, []) => true
  | _ => false

/-- Whether a query may be submitted: its double quotes pair up and no key waits for a value. -/
def isFinished (s : Text) : Bool :=
  s.count (chr '"') % 2 == 0 && !endsInKey s

end LogSearch
