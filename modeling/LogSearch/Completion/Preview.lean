import LogSearch.Completion.Context
import LogSearch.Completion.Suggestion

/-!
# Accepting a suggestion

`preview` is the text that results from accepting a suggestion at a cursor.

* While a key or a value is being typed, the suggestion takes its place.  A value that was offered
  for a word that could only become one key brings that key along.
* Elsewhere the suggestion is inserted at the cursor, after a space unless the text before it is
  empty or ends in a colon or a blank.
-/

namespace LogSearch

/-- Whether every character is a blank. -/
def isBlankText (s : Text) : Bool :=
  s.all isBlank

/-- What a suggestion inserts in place of a word. -/
def Suggestion.inPlaceOfWord (s : Suggestion) : Text :=
  if (definition? s.category).isSome then s.category ++ chr ':' :: s.value else s.value

/-- What keeps an inserted suggestion apart from the text before it. -/
def separator (before : Text) : Text :=
  match before.getLast? with
  | none => []
  | some c => if c = chr ':' || isBlank c then [] else [chr ' ']

/-- The text after accepting a suggestion. -/
def preview (s : Suggestion) (text : Text) (cursor : Option Int) : Text :=
  if isBlankText text then s.value
  else
    let here := clampCursor text.length cursor
    match Context.ofBefore (text.take here) with
    | .key _ start stop => text.take start ++ s.inPlaceOfWord ++ text.drop stop
    | .value _ _ start stop => text.take start ++ s.value ++ text.drop stop
    | .initial | .free => text.take here ++ separator (text.take here) ++ s.value ++ text.drop here

end LogSearch
