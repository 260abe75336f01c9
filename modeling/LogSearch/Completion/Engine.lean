import LogSearch.Completion.Context
import LogSearch.Completion.Suggestion
import LogSearch.Query.Value
import LogSearch.Text.Case

/-!
# The completion engine

The engine holds the names of workflows and folders and turns the text before a cursor into a group
of candidates.  Candidates are filtered and never ranked: they come in the order of the catalog and
of the lists of names.

* `Engine.keyGroup` — the keys whose name or label starts with what is typed.
* `Engine.valueGroup?` — the values of a key that contain what is typed, in value or label.
* `Engine.suggest?` — the group for a cursor in a text.
-/

namespace LogSearch

/-- The names known to completion. -/
structure Engine where
  workflows : List Text
  folders : List Text
  deriving DecidableEq

/-! ## Matching -/

/-- Whether one of the candidates starts with the typed text, ignoring case. -/
def startsWithTyped (typed : Text) (candidates : List Text) : Bool :=
  candidates.any fun candidate => (lower typed).isPrefixOf (lower candidate)

/-- The catalog fields whose key or label starts with the typed text. -/
def matchingDefinitions (typed : Text) : List Definition :=
  catalog.filter fun d => startsWithTyped typed [d.key, d.label]

/-! ## Candidates -/

/-- The suggestion of a key. -/
def Suggestion.ofKey (key label description : Text) : Suggestion where
  id := "filter-key-".text ++ key
  value := key ++ [chr ':']
  label := label
  description := some description
  category := keyCategory

/-- The identifier of a suggested value. -/
def valueId (key name : Text) : Text :=
  "filter-value-".text ++ key ++ chr '-' :: name

/-- The suggestion of an enumerated value. -/
def Suggestion.ofChoice (key : Text) (c : Choice) : Suggestion where
  id := valueId key c.value
  value := c.value
  label := c.label
  description := some c.description
  category := key

/-- The suggestion of a name, which is inserted in quotes. -/
def Suggestion.ofName (k : KeyInfo) (name : Text) : Suggestion where
  id := valueId k.key name
  value := quoted name
  label := name
  description := some (k.label ++ ": ".text ++ name)
  category := k.key

/-- The hint that an id is to be typed in full. -/
def Suggestion.idHint (k : KeyInfo) (typed : Text) : Suggestion where
  id := valueId k.key "hint".text
  value := typed
  label := "Enter exact ".text ++ lower k.label
  description :=
    some ("Type the full ".text ++ lower k.label ++ " to match a single record".text)
  category := k.key

namespace Engine

/-- The engine with no names. -/
def empty : Engine := ⟨[], []⟩

/-- Replaces the lists of names that are given. -/
def update (e : Engine) (workflows folders : Option (List Text)) : Engine :=
  ⟨workflows.getD e.workflows, folders.getD e.folders⟩

/-- The names held for a key. -/
def names (e : Engine) (key : Text) : List Text :=
  if key = "workflow".text then e.workflows else e.folders

/-! ## Groups -/

/-- The keys that start with the typed text: catalog fields, then keys of names if any name is
held, then keys of ids. -/
def keyGroup (e : Engine) (typed : Text) : Group :=
  let ofInfo (k : KeyInfo) := Suggestion.ofKey k.key k.label k.description
  .keys <|
    (matchingDefinitions typed).map (fun d => Suggestion.ofKey d.key d.label d.description) ++
    (nameKeys.filter fun k =>
      !(e.names k.key).isEmpty && startsWithTyped typed [k.key, k.label]).map ofInfo ++
    (idKeys.filter fun k => startsWithTyped typed [k.key, k.label]).map ofInfo

/-- The enumerated values that contain the typed text, in value or label, ignoring case. -/
def choiceSuggestions (d : Definition) (typed : Text) : List Suggestion :=
  let needle := lower typed
  (d.choices.filter fun c => contains needle (lower c.value) || contains needle (lower c.label)).map
    (Suggestion.ofChoice d.key)

/-- The first names that contain the typed text without its quotes, ignoring case. -/
def nameSuggestions (e : Engine) (k : KeyInfo) (typed : Text) : List Suggestion :=
  let needle := lower (trim (· == chr '"') typed)
  (((e.names k.key).filter fun name => contains needle (lower name)).take maxNames).map
    (Suggestion.ofName k)

/-- The values of a key that contain the typed text; an unknown key has none. -/
def valueGroup? (e : Engine) (key typed : Text) : Option Group :=
  match definition? key, nameKey? key, idKey? key with
  | some d, _, _ => some (.values key (choiceSuggestions d typed))
  | none, some k, _ => some (.values key (e.nameSuggestions k typed))
  | none, none, some k => some (.values key [Suggestion.idHint k typed])
  | none, none, none => none

/-! ## Suggesting -/

/-- The key of a text that ends in `key:`.  One line break at the very end does not count. -/
def bareKey? (before : Text) : Option Text :=
  let line := if before.getLast? = some (chr '\n') then before.dropLast else before
  match keyAndRest? (lastToken line) with
  | some (key, []) => some key
  | _ => none

/-- What is offered for a word: the values of the only catalog field that it can become, or else
the keys that it can become. -/
def suggestWord (e : Engine) (typed : Text) : Option Group :=
  match typed, matchingDefinitions typed with
  | _ :: _, [d] => e.valueGroup? d.key []
  | _, _ => some (e.keyGroup typed)

/-- The group for a text before the cursor. -/
def suggestAfter? (e : Engine) (before : Text) : Option Group :=
  match bareKey? before with
  | some key => e.valueGroup? key []
  | none =>
    match Context.ofBefore before with
    | .initial => e.suggestWord []
    | .key typed _ _ => e.suggestWord typed
    | .value key typed _ _ => e.valueGroup? key typed
    | .free => none

/-- The group for a cursor in a text; none if there is nothing to offer. -/
def suggest? (e : Engine) (text : Text) (cursor : Option Int) : Option Group :=
  e.suggestAfter? (text.take (clampCursor text.length cursor))

end Engine

end LogSearch
