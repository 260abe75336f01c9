import LogSearch.Calendar.Window
import LogSearch.Query.Parse

/-!
# Backend parameters

The backend takes a flat table of named texts.  Each filter adds to the table as the role of its
field says, and the free text becomes the parameter `search`.

* `Params` — the table, in the order in which the names were first written.
* `Filter.addTo` — what one filter adds.  Filters on unknown fields add nothing.
* `Query.params` — the table of a whole query at a moment, in a time zone.
-/

namespace LogSearch

/-- Named texts in order of first writing, each name once. -/
structure Params where
  entries : List (Text × Text)
  deriving DecidableEq

namespace Params

/-- The table with no entry. -/
def empty : Params := ⟨[]⟩

/-- The text under a name. -/
def get? (p : Params) (name : Text) : Option Text :=
  p.entries.lookup name

/-- Writes a text under a name of a list of entries. -/
def setEntry (name value : Text) : List (Text × Text) → List (Text × Text)
  | [] => [(name, value)]
  | (n, v) :: rest => if n = name then (n, value) :: rest else (n, v) :: setEntry name value rest

/-- Writes a text under a name.  A name that is there keeps its place. -/
def set (p : Params) (name value : Text) : Params :=
  ⟨setEntry name value p.entries⟩

/-- Writing under a name shows there and nowhere else. -/
theorem lookup_setEntry (name value other : Text) (entries : List (Text × Text)) :
    (setEntry name value entries).lookup other =
      if other = name then some value else entries.lookup other := by
  induction entries with
  | nil =>
    by_cases h : other = name
    · simp [setEntry, h]
    · simp [setEntry, List.lookup_cons, h, beq_false_of_ne h]
  | cons e rest ih =>
    obtain ⟨n, v⟩ := e
    by_cases hn : n = name
    · subst hn
      by_cases h : other = n
      · simp [setEntry, h]
      · simp [setEntry, List.lookup_cons, h, beq_false_of_ne h]
    · by_cases h : other = n
      · subst h
        simp [setEntry, hn]
      · simp [setEntry, List.lookup_cons, hn, beq_false_of_ne h, ih]

/-- A text that has been written can be looked up, and other names are as before. -/
theorem get?_set (p : Params) (name value other : Text) :
    (p.set name value).get? other = if other = name then some value else p.get? other :=
  lookup_setEntry name value other p.entries

/-- Appends a text after a separator.  Nothing is kept of a text that is empty so far. -/
def append (p : Params) (name : Text) (separator : CodePoint) (value : Text) : Params :=
  match p.get? name with
  | some (c :: cs) => p.set name (c :: cs ++ separator :: value)
  | _ => p.set name value

/-- Writes the bounds of a window.  Without an end, an end written before stays. -/
def setWindow (p : Params) (w : Window) : Params :=
  let p := p.set "startDate".text (isoText w.start)
  match w.stop with
  | some stop => p.set "endDate".text (isoText stop)
  | none => p

end Params

/-- The name of the flag that a comparison raises. -/
def Filter.flagName (f : Filter) : Text :=
  f.field ++ chr '_' :: f.operator.text ++ chr '_' :: f.value.written

/-- The name of a flag has an underscore, unlike those of the other parameters. -/
theorem Filter.underscore_mem_flagName (f : Filter) : chr '_' ∈ f.flagName := by
  simp [flagName]

/-- Adds what a filter contributes. -/
def Filter.addTo (f : Filter) (z : Zone) (now : Moment) (p : Params) : Except DateError Params :=
  match (Field.ofName? f.field).map Field.role with
  | none => .ok p
  | some .comparison => .ok (p.set f.flagName "true".text)
  | some role =>
    if f.operator ≠ .eq then .ok p
    else match role with
      | .single param => .ok (p.set param f.value.written)
      | .joined param separator => .ok (p.append param separator f.value.written)
      | .comparison => .ok p
      | .window => do
        match ← namedWindow z f.value.written now with
        | none => return p
        | some w => return p.setWindow w

/-- The parameters of a query. -/
def Query.params (q : Query) (z : Zone) (now : Moment) : Except DateError Params := do
  let p ← q.filters.foldlM (fun p f => f.addTo z now p) Params.empty
  return if q.freeText.isEmpty then p else p.append "search".text (chr ' ') q.freeText

end LogSearch
