import LogSearch.Text.Basic

/-!
# Checked values

What comes from outside is checked as a whole: if several parts are at fault, every fault is
reported, in the order of the parts.

* `Fault` — a reason and the place that it applies to, as a path of names and positions.
* `Checked` — a value, or the faults that were found.  Combining checked parts with `<$>` and `<*>`
  joins their faults.
* `Checked.inside` — moves faults under a name or a position.
-/

namespace LogSearch

/-- Why a value is refused. -/
inductive Reason where
  | notJson
  | missing
  /-- A body, or an object within it, is something else. -/
  | notBody
  /-- An object that stands alone is something else. -/
  | notObject
  | notText
  | notList
  | notFlag
  /-- A text or number is none of the spellings of a flag. -/
  | badFlag
  | notInteger
  /-- A text does not spell an integer. -/
  | badInteger
  /-- An integer has too many digits, or is given as a double that is too large. -/
  | oversized
  /-- A number has a fraction. -/
  | fractional
  /-- A number is not finite. -/
  | notFinite
  /-- A number is below the least one allowed. -/
  | tooSmall
  /-- A text is none of an enumeration. -/
  | notEnumerated
  deriving DecidableEq

/-- The code under which a reason is reported. -/
def Reason.code : Reason → Text
  | notJson => "json_invalid".text
  | missing => "missing".text
  | notBody => "model_attributes_type".text
  | notObject => "model_type".text
  | notText => "string_type".text
  | notList => "list_type".text
  | notFlag => "bool_type".text
  | badFlag => "bool_parsing".text
  | notInteger => "int_type".text
  | badInteger => "int_parsing".text
  | oversized => "int_parsing_size".text
  | fractional => "int_from_float".text
  | notFinite => "finite_number".text
  | tooSmall => "greater_than_equal".text
  | notEnumerated => "enum".text

/-- One step of a path into a value. -/
inductive PathStep where
  | name (s : Text)
  | position (n : Nat)
  deriving DecidableEq

/-- A refused part of a value. -/
structure Fault where
  path : List PathStep
  reason : Reason
  deriving DecidableEq

/-- A value that has been checked. -/
inductive Checked (α : Type) where
  | valid (value : α)
  | refused (faults : List Fault)

namespace Checked

variable {α β : Type}

/-- A value refused for one reason. -/
def refuse (reason : Reason) : Checked α :=
  refused [⟨[], reason⟩]

/-- Applies a function to a checked value. -/
def map (f : α → β) : Checked α → Checked β
  | valid a => valid (f a)
  | refused faults => refused faults

/-- Applies a checked function to a checked value.  The faults of both are kept. -/
def seq (f : Checked (α → β)) (a : Checked α) : Checked β :=
  match f, a with
  | valid f, a => a.map f
  | refused faults, valid _ => refused faults
  | refused faults, refused more => refused (faults ++ more)

instance : Applicative Checked where
  pure := valid
  map := map
  seq f a := f.seq (a ())

/-- Moves the faults of a value under a step. -/
def inside (step : PathStep) : Checked α → Checked α
  | valid a => valid a
  | refused faults => refused (faults.map fun f => ⟨step :: f.path, f.reason⟩)

/-- Checks the items of a list that starts at a position. -/
def items (check : α → Checked β) : Nat → List α → Checked (List β)
  | _, [] => valid []
  | n, a :: rest => List.cons <$> (check a).inside (.position n) <*> items check (n + 1) rest

end Checked

end LogSearch
