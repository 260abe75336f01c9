import LogSearch.Number.Written

/-!
# Filter values

A filter holds a text, a number or a flag.

* `Value.written` — how a value is written as a backend parameter.
* `unquote` — a value between double quotes stands for what is between them.
-/

namespace LogSearch

/-- What a filter compares with. -/
inductive Value where
  | text (s : Text)
  | number (x : Binary64)
  | flag (b : Bool)
  deriving DecidableEq

/-- The text of a value. -/
def Value.written : Value → Text
  | text s => s
  | number x => x.text
  | flag true => "true".text
  | flag false => "false".text

/-- Drops one pair of surrounding double quotes, if both are there. -/
def unquote : Text → Text
  | chr '"' :: s => if s.getLast? = some (chr '"') then s.dropLast else chr '"' :: s
  | s => s

/-- A text between double quotes. -/
def quoted (s : Text) : Text :=
  chr '"' :: s ++ [chr '"']

end LogSearch
