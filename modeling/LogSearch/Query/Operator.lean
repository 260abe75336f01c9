import LogSearch.Text.Basic

/-!
# Comparison operators

A filter value may start with a comparison operator; without one the filter asks for equality.

* `Operator.text` and `Operator.ofText?` — how operators are written.
* `Operator.split?` — splits a leading operator off a text, the longest one that fits, so that
  `>=` is never read as `>` followed by `=`.
* `Operator.split` — the same with equality as the default.
-/

namespace LogSearch

/-- The comparisons of a filter. -/
inductive Operator where
  | eq | gt | lt | ge | le | ne
  deriving DecidableEq

namespace Operator

/-- How an operator is written. -/
def text : Operator → Text
  | eq => [chr '=']
  | gt => [chr '>']
  | lt => [chr '<']
  | ge => [chr '>', chr '=']
  | le => [chr '<', chr '=']
  | ne => [chr '!', chr '=']

/-- All operators, those of two characters first. -/
def all : List Operator :=
  [ge, le, ne, gt, lt, eq]

/-- The operator with a given text. -/
def ofText? (s : Text) : Option Operator :=
  all.find? (·.text == s)

/-- The longest operator that a text starts with, and the text after it. -/
def split? : Text → Option (Operator × Text)
  | chr '>' :: chr '=' :: s => some (ge, s)
  | chr '<' :: chr '=' :: s => some (le, s)
  | chr '!' :: chr '=' :: s => some (ne, s)
  | chr '>' :: s => some (gt, s)
  | chr '<' :: s => some (lt, s)
  | chr '=' :: s => some (eq, s)
  | _ => none

/-- Splitting off an operator loses nothing. -/
theorem text_append_of_split? {s rest : Text} {op : Operator} (h : split? s = some (op, rest)) :
    op.text ++ rest = s := by
  unfold split? at h
  split at h <;> simp only [Option.some.injEq, Prod.mk.injEq, reduceCtorEq] at h <;>
    obtain ⟨rfl, rfl⟩ := h <;> rfl

/-- Splits a leading operator off a text; without one the operator is equality. -/
def split (s : Text) : Operator × Text :=
  (split? s).getD (eq, s)

end Operator

end LogSearch
