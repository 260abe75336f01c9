import LogSearch.Number.Binary64
import LogSearch.Text.CodePoint

/-!
# Shortest decimals

The decimal text of a double is chosen by two rules: the fewest digits that read back as the same
double, and among those the decimal nearest to the exact value, a tie going to the even digit.

* `Decimal` — `coefficient * 10 ^ power`.
* `Decimal.rank` — the rank that a decimal reads as.
* `shortest` — the decimal chosen for a rank.  For each number of digits the exact value has two
  neighbours on the decimal grid; if a point of the grid reads back, one of these two does.
-/

namespace LogSearch

-- Powers are those of natural numbers, whatever algebra is in scope.
attribute [local instance (high)] instPowNat

/-- The decimal `coefficient * 10 ^ power`. -/
structure Decimal where
  coefficient : Nat
  power : Int
  deriving DecidableEq

namespace Decimal

/-- The rank nearest to a decimal. -/
def rank (d : Decimal) : Nat :=
  nearestRank (d.coefficient * 10 ^ d.power.toNat * 2 ^ (1074 : Nat)) (10 ^ (-d.power).toNat)

/-- The digits of the coefficient without the zeros at their end. -/
def digits (d : Decimal) : Text :=
  ((digitsOf d.coefficient).reverse.dropWhile (· == chr '0')).reverse

/-- The power of ten of the first digit. -/
def order (d : Decimal) : Int :=
  (digitsOf d.coefficient).length - 1 + d.power

end Decimal

/-- The power of ten of the first digit of `u` units.  Multiplied by `10 ^ 324` even the least
magnitude has a digit before the point. -/
def unitsOrder (u : Nat) : Int :=
  (digitsOf (u * 10 ^ (324 : Nat) / 2 ^ (1074 : Nat))).length - 325

/-- The two whole numbers around a quotient, the nearer one first; a tie starts with the even. -/
def neighbours (num den : Nat) : List Nat :=
  let near := roundHalfEven num den
  [near, if near = num / den then near + 1 else num / den]

/-- The decimals that end at the given power of ten and are nearest to `u` units. -/
def decimalNeighbours (u : Nat) (power : Int) : List Decimal :=
  (neighbours (u * 10 ^ (-power).toNat) (2 ^ (1074 : Nat) * 10 ^ power.toNat)).map (⟨·, power⟩)

/-- The shortest decimal that reads back as a rank.  The search starts with one digit and ends at
the latest where the decimal grid holds the exact value, which is also what it falls back on. -/
def shortest (rank : Nat) : Decimal :=
  let u := units rank
  let order := unitsOrder u
  let found := (List.range (order + 1075).toNat).findSome? fun more : Nat =>
    (decimalNeighbours u (order - more)).find? (·.rank == rank)
  found.getD ⟨u * 5 ^ (1074 : Nat), -1074⟩

end LogSearch
