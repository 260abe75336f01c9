/-!
# Double-precision numbers

The numbers of a filter are binary64 values.  They are kept exactly, with no machine arithmetic.

The magnitudes that are finite are counted from zero upwards: the *rank* of a magnitude is its
place in that order.  The rank is also the bit pattern below the sign, and rounding becomes a
choice between two neighbouring ranks, of which the even one has the even significand.

Every finite magnitude is a whole multiple of the least one, `2 ^ -1074`, so exact values are
natural numbers of such *units*.

* `units` — the value of a rank, in units of `2 ^ -1074`.
* `nearestRank` — correct rounding of any quotient, a half going to the even rank.  It carries
  into the next binade and past the last rank by itself.
* `Binary64` — the numbers, with infinities and one not-a-number.
-/

namespace LogSearch

-- Powers are those of natural numbers, whatever algebra is in scope.
attribute [local instance (high)] instPowNat

/-- How many magnitudes are finite: 2047 exponents with `2 ^ 52` significands each. -/
abbrev finiteRanks : Nat := 9218868437227405312

/-- A double-precision number.  Zero has both signs. -/
inductive Binary64 where
  | finite (negative : Bool) (rank : Fin finiteRanks)
  | infinite (negative : Bool)
  | nan
  deriving DecidableEq

/-! ## Exact values -/

/-- The magnitude at a rank, in units of `2 ^ -1074`.  At `finiteRanks` it is `2 ^ 1024`, the
value that the next binade would start with. -/
def units (rank : Nat) : Nat :=
  if rank < 2 ^ (52 : Nat) then rank
  else (2 ^ (52 : Nat) + rank % 2 ^ (52 : Nat)) * 2 ^ (rank / 2 ^ (52 : Nat) - 1)

/-- The whole number nearest to a quotient, a half going to the even one. -/
def roundHalfEven (num den : Nat) : Nat :=
  let whole := num / den
  let rest := num % den
  if 2 * rest < den || (2 * rest == den && whole % 2 == 0) then whole else whole + 1

/-- The rank nearest to `num / den` units.  Above the first two binades the spacing of the ranks
doubles with each binade; `spacing` is its exponent.  A result of `finiteRanks` or more means that
the quotient is too large for a finite number. -/
def nearestRank (num den : Nat) : Nat :=
  let spacing := (num / den).log2 - 52
  spacing * 2 ^ (52 : Nat) + roundHalfEven num (den * 2 ^ spacing)

namespace Binary64

/-! ## Building numbers -/

/-- The number of a sign and a rank, infinite if the rank is beyond the last. -/
def ofRank (negative : Bool) (rank : Nat) : Binary64 :=
  if h : rank < finiteRanks then .finite negative ⟨rank, h⟩ else .infinite negative

/-- The number nearest to a quotient. -/
def ofRatio (negative : Bool) (num den : Nat) : Binary64 :=
  ofRank negative (nearestRank (num * 2 ^ (1074 : Nat)) den)

/-- The number nearest to an integer. -/
def ofInt (i : Int) : Binary64 :=
  ofRatio (i < 0) i.natAbs 1

/-- Multiplies by a natural number and rounds once. -/
def scale (k : Nat) : Binary64 → Binary64
  | finite negative rank => ofRank negative (nearestRank (units rank * k) 1)
  | x => x

/-! ## Questions -/

/-- Neither infinite nor not-a-number. -/
def isFinite : Binary64 → Bool
  | finite _ _ => true
  | _ => false

/-- The integer that a number is, if it is one. -/
def toInt? : Binary64 → Option Int
  | finite negative rank =>
    let u := units rank
    if u % 2 ^ (1074 : Nat) = 0 then
      let n : Int := (u / 2 ^ (1074 : Nat) : Nat)
      some (if negative then -n else n)
    else none
  | _ => none

/-! ## Bit patterns -/

/-- The 64-bit pattern of a number: the sign, then the rank. -/
def toBits : Binary64 → Nat
  | finite negative rank => (if negative then 2 ^ (63 : Nat) else 0) + rank
  | infinite negative => (if negative then 2 ^ (63 : Nat) else 0) + finiteRanks
  | nan => finiteRanks + 2 ^ (51 : Nat)

/-- The number with a 64-bit pattern.  All patterns beyond infinity are the one not-a-number. -/
def ofBits (bits : Nat) : Binary64 :=
  let negative : Bool := 2 ^ (63 : Nat) ≤ bits
  let rank := bits % 2 ^ (63 : Nat)
  if finiteRanks < rank then nan else ofRank negative rank

end Binary64

end LogSearch
