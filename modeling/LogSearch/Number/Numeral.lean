import LogSearch.Text.Class
import LogSearch.Number.Binary64

/-!
# Numerals

A numeral is an optional sign, digits with at most one point among, before or after them, and an
optional exponent: `42`, `-.5`, `1.`, `6.02e+23`.  Digits of any script count.

* `Numeral.read?` — accepts exactly the texts of that grammar.
* `Numeral.toBinary64` — the double nearest to the number denoted, however long the digits and the
  exponent are.
* `readNumber?` — the numbers a filter may hold: numerals whose nearest double is finite.
-/

namespace LogSearch

-- Powers are those of natural numbers, whatever algebra is in scope.
attribute [local instance (high)] instPowNat

/-- The number that a row of decimal digits denotes, most significant first. -/
def ofDigits (digits : List Nat) : Nat :=
  digits.foldl (fun n d => 10 * n + d) 0

/-- A numeral: the digits before and after the point, and the exponent. -/
structure Numeral where
  negative : Bool
  whole : List Nat
  fraction : List Nat
  exponent : Int

namespace Numeral

/-! ## Reading -/

/-- Splits off a leading sign; the flag says whether it was a minus. -/
def splitSign : Text → Bool × Text
  | chr '-' :: s => (true, s)
  | chr '+' :: s => (false, s)
  | s => (false, s)

/-- The leading digits of a text, by value. -/
def leadingDigits (s : Text) : List Nat :=
  (s.takeWhile isDigit).filterMap digit?

/-- Reads what may follow the digits: nothing, or an exponent with at least one digit. -/
def readExponent? : Text → Option Int
  | [] => some 0
  | c :: s =>
    let (negative, digits) := splitSign s
    if (c == chr 'e' || c == chr 'E') && !digits.isEmpty && digits.all isDigit then
      let n : Int := ofDigits (leadingDigits digits)
      some (if negative then -n else n)
    else none

/-- Reads a whole text as a numeral. -/
def read? (s : Text) : Option Numeral :=
  let (negative, s) := splitSign s
  let whole := leadingDigits s
  let (fraction, rest) :=
    match s.dropWhile isDigit with
    | chr '.' :: r => (leadingDigits r, r.dropWhile isDigit)
    | r => ([], r)
  if whole.isEmpty && fraction.isEmpty then none
  else (readExponent? rest).map fun exponent => ⟨negative, whole, fraction, exponent⟩

/-! ## Value -/

/-- The digits from the first one that is not zero. -/
def significant (n : Numeral) : List Nat :=
  (n.whole ++ n.fraction).dropWhile (· == 0)

/-- The power of ten of the last digit. -/
def lastPower (n : Numeral) : Int :=
  n.exponent - n.fraction.length

/-- The double nearest to the number.  With `k` significant digits and last power `p` the number
lies below `10 ^ (k + p)` and not below a tenth of that, so far outside the range of doubles the
digits need not be looked at. -/
def toBinary64 (n : Numeral) : Binary64 :=
  let digits := n.significant
  let power := n.lastPower
  if digits.isEmpty || digits.length + power < -400 then .ofRank n.negative 0
  else if 400 < digits.length + power then .infinite n.negative
  else .ofRatio n.negative (ofDigits digits * 10 ^ power.toNat) (10 ^ (-power).toNat)

end Numeral

/-- The finite number that a text denotes.  Words such as `inf` and `nan` are no numerals. -/
def readNumber? (s : Text) : Option Binary64 :=
  ((Numeral.read? s).map Numeral.toBinary64).filter Binary64.isFinite

end LogSearch
