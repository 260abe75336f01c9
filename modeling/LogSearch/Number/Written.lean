import LogSearch.Text.Basic
import LogSearch.Number.Shortest

/-!
# Numbers as text

A number is written in plain positional digits where that stays readable, and with an exponent
elsewhere:

* whole numbers below `10 ^ 21` are written with all their digits, and zero without a sign;
* other numbers have their shortest digits, with a point and leading zeros down to `0.000001`;
* beyond, one digit stands before the point and a signed exponent follows: `1e-7`, `1.5e+22`.

Infinities and not-a-number are written as words.
-/

namespace LogSearch

-- Powers are those of natural numbers, whatever algebra is in scope.
attribute [local instance (high)] instPowNat

/-- An integer in decimal digits. -/
def integerText (i : Int) : Text :=
  (if i < 0 then [chr '-'] else []) ++ digitsOf i.natAbs

/-- The least order of magnitude that is written without an exponent: millionths. -/
def leastPlainOrder : Int := -6

/-- Whole numbers from here on are written with an exponent. -/
def wholeLimit : Nat := 10 ^ (21 : Nat)

/-- Digits with a point before them, after some of them, or not at all. -/
def plainText (digits : Text) (order : Int) : Text :=
  if order < 0 then chr '0' :: chr '.' :: List.replicate (-order - 1).toNat (chr '0') ++ digits
  else
    let whole := order.toNat + 1
    let zeros := List.replicate (whole - digits.length) (chr '0')
    digits.take whole ++ zeros ++
      (if whole < digits.length then chr '.' :: digits.drop whole else [])

/-- One digit, the others after a point, and the exponent with its sign. -/
def exponentText (digits : Text) (order : Int) : Text :=
  digits.take 1 ++ (if 1 < digits.length then chr '.' :: digits.drop 1 else []) ++
    chr 'e' :: (if order < 0 then chr '-' else chr '+') :: digitsOf order.natAbs

/-- The text of the magnitude at a rank. -/
def magnitudeText (rank : Nat) : Text :=
  let u := units rank
  if u % 2 ^ (1074 : Nat) = 0 && u / 2 ^ (1074 : Nat) < wholeLimit then
    digitsOf (u / 2 ^ (1074 : Nat))
  else
    let d := shortest rank
    if leastPlainOrder ≤ d.order && u / 2 ^ (1074 : Nat) < wholeLimit then
      plainText d.digits d.order
    else exponentText d.digits d.order

/-- The text of a number. -/
def Binary64.text : Binary64 → Text
  | finite negative rank =>
    (if negative && rank.val ≠ 0 then [chr '-'] else []) ++ magnitudeText rank
  | infinite negative => (if negative then [chr '-'] else []) ++ "inf".text
  | nan => "nan".text

end LogSearch
