import LogSearch.Json.Value
import LogSearch.Number.Written

/-!
# Writing JSON

`Json.write` writes a value on one line without blanks.  A double always has a point or an
exponent, so that it is not read back as an integer; in texts only quotes, backslashes and control
characters are escaped.
-/

namespace LogSearch

namespace Json

/-! ## Leaves -/

/-- Two hexadecimal digits of a code below 256. -/
def hexByte (n : Nat) : Text :=
  [chr (Nat.digitChar (n / 16)), chr (Nat.digitChar (n % 16))]

/-- A character inside a quoted text. -/
def writeChar (c : CodePoint) : Text :=
  if c = chr '"' then [chr '\\', chr '"']
  else if c = chr '\\' then [chr '\\', chr '\\']
  else if c.toNat < 0x20 then "\\u00".text ++ hexByte c.toNat
  else [c]

/-- A quoted text. -/
def writeText (s : Text) : Text :=
  chr '"' :: s.flatMap writeChar ++ [chr '"']

/-- A double.  One that is a whole number gets a point and a zero. -/
def writeNumber : Binary64 → Text
  | .finite negative rank =>
    let digits := magnitudeText rank
    (if negative then [chr '-'] else []) ++ digits ++
      (if digits.all CodePoint.isDigit then [chr '.', chr '0'] else [])
  | .infinite negative => (if negative then [chr '-'] else []) ++ "Infinity".text
  | .nan => "NaN".text

/-! ## Values -/

mutual

/-- The text of a value. -/
def write : Json → Text
  | null => "null".text
  | bool true => "true".text
  | bool false => "false".text
  | integer i => integerText i
  | number x => writeNumber x
  | string s => writeText s
  | array [] => [chr '[', chr ']']
  | array (json :: rest) => chr '[' :: write json ++ writeItems rest
  | object [] => [chr '\x7b', chr '\x7d']
  | object ((name, json) :: rest) =>
    chr '\x7b' :: writeText name ++ chr ':' :: write json ++ writeMembers rest

/-- The items of an array after the first, and its end. -/
def writeItems : List Json → Text
  | [] => [chr ']']
  | json :: rest => chr ',' :: write json ++ writeItems rest

/-- The members of an object after the first, and its end. -/
def writeMembers : List (Text × Json) → Text
  | [] => [chr '\x7d']
  | (name, json) :: rest => chr ',' :: writeText name ++ chr ':' :: write json ++ writeMembers rest

end

end Json

end LogSearch
