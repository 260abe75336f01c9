import LogSearch.Json.Token
import LogSearch.Service.Checked

/-!
# Texts, integers and flags

Settings and requests are lenient about how an integer or a flag is given.

* `plainInteger?` — what a text leaves when blanks around, a plus sign, zeros in front, a point with
  nothing but zeros after it, and underscores between digits are dropped.
* `checkIntegerText` — the integer of a text whose plain form is digits, with or without a sign.
* `flagOfText?` — `true` and `false`, `yes` and `no`, `on` and `off`, `1` and `0`, or an initial, in
  any case.
* `checkText`, `checkInteger`, `checkFlag` — the same from JSON, where an integer may also be a flag
  or a double without fraction, and a flag one of the numbers 0 and 1.
-/

namespace LogSearch

-- Powers are those of natural numbers, whatever algebra is in scope.
attribute [local instance (high)] instPowNat

/-! ## Integers from texts

A text is brought into a plain form step by step, and then read. -/

/-- Blanks that may surround an integer; information separators may not. -/
def isPadding (c : CodePoint) : Bool :=
  isBlank c && !(0x1C ≤ c.toNat && c.toNat ≤ 0x1F)

/-- Drops a plus sign.  No minus sign may follow it. -/
def dropPlus? : Text → Option Text
  | chr '+' :: chr '-' :: _ => none
  | chr '+' :: s => some s
  | s => some s

/-- Drops the zeros and underscores that follow a zero.  A minus sign may come after them.  Before a
point, and at the end of the text, `last`, which was dropped before, is kept. -/
def dropFiller? (last : CodePoint) : Text → Option Text
  | [] => some [last]
  | c :: s =>
    if c = chr '0' ∨ c = chr '_' then dropFiller? c s
    else if c = chr '-' ∨ c.isDigit then some (c :: s)
    else if c = chr '.' then some (last :: c :: s)
    else none

/-- Drops the zeros in front, with underscores after them.  Zeros after a minus sign stay; a text
that starts with neither a digit nor a minus sign is no integer. -/
def dropZeros? : Text → Option Text
  | [] => none
  | c :: s =>
    if c = chr '0' then dropFiller? c s
    else if c = chr '-' ∨ c.isDigit then some (c :: s)
    else none

/-- Drops a point with the zeros after it, if there are some and nothing else. -/
def dropFraction (s : Text) : Text :=
  match s.dropWhile (· ≠ chr '.') with
  | chr '.' :: zeros =>
    if !zeros.isEmpty && zeros.all (· == chr '0') then s.takeWhile (· ≠ chr '.') else s
  | _ => s

/-- Whether every underscore stands between two other characters. -/
def isGrouped (s : Text) : Bool :=
  s.head? ≠ some (chr '_') && s.getLast? ≠ some (chr '_') && !contains [chr '_', chr '_'] s

/-- Drops the underscores of a text if every one stands between two other characters. -/
def dropUnderscores (s : Text) : Text :=
  if isGrouped s then s.filter (· ≠ chr '_') else s

/-- The text without what an integer may have beside its sign and digits. -/
def plainInteger? (s : Text) : Option Text := do
  let s ← dropPlus? (trim isPadding s)
  let s ← dropZeros? s
  some (dropUnderscores (dropFraction s))

/-! ## Flags from texts -/

/-- The spellings of a raised flag, in small letters. -/
def raisedWords : List Text :=
  ["1".text, "true".text, "t".text, "yes".text, "y".text, "on".text]

/-- The spellings of a lowered flag, in small letters. -/
def loweredWords : List Text :=
  ["0".text, "false".text, "f".text, "no".text, "n".text, "off".text]

/-- The flag that a text spells. -/
def flagOfText? (s : Text) : Option Bool :=
  let word := s.map CodePoint.toLower
  if raisedWords.contains word then some true
  else if loweredWords.contains word then some false
  else none

/-! ## Checks -/

/-- A flag spelled by a text. -/
def checkFlagText (s : Text) : Checked Bool :=
  match flagOfText? s with
  | some b => .valid b
  | none => .refuse .badFlag

/-- An integer in plain form: digits, with or without a sign. -/
def checkPlainInteger (s : Text) : Checked Int :=
  let (negative, digits) := Numeral.splitSign s
  if digits.isEmpty || !digits.all CodePoint.isDigit then .refuse .badInteger
  else if Json.maxDigits < digits.length then .refuse .oversized
  else
    let n : Int := ofDigits (Numeral.leadingDigits digits)
    .valid (if negative then -n else n)

/-- An integer spelled by a text. -/
def checkIntegerText (s : Text) : Checked Int :=
  match plainInteger? s with
  | some s => checkPlainInteger s
  | none => .refuse .badInteger

/-- A text, and nothing that could be written as one. -/
def checkText : Json → Checked Text
  | .string s => .valid s
  | _ => .refuse .notText

/-- Whether an integer, given as a double, is one of 64 bits.  Larger doubles are not exact. -/
def isMachineSized (i : Int) : Bool :=
  i.natAbs < 2 ^ (63 : Nat)

/-- A double that is an integer of machine size. -/
def checkWhole (x : Binary64) : Checked Int :=
  if !x.isFinite then .refuse .notFinite
  else match x.toInt? with
    | some i => if isMachineSized i then .valid i else .refuse .oversized
    | none => .refuse .fractional

/-- An integer, or what stands for one. -/
def checkInteger : Json → Checked Int
  | .integer i => .valid i
  | .bool b => .valid (if b then 1 else 0)
  | .number x => checkWhole x
  | .string s => checkIntegerText s
  | _ => .refuse .notInteger

/-- The flag that a number stands for. -/
def checkFlagInteger (i : Int) : Checked Bool :=
  if i = 0 then .valid false else if i = 1 then .valid true else .refuse .badFlag

/-- A flag, or what stands for one. -/
def checkFlag : Json → Checked Bool
  | .bool b => .valid b
  | .integer i => checkFlagInteger i
  | .number x =>
    match x.toInt?.filter isMachineSized with
    | some i => checkFlagInteger i
    | none => .refuse .notFlag
  | .string s => checkFlagText s
  | _ => .refuse .notFlag

/-- A list of texts; each item that is none is a fault of its own. -/
def checkTexts : Json → Checked (List Text)
  | .array items => Checked.items checkText 0 items
  | _ => .refuse .notList

/-- Nothing, or a value that passes a check. -/
def checkOrNull {α : Type} (check : Json → Checked α) : Json → Checked (Option α)
  | .null => .valid none
  | json => some <$> check json

end LogSearch
