import LogSearch.Json.Value
import LogSearch.Number.Numeral

/-!
# JSON tokens

A JSON text is cut into tokens before its structure is looked at.  Each token comes with its place,
the number of characters before it, so that a fault can be reported where it lies.

* `readEscape` — what follows a backslash.
* `readText` — the rest of a quoted text after its opening quote.
* `readNumber?` — the longest number at the start of a text.
* `tokens` — all tokens of a text.  A fault inside a quoted text, and a number with too many digits,
  are tokens of their own, since they matter only where a value is expected.
-/

namespace LogSearch

namespace Json

/-- The most digits that an integer may have. -/
def maxDigits : Nat := 4300

/-- The parts that a JSON text is made of. -/
inductive Token where
  /-- Punctuation, or a character that starts no other token. -/
  | mark (c : CodePoint)
  /-- A literal or a number. -/
  | scalar (json : Json)
  /-- A quoted text. -/
  | text (s : Text)
  /-- A quoted text that cannot be read, and the place of the fault. -/
  | badText (fault : Nat)
  /-- An integer of more than `maxDigits` digits. -/
  | oversized

/-! ## Quoted texts -/

/-- What a backslash introduces. -/
inductive Escape where
  /-- A code point, spelled with so many characters after the backslash. -/
  | char (c : CodePoint) (length : Nat)
  /-- No known escape; the fault lies so many characters after the backslash. -/
  | unknown (offset : Nat)
  /-- Nothing, the text ends. -/
  | ends

/-- The characters that have an escape of one letter. -/
def shortEscapes : List (CodePoint × CodePoint) :=
  [(chr '"', chr '"'), (chr '\\', chr '\\'), (chr '/', chr '/'), (chr 'b', chr '\x08'),
    (chr 'f', chr '\x0c'), (chr 'n', chr '\n'), (chr 'r', chr '\r'), (chr 't', chr '\t')]

/-- The value of a hexadecimal digit. -/
def hexDigit? (c : CodePoint) : Option Nat :=
  if c.isDigit then some (c.toNat - 0x30)
  else if 0x61 ≤ c.toNat ∧ c.toNat ≤ 0x66 then some (c.toNat - 0x57)
  else if 0x41 ≤ c.toNat ∧ c.toNat ≤ 0x46 then some (c.toNat - 0x37)
  else none

/-- The code unit that four hexadecimal digits spell, if the text goes on after them. -/
def readUnit? : Text → Option Nat
  | a :: b :: c :: d :: _ :: _ => do
    let a ← hexDigit? a
    let b ← hexDigit? b
    let c ← hexDigit? c
    let d ← hexDigit? d
    some (((a * 16 + b) * 16 + c) * 16 + d)
  | _ => none

/-- The second half of a surrogate pair: the text after the first half starts with an escaped code
unit, after which the text goes on.  `none` means that there is no such escape. -/
def readLowUnit? : Text → Option (Option Nat)
  | chr '\\' :: chr 'u' :: s => if (s.drop 4).isEmpty then none else some (readUnit? s)
  | _ => none

/-- Reads what follows a backslash.  The code unit of a surrogate without its other half stands for
itself. -/
def readEscape : Text → Escape
  | [] => .ends
  | chr 'u' :: s =>
    match readUnit? s with
    | none => .unknown 1
    | some unit =>
      if 0xD800 ≤ unit ∧ unit ≤ 0xDBFF then
        match readLowUnit? (s.drop 4) with
        | none => .char (.ofNat unit) 5
        | some none => .unknown 7
        | some (some low) =>
          if 0xDC00 ≤ low ∧ low ≤ 0xDFFF then
            .char (.ofNat (0x10000 + (unit - 0xD800) * 0x400 + (low - 0xDC00))) 11
          else .char (.ofNat unit) 5
      else .char (.ofNat unit) 5
  | c :: _ =>
    match shortEscapes.lookup c with
    | some d => .char d 1
    | none => .unknown 0

/-- The rest of a quoted text. -/
inductive Quoted where
  /-- The text up to the closing quote, and how many characters it takes with the quote. -/
  | closed (s : Text) (length : Nat)
  /-- A fault so many characters after the opening quote. -/
  | broken (offset : Nat)
  /-- No closing quote. -/
  | unterminated

/-- Puts a character in front that takes so many characters in the source. -/
def Quoted.cons (c : CodePoint) (width : Nat) : Quoted → Quoted
  | closed s length => closed (c :: s) (length + width)
  | broken offset => broken (offset + width)
  | unterminated => unterminated

/-- Reads a quoted text from after its opening quote.  Control characters must be escaped. -/
def readText : Text → Quoted
  | [] => .unterminated
  | c :: cs =>
    if c = chr '"' then .closed [] 1
    else if c = chr '\\' then
      match readEscape cs with
      | .char d length => (readText (cs.drop length)).cons d (length + 1)
      | .unknown offset => .broken offset
      | .ends => .unterminated
    else if c.toNat < 0x20 then .broken 0
    else (readText cs).cons c 1
termination_by s => s.length
decreasing_by all_goals simp; try omega

/-! ## Numbers and words -/

/-- The digits after a point, with the point, if there are any. -/
def readFraction : Text → Text
  | chr '.' :: s =>
    let digits := s.takeWhile CodePoint.isDigit
    if digits.isEmpty then [] else chr '.' :: digits
  | _ => []

/-- An exponent with its letter and sign, if there is a whole one. -/
def readExponent : Text → Text
  | [] => []
  | e :: s =>
    let sign := s.take (if s.head? = some (chr '+') ∨ s.head? = some (chr '-') then 1 else 0)
    let digits := (s.drop sign.length).takeWhile CodePoint.isDigit
    if (e = chr 'e' ∨ e = chr 'E') ∧ !digits.isEmpty then e :: sign ++ digits else []

/-- The whole part of a number; a leading zero stands alone. -/
def readWhole : Text → Text
  | chr '0' :: _ => [chr '0']
  | s => s.takeWhile CodePoint.isDigit

/-- The longest number at the start of a text, and its length. -/
def readNumber? (s : Text) : Option (Token × Nat) :=
  let sign := s.take (if s.head? = some (chr '-') then 1 else 0)
  let s := s.drop sign.length
  let whole := readWhole s
  let fraction := readFraction (s.drop whole.length)
  let exponent := readExponent (s.drop (whole.length + fraction.length))
  let length := sign.length + whole.length + fraction.length + exponent.length
  if whole.isEmpty then none
  else if !(fraction.isEmpty && exponent.isEmpty) then
    (Numeral.read? (sign ++ whole ++ fraction ++ exponent)).map fun n =>
      (.scalar (.number n.toBinary64), length)
  else if maxDigits < whole.length then some (.oversized, length)
  else
    let n : Int := ofDigits (Numeral.leadingDigits whole)
    some (.scalar (.integer (if sign.isEmpty then n else -n)), length)

/-- The words that stand for values. -/
def literals : List (Text × Json) :=
  [("null".text, null), ("true".text, bool true), ("false".text, bool false),
    ("NaN".text, number .nan), ("Infinity".text, number (.infinite false)),
    ("-Infinity".text, number (.infinite true))]

/-- The literal at the start of a text, and its length. -/
def readLiteral? (s : Text) : Option (Token × Nat) :=
  (literals.find? fun l => l.1.isPrefixOf s).map fun (word, json) => (.scalar json, word.length)

/-! ## All tokens -/

/-- Blanks between tokens. -/
def isSpace (c : CodePoint) : Bool :=
  c == chr ' ' || c == chr '\t' || c == chr '\n' || c == chr '\r'

/-- The token that starts with `c` at a place, and how many characters of `cs` belong to it. -/
def readToken (place : Nat) (c : CodePoint) (cs : Text) : Token × Nat :=
  if c = chr '"' then
    match readText cs with
    | .closed s length => (.text s, length)
    | .broken offset => (.badText (place + 1 + offset), 0)
    | .unterminated => (.badText place, 0)
  else match (readLiteral? (c :: cs)).or (readNumber? (c :: cs)) with
    | some (token, length) => (token, length - 1)
    | none => (.mark c, 0)

/-- The tokens of a text that starts at a place, each with its own place. -/
def tokens (place : Nat) : Text → List (Nat × Token)
  | [] => []
  | c :: cs =>
    if isSpace c then tokens (place + 1) cs
    else
      let (token, more) := readToken place c cs
      (place, token) :: tokens (place + 1 + more) (cs.drop more)
termination_by s => s.length
decreasing_by all_goals simp; try omega

end Json

end LogSearch
