import LogSearch.Text.CodePoint

/-!
# Text, blanks and words

Queries, suggestions and names are sequences of code points.  Every length, position and cursor in
this library counts code points, so a text is simply the list of them.

The module holds what needs no more than the notion of a blank:

* `isBlank`, the characters that separate words;
* `words`, the maximal runs of characters that are not blank, and `unwords`, which sets single
  spaces between them;
* `trim` and `strip`, which drop characters from both ends;
* `contains`, the test for a contiguous part.
-/

namespace LogSearch

/-! ## Blanks -/

/-- Code points above ASCII that separate words. -/
def wideBlanks : List Nat :=
  [0x85, 0xA0, 0x1680, 0x2000, 0x2001, 0x2002, 0x2003, 0x2004, 0x2005, 0x2006, 0x2007, 0x2008,
    0x2009, 0x200A, 0x2028, 0x2029, 0x202F, 0x205F, 0x3000]

/-- A blank is a space, a tab, a line or page break, an information separator or one of
`wideBlanks`.  Zero-width characters are not blank. -/
def isBlank (c : CodePoint) : Bool :=
  let n := c.toNat
  if n < 0x80 then (0x09 ≤ n && n ≤ 0x0D) || (0x1C ≤ n && n ≤ 0x20) else wideBlanks.contains n

/-- Whether a text is empty or starts with a blank. -/
def startsBlank : Text → Bool
  | [] => true
  | c :: _ => isBlank c

/-- Whether the last character of a text is a blank; the empty text has none. -/
def endsBlank (s : Text) : Bool :=
  s.getLast?.any isBlank

/-! ## Words -/

/-- The maximal runs of characters that are not blank, in order. -/
def words : Text → List Text
  | [] => []
  | c :: cs =>
    if isBlank c then words cs
    else if startsBlank cs then [c] :: words cs
    else match words cs with
      | w :: ws => (c :: w) :: ws
      | [] => [[c]]

/-- Sets single spaces between words. -/
def unwords (ws : List Text) : Text :=
  List.intercalate [chr ' '] ws

/-- The last maximal run of characters that are not blank, empty if the text ends in a blank. -/
def lastToken (s : Text) : Text :=
  (s.reverse.takeWhile (!isBlank ·)).reverse

/-! ## Ends and parts -/

/-- Drops the characters of a kind from both ends. -/
def trim (drop : CodePoint → Bool) (s : Text) : Text :=
  ((s.dropWhile drop).reverse.dropWhile drop).reverse

/-- Drops the blanks from both ends. -/
def strip (s : Text) : Text :=
  trim isBlank s

/-- Whether `part` occurs in the text as a contiguous run. -/
def contains (part : Text) : Text → Bool
  | [] => part.isEmpty
  | c :: cs => part.isPrefixOf (c :: cs) || contains part cs

end LogSearch
