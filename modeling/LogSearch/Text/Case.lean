import LogSearch.Text.Class
import LogSearch.Text.CaseTable

/-!
# Lower case

`lower` is the form in which texts are compared when case is ignored.  Each capital is replaced by
its small letter, with two exceptions:

* the capital I with a dot above becomes a small i followed by a combining dot, so lower-casing
  may lengthen a text;
* the Greek capital sigma becomes the final small sigma at the end of a word.  It ends a word if
  the nearest character before it that is not case-ignorable is a cased letter, and the nearest
  such character after it is not.
-/

namespace LogSearch

/-- Characters that are skipped when one looks for the neighbours of a sigma. -/
def isCaseIgnorable (c : CodePoint) : Bool :=
  if c.toNat < 0x80 then
    c == chr '\'' || c == chr '.' || c == chr ':' || c == chr '^' || c == chr '\x60'
  else inRanges caseIgnorableRanges c.toNat

/-- Cased letters that are not case-ignorable. -/
def isCased (c : CodePoint) : Bool :=
  if c.toNat < 0x80 then c.isAlpha else inRanges casedRanges c.toNat

/-- Whether the run holds the code point. -/
def CaseRun.holds (r : CaseRun) (n : Nat) : Bool :=
  r.first ≤ n && n ≤ r.last && (n - r.first) % r.step == 0

/-- The small letter of a character, for those that have a single one and do not depend on their
neighbours. -/
def lowerChar (c : CodePoint) : CodePoint :=
  if c.toNat < 0x80 then c.toLower
  else match lowerRuns.find? (·.holds c.toNat) with
    | some r => .ofNat (c.toNat + r.shift).toNat
    | none => c

/-- Whether a sigma with `before` on its left, nearest character first, and `after` on its right
ends a word. -/
def endsWord (before after : Text) : Bool :=
  (before.dropWhile isCaseIgnorable).head?.any isCased
    && !(after.dropWhile isCaseIgnorable).head?.any isCased

/-- The lower-case form of one character between its neighbours. -/
def lowerBetween (before : Text) (c : CodePoint) (after : Text) : Text :=
  if c.toNat = 0x130 then [chr 'i', chr '\u0307']
  else if c.toNat = 0x3A3 then [if endsWord before after then chr '\u03C2' else chr '\u03C3']
  else [lowerChar c]

/-- Lower-cases a text whose characters before it are `before`, nearest first. -/
def lowerAfter (before : Text) : Text → Text
  | [] => []
  | c :: cs => lowerBetween before c cs ++ lowerAfter (c :: before) cs

/-- The lower-case form of a text. -/
def lower (s : Text) : Text :=
  lowerAfter [] s

end LogSearch
