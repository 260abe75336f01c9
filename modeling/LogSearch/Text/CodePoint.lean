/-!
# Code points

A text may come with an escape for one half of a surrogate pair without the other.  Such a surrogate
is a code point but no character.  It takes part in everything that is done with a text, until the
text is to be encoded.

* `CodePoint` — characters and surrogates, with the character classes of ASCII.
* `Text` — their lists; `digitsOf` and `String.text`, the texts of numbers and of literals.
-/

namespace LogSearch

/-- A code point: a character, or a surrogate, which is counted from `U+D800`. -/
inductive CodePoint where
  | chr (c : Char)
  | surrogate (i : Fin 0x800)
  deriving DecidableEq

export CodePoint (chr)

namespace CodePoint

/-- The number of a code point. -/
def toNat : CodePoint → Nat
  | chr c => c.toNat
  | surrogate i => 0xD800 + i

/-- Code points are ordered by their numbers. -/
instance : LT CodePoint := ⟨fun c d => c.toNat < d.toNat⟩

instance (c d : CodePoint) : Decidable (c < d) :=
  inferInstanceAs (Decidable (c.toNat < d.toNat))

/-- The code point with a number. -/
def ofNat (n : Nat) : CodePoint :=
  if h : 0xD800 ≤ n ∧ n ≤ 0xDFFF then surrogate ⟨n - 0xD800, by omega⟩ else chr (Char.ofNat n)

/-- Whether a code point is no character. -/
def isSurrogate : CodePoint → Bool
  | chr _ => false
  | surrogate _ => true

/-- The digits from 0 to 9. -/
def isDigit : CodePoint → Bool
  | chr c => c.isDigit
  | surrogate _ => false

/-- The letters of ASCII. -/
def isAlpha : CodePoint → Bool
  | chr c => c.isAlpha
  | surrogate _ => false

/-- The letters of ASCII and the digits. -/
def isAlphanum (c : CodePoint) : Bool :=
  c.isAlpha || c.isDigit

/-- The small letter of a capital of ASCII. -/
def toLower : CodePoint → CodePoint
  | chr c => chr c.toLower
  | surrogate i => surrogate i

@[simp] theorem toNat_chr (c : Char) : (chr c).toNat = c.toNat := rfl

@[simp] theorem isDigit_chr (c : Char) : (chr c).isDigit = c.isDigit := rfl

/-- No character has the number of a surrogate. -/
theorem toNat_chr_bounds (c : Char) : (chr c).toNat < 0xD800 ∨ 0xDFFF < (chr c).toNat :=
  c.valid.imp_right And.left

/-- Code points are told apart by their numbers. -/
theorem toNat_inj {c d : CodePoint} : c.toNat = d.toNat ↔ c = d := by
  refine ⟨fun h => ?_, fun h => congrArg toNat h⟩
  cases c with
  | chr c =>
      cases d with
      | chr d => exact congrArg chr (Char.toNat_inj.1 h)
      | surrogate i =>
          have := toNat_chr_bounds c
          rw [h, toNat] at this
          omega
  | surrogate i =>
      cases d with
      | chr d =>
          have := toNat_chr_bounds d
          rw [← h, toNat] at this
          omega
      | surrogate j =>
          simp only [toNat] at h
          exact congrArg surrogate (Fin.ext (by omega))

theorem ofNat_toNat (c : CodePoint) : ofNat c.toNat = c := by
  cases c with
  | chr c =>
      have := toNat_chr_bounds c
      rw [ofNat, dif_neg (by omega), toNat, Char.ofNat_toNat]
  | surrogate i =>
      rw [ofNat, dif_pos (by rw [toNat]; omega)]
      simp [toNat]

theorem isAlpha_iff_toNat {c : CodePoint} :
    c.isAlpha ↔ 0x41 ≤ c.toNat ∧ c.toNat ≤ 0x5A ∨ 0x61 ≤ c.toNat ∧ c.toNat ≤ 0x7A := by
  cases c with
  | chr c =>
      have halpha : c.isAlpha = (c.isUpper || c.isLower) := rfl
      have hupper : c.isUpper = decide (c.val ≥ 'A'.val ∧ c.val ≤ 'Z'.val) := rfl
      have hlower : c.isLower = (decide (c.val ≥ 'a'.val) && decide (c.val ≤ 'z'.val)) := rfl
      have hval : c.val.toNat = c.toNat := rfl
      simp only [isAlpha, halpha, hupper, hlower, toNat, Bool.or_eq_true, Bool.and_eq_true,
        decide_eq_true_eq, ge_iff_le, UInt32.le_iff_toNat_le, hval, Char.reduceVal,
        UInt32.reduceToNat]
  | surrogate i =>
      simp only [isAlpha, toNat, Bool.false_eq_true, false_iff]
      omega

theorem isDigit_iff_toNat {c : CodePoint} : c.isDigit ↔ 0x30 ≤ c.toNat ∧ c.toNat ≤ 0x39 := by
  cases c with
  | chr c => exact Char.isDigit_iff_toNat
  | surrogate i =>
      rw [isDigit, toNat]
      simp
      omega

end CodePoint

/-- A text is the list of its code points. -/
abbrev Text := List CodePoint

/-- Whether a text holds no surrogate, so that it can be encoded. -/
def isWellFormed (s : Text) : Bool :=
  s.all (!·.isSurrogate)

/-- The decimal digits of a number. -/
def digitsOf (n : Nat) : Text :=
  (Nat.toDigits 10 n).map chr

end LogSearch

/-- The text that a literal spells. -/
def String.text (s : String) : LogSearch.Text :=
  s.toList.map .chr

@[simp] theorem String.text_inj {s t : String} : s.text = t.text ↔ s = t := by
  rw [text, text, List.map_inj_right fun _ _ => LogSearch.CodePoint.chr.inj, String.toList_inj]

@[simp] theorem String.text_eq_nil {s : String} : s.text = [] ↔ s = "" := by
  rw [text, List.map_eq_nil_iff, String.toList_eq_nil_iff]
