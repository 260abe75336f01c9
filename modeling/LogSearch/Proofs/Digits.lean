import LogSearch.Text.CodePoint
import Mathlib.Algebra.Ring.Nat

/-!
# Digits as texts

Numbers are written as digits and read from them.  Both ways the laws of `Nat.toDigits` and
`Nat.ofDigitChars` are carried over from characters to code points.

* `ofDigitText` — the number that a row of digits adds to what stands before it.
* `ofDigitText_digitsOf` — the digits of a number are read back.
-/

namespace LogSearch

variable {n k : Nat}

/-! ## The digits of a number -/

lemma digitsOf_ne_nil : digitsOf n ≠ [] := by
  rw [digitsOf, ne_eq, List.map_eq_nil_iff]
  exact Nat.toDigits_ne_nil

lemma length_digitsOf_pos : 0 < (digitsOf n).length :=
  List.length_pos_iff.2 digitsOf_ne_nil

lemma length_digitsOf_le_iff (hk : 0 < k) : (digitsOf n).length ≤ k ↔ n < 10 ^ k := by
  rw [digitsOf, List.length_map]
  exact Nat.length_toDigits_le_iff (by omega) hk

lemma isDigit_digitsOf (n : Nat) : ∀ c ∈ digitsOf n, c.isDigit := by
  intro c hc
  obtain ⟨d, hd, rfl⟩ := List.mem_map.1 hc
  exact Nat.isDigit_of_mem_toDigits (by omega) (by omega) hd

lemma digitsOf_eq_if (n : Nat) : digitsOf n =
    if n < 10 then [chr n.digitChar] else digitsOf (n / 10) ++ [chr (n % 10).digitChar] := by
  rw [digitsOf, Nat.toDigits_eq_if (by omega), apply_ite (List.map chr), List.map_append]
  rfl

lemma digitsOf_mul_ten (hn : 0 < n) : digitsOf (n * 10) = digitsOf n ++ [chr '0'] := by
  rw [digitsOf_eq_if, if_neg (by omega), Nat.mul_mod_left, Nat.mul_div_cancel n (by omega)]
  rfl

/-! ## The number of some digits -/

/-- The number that digits write behind those of `n`. -/
def ofDigitText (digits : Text) (n : Nat) : Nat :=
  digits.foldl (fun n c => 10 * n + (c.toNat - (chr '0').toNat)) n

@[simp] lemma ofDigitText_nil : ofDigitText [] n = n := rfl

lemma ofDigitText_append (s t : Text) (n : Nat) :
    ofDigitText (s ++ t) n = ofDigitText t (ofDigitText s n) :=
  List.foldl_append

lemma ofDigitText_replicate_zero : ofDigitText (List.replicate k (chr '0')) n = 10 ^ k * n := by
  rw [← Nat.ofDigitChars_replicate_zero, ← List.map_replicate, ofDigitText, List.foldl_map]
  rfl

/-- **Digits are read back.** -/
theorem ofDigitText_digitsOf : ofDigitText (digitsOf n) 0 = n := by
  rw [digitsOf, ofDigitText, List.foldl_map]
  exact Nat.ofDigitChars_ten_toDigits

end LogSearch
