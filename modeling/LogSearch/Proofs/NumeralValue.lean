import LogSearch.Proofs.Coercion
import LogSearch.Proofs.DecimalValue

/-!
# The number of a numeral

A numeral denotes a rational number, whatever its digits and its exponent are, and it is read as the
double nearest to that number if there is a finite one.

* `Numeral.value` — the number.
* `Numeral.toBinary64_of_read?` — the double depends on the sign and the number alone.
* `Numeral.readNumber?_of_read?` — what is read: the nearest double, or nothing from the middle
  between the last finite magnitude and `2 ^ 1024` on.
-/

namespace LogSearch

variable {s : Text} {n : Numeral} {c : CodePoint} {d : Nat} {q : ℚ} {negative : Bool}

/-! ## Digits -/

lemma lt_ten_of_digit? (h : digit? c = some d) : d < 10 := by
  obtain ⟨z, hz, rfl⟩ := Option.map_eq_some_iff.1 h
  have hrange := List.find?_some hz
  simp only [Bool.and_eq_true, decide_eq_true_eq] at hrange
  omega

lemma lt_ten_of_mem_leadingDigits : ∀ d ∈ Numeral.leadingDigits s, d < 10 := fun d hd => by
  obtain ⟨c, -, hc⟩ := List.mem_filterMap.1 hd
  exact lt_ten_of_digit? hc

namespace Numeral

lemma lt_ten_of_read? (h : read? s = some n) : ∀ d ∈ n.whole ++ n.fraction, d < 10 := by
  simp only [read?] at h
  split at h
  all_goals
    split at h
    · simp at h
    · obtain ⟨e, -, rfl⟩ := Option.map_eq_some_iff.1 h
      first
      | exact List.forall_mem_append.2 ⟨lt_ten_of_mem_leadingDigits, lt_ten_of_mem_leadingDigits⟩
      | exact List.forall_mem_append.2 ⟨lt_ten_of_mem_leadingDigits, by simp⟩

/-! ## The number -/

/-- The number that a numeral denotes. -/
def value (n : Numeral) : ℚ :=
  if n.negative then -n.decimal.value else n.decimal.value

lemma abs_value (n : Numeral) : |n.value| = n.decimal.value := by
  have hnonneg := n.decimal.value_nonneg
  rw [value]
  split
  · rw [abs_neg, abs_of_nonneg hnonneg]
  · rw [abs_of_nonneg hnonneg]

/-- **Numerals by number.**  The double of a numeral has its sign and the rank that its number
rounds to. -/
theorem toBinary64_of_read? (h : read? s = some n) :
    n.toBinary64 = .ofRank n.negative (rankOf |n.value|) := by
  rw [toBinary64_eq n (lt_ten_of_read? h), Decimal.rank_eq_rankOf, abs_value]

/-- A number is on the side of its sign. -/
lemma sign_value (n : Numeral) : if n.negative then n.value ≤ 0 else 0 ≤ n.value := by
  have hnonneg := n.decimal.value_nonneg
  rw [value]
  split
  · exact neg_nonpos.2 hnonneg
  · exact hnonneg

end Numeral

/-- A number rounds to the double nearest to it, also if zero is given a sign. -/
lemma isNearest_ofRank (hsign : if negative then q ≤ 0 else 0 ≤ q)
    (hq : |q| < 2 ^ 1024 - 2 ^ 970) : (Binary64.ofRank negative (rankOf |q|)).IsNearest q := by
  obtain ⟨rank, hrank, hnearest⟩ := Binary64.exists_nearest_eq hq
  rw [Binary64.isNearest_iff hq, hnearest, ← hrank, Binary64.ofRank, dif_pos rank.isLt,
    Binary64.toRat?_finite_inj]
  refine ⟨rfl, ?_⟩
  by_cases hzero : q = 0
  · right
    rw [hrank, hzero, abs_zero, ← magnitude_zero, rankOf_magnitude]
  · left
    cases negative with
    | true => exact (decide_eq_true (lt_of_le_of_ne hsign hzero)).symm
    | false => exact (decide_eq_false (not_lt.2 hsign)).symm

namespace Numeral

/-- **Reading a numeral.**  A numeral is read as the double nearest to its number, and not as a
number at all if that is too large for a finite double. -/
theorem readNumber?_of_read? (h : read? s = some n) :
    (|n.value| < 2 ^ 1024 - 2 ^ 970 → ∃ x, readNumber? s = some x ∧
      x = .ofRank n.negative (rankOf |n.value|) ∧ x.IsNearest n.value) ∧
    (2 ^ 1024 - 2 ^ 970 ≤ |n.value| → readNumber? s = none) := by
  have hfinite := Binary64.isFinite_ofRank n.negative (rankOf |n.value|)
  have hlimit := rankOf_lt_finiteRanks_iff (abs_nonneg n.value)
  rw [readNumber?, h, Option.map_some, toBinary64_of_read? h]
  constructor
  · intro hlt
    exact ⟨_, Option.filter_eq_some_iff.2 ⟨rfl, hfinite.2 (hlimit.2 hlt)⟩, rfl,
      isNearest_ofRank n.sign_value hlt⟩
  · intro hle
    have hrank := mt hlimit.1 (not_lt.2 hle)
    rw [Option.filter_some, if_neg (mt hfinite.1 hrank)]

end Numeral

end LogSearch
