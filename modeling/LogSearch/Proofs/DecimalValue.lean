import LogSearch.Number.Numeral
import LogSearch.Number.Shortest
import LogSearch.Proofs.Digits
import LogSearch.Proofs.Nearest
import Mathlib.Data.List.TakeWhile

/-!
# Decimals by value

A decimal stands for a rational number, and the rank that it reads as depends on that number alone.
So digits may be moved across the point, and zeros added or dropped, without changing what is read.

* `Decimal.value`, `Decimal.rank_eq_rankOf` — a decimal reads as the rank that its number rounds to.
* `rank_shortest` — the shortest decimal of a rank reads back as that rank.
* `scientific`, `Decimal.value_eq_scientific` — the number of a decimal by the digits that are
  written of it and the power of ten of the first one.
* `Numeral.toBinary64_eq` — a numeral is rounded correctly, also where its digits are not looked at.
-/

namespace LogSearch

-- Powers of natural numbers are those of natural numbers, whatever algebra is in scope.
attribute [local instance (high)] instPowNat

variable {d e : Decimal} {u : List Nat}

/-! ## The number of a decimal -/

/-- The number that some digits write if the first one stands at a power of ten. -/
def scientific (digits : Text) (order : Int) : ℚ :=
  ofDigitText digits 0 * 10 ^ (order + 1 - digits.length)

namespace Decimal

/-- The number of a decimal. -/
def value (d : Decimal) : ℚ :=
  d.coefficient * 10 ^ d.power

/-- The quotient that a decimal is rounded from, in units. -/
lemma value_mul (d : Decimal) : d.value * 2 ^ 1074 =
    ((d.coefficient * 10 ^ d.power.toNat * 2 ^ (1074 : Nat) : Nat) : ℚ)
      / ((10 ^ (-d.power).toNat : Nat) : ℚ) := by
  have hpower : (10 : ℚ) ^ d.power = 10 ^ d.power.toNat / 10 ^ (-d.power).toNat := by
    rw [← zpow_natCast, ← zpow_natCast, ← zpow_sub₀ (by norm_num)]
    congr 1
    omega
  simp only [value, hpower, Nat.cast_mul, Nat.cast_pow, Nat.cast_ofNat]
  generalize (2 : ℚ) ^ 1074 = two
  ring

lemma denominator_pos (power : Int) : 0 < 10 ^ (-power).toNat :=
  Nat.pow_pos (by omega)

lemma value_nonneg (d : Decimal) : 0 ≤ d.value :=
  mul_nonneg (Nat.cast_nonneg _) (zpow_nonneg (by norm_num) _)

/-- A decimal reads as the rank that its number rounds to. -/
theorem rank_eq_rankOf (d : Decimal) : d.rank = rankOf d.value := by
  rw [rank, nearestRank_eq_rankOf (denominator_pos d.power), ← div_div, ← value_mul,
    mul_div_cancel_right₀ _ (by positivity)]

/-- Decimals of one value read as one rank. -/
theorem rank_congr (h : d.value = e.value) : d.rank = e.rank := by
  rw [rank_eq_rankOf, rank_eq_rankOf, h]

/-- A decimal up to the middle between zero and the least magnitude reads as zero. -/
lemma rank_eq_zero (h : d.value * 2 ^ 1074 * 2 ≤ 1) : d.rank = 0 := by
  have htwo : (0 : ℚ) < 2 ^ 1074 := by positivity
  have hone : magnitude 1 = 1 / 2 ^ 1074 := by simp [magnitude, units]
  rw [rank_eq_rankOf, ← Nat.le_zero, ← not_lt, lt_rankOf_iff d.value_nonneg]
  rintro (hpast | ⟨-, hodd⟩)
  · rw [middle, magnitude_zero, hone, zero_add, div_div, div_lt_iff₀ (by positivity),
      ← mul_assoc] at hpast
    exact absurd h (not_le.2 hpast)
  · omega

/-- A decimal from the middle between the last finite magnitude and `2 ^ 1024` on is too large. -/
lemma finiteRanks_le_rank (h : 2 ^ 1024 - 2 ^ 970 ≤ d.value) : finiteRanks ≤ d.rank := by
  rw [rank_eq_rankOf, finiteRanks_le_rankOf_iff d.value_nonneg]
  exact h

/-! ### Whole numbers and digits -/

lemma value_whole (n : Nat) : value ⟨n, 0⟩ = n := by
  simp [value]

/-- A whole number of ones is the decimal of its rank. -/
lemma rank_whole {rank : Nat} (h : units rank % 2 ^ (1074 : Nat) = 0) :
    Decimal.rank ⟨units rank / 2 ^ (1074 : Nat), 0⟩ = rank := by
  have hunits : units rank / 2 ^ (1074 : Nat) * 2 ^ (1074 : Nat) = units rank :=
    Nat.div_mul_cancel (Nat.dvd_of_mod_eq_zero h)
  have hread := nearestRank_units rank Nat.one_pos
  rw [Nat.mul_one] at hread
  simp only [Decimal.rank, Int.neg_zero, Int.toNat_zero, Nat.pow_zero, Nat.mul_one]
  rw [hunits, hread]

/-- All digits of a coefficient are those that are written of it, and zeros. -/
lemma exists_digits_append (d : Decimal) :
    ∃ k, digitsOf d.coefficient = d.digits ++ List.replicate k (chr '0') := by
  have hsplit := List.takeWhile_append_dropWhile (p := (· == chr '0'))
    (l := (digitsOf d.coefficient).reverse)
  refine ⟨((digitsOf d.coefficient).reverse.takeWhile (· == chr '0')).length, ?_⟩
  have hzeros := List.eq_replicate_of_mem (a := chr '0')
    (l := (digitsOf d.coefficient).reverse.takeWhile (· == chr '0'))
    fun c hc => by simpa using List.mem_takeWhile_imp hc
  rw [← List.reverse_inj, digits, List.reverse_append, List.reverse_reverse, List.reverse_replicate,
    ← hzeros, hsplit]

/-- The zeros at the end of a coefficient do not count. -/
theorem value_eq_scientific (d : Decimal) : d.value = scientific d.digits d.order := by
  obtain ⟨k, hk⟩ := d.exists_digits_append
  have hcoefficient : d.coefficient = 10 ^ k * ofDigitText d.digits 0 := by
    rw [← ofDigitText_replicate_zero, ← ofDigitText_append, ← hk,
      ofDigitText_digitsOf]
  have horder : d.order + 1 - d.digits.length = k + d.power := by
    rw [order, hk, List.length_append, List.length_replicate]
    push_cast
    ring
  rw [value, scientific, horder, zpow_add₀ (by norm_num), zpow_natCast]
  nth_rewrite 1 [hcoefficient]
  push_cast
  ring

lemma isDigit_of_mem_digits (d : Decimal) : ∀ c ∈ d.digits, c.isDigit := by
  obtain ⟨k, hk⟩ := d.exists_digits_append
  intro c hc
  refine isDigit_digitsOf d.coefficient c ?_
  rw [hk]
  exact List.mem_append_left _ hc

/-- Only zero has no digit that counts. -/
lemma digits_ne_nil (h : d.rank ≠ 0) : d.digits ≠ [] := by
  intro hnil
  refine h (rank_eq_zero ?_)
  simp [value_eq_scientific, scientific, hnil]

end Decimal

/-- With all its digits a magnitude is a decimal that reads as its rank. -/
lemma rank_exact (rank : Nat) : Decimal.rank ⟨units rank * 5 ^ (1074 : Nat), -1074⟩ = rank := by
  have hplus : (-1074 : Int).toNat = 0 := rfl
  have hminus : (-(-1074) : Int).toNat = 1074 := rfl
  rw [Decimal.rank, hplus, hminus]
  generalize (1074 : Nat) = k
  rw [Nat.pow_zero, Nat.mul_one, Nat.mul_assoc, ← Nat.mul_pow]
  exact nearestRank_units rank (Nat.pow_pos (by omega))

/-- The shortest decimal of a rank reads back as that rank. -/
theorem rank_shortest (rank : Nat) : (shortest rank).rank = rank := by
  rw [shortest]
  cases hfound : (List.range (unitsOrder (units rank) + 1075).toNat).findSome? fun more : Nat =>
      (decimalNeighbours (units rank) (unitsOrder (units rank) - more)).find? (·.rank == rank) with
  | some d =>
      obtain ⟨more, -, hd⟩ := List.exists_of_findSome?_eq_some hfound
      have hreads := List.find?_some hd
      exact beq_iff_eq.1 hreads
  | none => exact rank_exact rank

/-! ## The number of a numeral -/

lemma foldl_digits (u : List Nat) (start : Nat) :
    u.foldl (fun n d => 10 * n + d) start = start * 10 ^ u.length + ofDigits u := by
  induction u generalizing start with
  | nil => simp [ofDigits]
  | cons d u ih =>
      rw [ofDigits, List.foldl_cons, ih, List.foldl_cons, ih, List.length_cons, Nat.pow_succ]
      ring

lemma ofDigits_cons (d : Nat) (u : List Nat) :
    ofDigits (d :: u) = d * 10 ^ u.length + ofDigits u := by
  rw [ofDigits, List.foldl_cons, foldl_digits, Nat.mul_zero, Nat.zero_add]

lemma ofDigits_lt (h : ∀ d ∈ u, d < 10) : ofDigits u < 10 ^ u.length := by
  induction u with
  | nil => simp [ofDigits]
  | cons d u ih =>
      have hu := ih fun e he => h e (List.mem_cons_of_mem d he)
      have hd : d * 10 ^ u.length ≤ 9 * 10 ^ u.length :=
        Nat.mul_le_mul_right _ (Nat.le_of_lt_succ (h d List.mem_cons_self))
      rw [ofDigits_cons, List.length_cons, Nat.pow_succ]
      omega

/-- The zeros in front do not count. -/
lemma ofDigits_dropWhile (u : List Nat) : ofDigits (u.dropWhile (· == 0)) = ofDigits u := by
  induction u with
  | nil => rfl
  | cons d u ih =>
      by_cases hd : d = 0
      · simp [hd, ih, ofDigits_cons]
      · simp [hd]

/-- A first digit that is not zero tells how large the number is at least. -/
lemma le_ofDigits_dropWhile (hu : u.dropWhile (· == 0) ≠ []) :
    10 ^ ((u.dropWhile (· == 0)).length - 1) ≤ ofDigits (u.dropWhile (· == 0)) := by
  obtain ⟨d, v, hv⟩ := List.exists_cons_of_ne_nil hu
  have hd : d ≠ 0 := by
    simpa [hv] using List.head?_dropWhile_not (· == 0) u
  rw [hv, ofDigits_cons, List.length_cons, Nat.add_sub_cancel]
  exact Nat.le_add_right_of_le (Nat.le_mul_of_pos_left _ (Nat.pos_of_ne_zero hd))

/-- All doubles lie well within the powers of ten between which digits are looked at. -/
lemma two_pow_le_ten_pow {k : Nat} (hk : k ≤ 1200) : (2 : ℚ) ^ k ≤ 10 ^ 400 :=
  calc (2 : ℚ) ^ k ≤ 2 ^ (3 * 400) := pow_le_pow_right₀ (by norm_num) hk
    _ = (2 ^ 3) ^ 400 := pow_mul 2 3 400
    _ ≤ 10 ^ 400 := pow_le_pow_left₀ (by norm_num) (by norm_num) 400

namespace Numeral

/-- The decimal that a numeral writes. -/
def decimal (n : Numeral) : Decimal :=
  ⟨ofDigits (n.whole ++ n.fraction), n.lastPower⟩

lemma decimal_eq (n : Numeral) : n.decimal = ⟨ofDigits n.significant, n.lastPower⟩ := by
  rw [decimal, significant, ofDigits_dropWhile]

/-- Where the digits are not looked at because the number is too small, it reads as zero. -/
lemma rank_eq_zero (n : Numeral) (hn : ∀ d ∈ n.significant, d < 10)
    (hsmall : n.significant = [] ∨ n.significant.length + n.lastPower < -400) :
    Decimal.rank ⟨ofDigits n.significant, n.lastPower⟩ = 0 := by
  refine Decimal.rank_eq_zero ?_
  have htwo : (2 : ℚ) ^ 1074 * 2 ≤ 10 ^ 400 := by
    rw [← pow_succ]
    exact two_pow_le_ten_pow (by omega)
  rw [mul_assoc]
  rcases hsmall with hempty | hsmall
  · simp [Decimal.value, hempty, ofDigits]
  · have hvalue : Decimal.value ⟨ofDigits n.significant, n.lastPower⟩ ≤ 10 ^ (-400 : ℤ) :=
      calc (ofDigits n.significant : ℚ) * 10 ^ n.lastPower
          ≤ 10 ^ n.significant.length * 10 ^ n.lastPower := by
            refine mul_le_mul_of_nonneg_right ?_ (zpow_nonneg (by norm_num) _)
            exact_mod_cast (ofDigits_lt hn).le
        _ = 10 ^ (n.significant.length + n.lastPower) := by
            rw [zpow_add₀ (by norm_num), zpow_natCast]
        _ ≤ 10 ^ (-400 : ℤ) := zpow_le_zpow_right₀ (by norm_num) (by omega)
    calc Decimal.value ⟨ofDigits n.significant, n.lastPower⟩ * (2 ^ 1074 * 2)
        ≤ 10 ^ (-400 : ℤ) * 10 ^ 400 :=
          mul_le_mul hvalue htwo (by positivity) (zpow_nonneg (by norm_num) _)
      _ = 1 := by rw [← zpow_natCast, ← zpow_add₀ (by norm_num)]; rfl

/-- Where the digits are not looked at because the number is too large, it is beyond the finite
doubles. -/
lemma finiteRanks_le_rank (n : Numeral) (hempty : n.significant ≠ [])
    (hlarge : 400 < n.significant.length + n.lastPower) :
    finiteRanks ≤ Decimal.rank ⟨ofDigits n.significant, n.lastPower⟩ := by
  refine Decimal.finiteRanks_le_rank ?_
  have hlength := List.length_pos_of_ne_nil hempty
  calc (2 : ℚ) ^ 1024 - 2 ^ 970 ≤ 2 ^ 1024 := sub_le_self _ (by positivity)
    _ ≤ 10 ^ 400 := two_pow_le_ten_pow (by omega)
    _ = 10 ^ (400 : ℤ) := (zpow_natCast 10 400).symm
    _ ≤ 10 ^ ((n.significant.length - 1 : ℕ) + n.lastPower) :=
        zpow_le_zpow_right₀ (by norm_num) (by omega)
    _ = 10 ^ (n.significant.length - 1) * 10 ^ n.lastPower := by
        rw [zpow_add₀ (by norm_num), zpow_natCast]
    _ ≤ ofDigits n.significant * 10 ^ n.lastPower := by
        refine mul_le_mul_of_nonneg_right ?_ (zpow_nonneg (by norm_num) _)
        exact_mod_cast le_ofDigits_dropWhile hempty

/-- **Correct rounding of numerals.**  The double of a numeral is the one nearest to its number,
also where the number is so small or so large that its digits are not looked at. -/
theorem toBinary64_eq (n : Numeral) (hn : ∀ d ∈ n.whole ++ n.fraction, d < 10) :
    n.toBinary64 = .ofRank n.negative n.decimal.rank := by
  have hdigits : ∀ d ∈ n.significant, d < 10 := fun d hd => hn d (List.dropWhile_subset _ hd)
  rw [toBinary64, decimal_eq]
  split
  · rename_i hsmall
    rw [rank_eq_zero n hdigits (by simpa using hsmall)]
  · rename_i hsmall
    simp only [Bool.or_eq_true, List.isEmpty_iff, decide_eq_true_eq, not_or] at hsmall
    split
    · rename_i hlarge
      have hbeyond := finiteRanks_le_rank n hsmall.1 hlarge
      rw [Binary64.ofRank, dif_neg (not_lt.2 hbeyond)]
    · rfl

end Numeral

end LogSearch
