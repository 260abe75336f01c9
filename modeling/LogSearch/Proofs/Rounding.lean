import LogSearch.Number.Binary64
import Mathlib.Order.Basic
import Mathlib.Tactic.Lemma
import Mathlib.Tactic.Ring

/-!
# Rounding to the nearest rank

`nearestRank` computes the rank of a quotient from the binary length of its whole part.  Everything
that is used of it follows from one equivalence, which does not mention binades: the rank of a
quotient is above `k` exactly when the quotient is past the middle between the magnitudes at `k`
and at `k + 1`, or in the middle and `k + 1` is the even one of the two.

* `units_succ` — the magnitudes grow, by steps that double with each binade.
* `PastMiddle`, `lt_nearestRank_iff` — the equivalence.
* `nearestRank_units` — so rounding keeps every magnitude.
* `finiteRanks_le_nearestRank_iff` — which quotients are too large for a finite number.
-/

namespace LogSearch

-- Powers are those of natural numbers, whatever algebra is in scope.
attribute [local instance (high)] instPowNat

variable {num den k r s : Nat}

/-! ## Rounding to a whole number -/

/-- Rounding goes above `k` past the middle between `k` and `k + 1`, and in the middle if `k + 1` is
even. -/
lemma lt_roundHalfEven_iff (hden : 0 < den) : k < roundHalfEven num den ↔
    (2 * k + 1) * den < 2 * num ∨ (2 * k + 1) * den = 2 * num ∧ k % 2 = 1 := by
  have hnum : den * (num / den) + num % den = num := Nat.div_add_mod num den
  have hrest : num % den < den := Nat.mod_lt num hden
  simp only [roundHalfEven, Bool.or_eq_true, Bool.and_eq_true, decide_eq_true_eq, beq_iff_eq]
  generalize num / den = whole at *
  generalize num % den = rest at *
  subst hnum
  have hexpand : (2 * k + 1) * den = 2 * (den * k) + den := by ring
  rw [hexpand]
  rcases Nat.lt_trichotomy k whole with hk | rfl | hk
  · have hle : den * (k + 1) ≤ den * whole := Nat.mul_le_mul_left den hk
    rw [Nat.mul_add_one] at hle
    split <;> omega
  · split <;> omega
  · have hle : den * (whole + 1) ≤ den * k := Nat.mul_le_mul_left den hk
    rw [Nat.mul_add_one] at hle
    split <;> omega

lemma le_of_lt_roundHalfEven (hden : 0 < den) (h : k < roundHalfEven num den) :
    (2 * k + 1) * den ≤ 2 * num := by
  rcases (lt_roundHalfEven_iff hden).1 h with h | ⟨h, -⟩
  · exact h.le
  · exact h.le

/-! ## The magnitudes -/

/-- From one rank to the next the magnitude grows by the spacing of the binade. -/
lemma units_succ (r : Nat) : units (r + 1) = units r + 2 ^ (r / 2 ^ (52 : Nat) - 1) := by
  have hdouble : ∀ e, 1 ≤ e → 2 ^ e = 2 * 2 ^ (e - 1) := fun e he => by
    rw [← Nat.pow_succ', Nat.succ_eq_add_one, Nat.sub_add_cancel he]
  rw [units, units]
  by_cases hlast : (r + 1) % 2 ^ (52 : Nat) = 0
  · -- the next rank starts a binade
    have hquot : (r + 1) / 2 ^ (52 : Nat) = r / 2 ^ (52 : Nat) + 1 := by omega
    have hmod : r % 2 ^ (52 : Nat) = 2 ^ (52 : Nat) - 1 := by omega
    rw [hquot, hlast, hmod, Nat.add_sub_cancel, if_neg (by omega)]
    split
    · have hzero : r / 2 ^ (52 : Nat) = 0 := by omega
      rw [hzero]
      omega
    · rw [hdouble (r / 2 ^ (52 : Nat)) (by omega)]
      omega
  · have hquot : (r + 1) / 2 ^ (52 : Nat) = r / 2 ^ (52 : Nat) := by omega
    have hmod : (r + 1) % 2 ^ (52 : Nat) = r % 2 ^ (52 : Nat) + 1 := by omega
    rw [hquot, hmod]
    by_cases hsmall : r < 2 ^ (52 : Nat)
    · have hzero : r / 2 ^ (52 : Nat) = 0 := by omega
      rw [if_pos (by omega), if_pos hsmall, hzero]
    · rw [if_neg (by omega), if_neg hsmall]
      ring

lemma units_lt_succ (r : Nat) : units r < units (r + 1) := by
  rw [units_succ]
  exact Nat.lt_add_of_pos_right (Nat.two_pow_pos _)

lemma units_strictMono : StrictMono units :=
  strictMono_nat_of_lt_succ units_lt_succ

/-- The magnitudes of one binade, and the first one of the next, are multiples of its spacing. -/
lemma units_add (h : s = 0 ∨ 2 ^ (52 : Nat) ≤ k) (hk : k ≤ 2 ^ (53 : Nat)) :
    units (s * 2 ^ (52 : Nat) + k) = k * 2 ^ s := by
  rw [units]
  rcases Nat.eq_or_lt_of_le hk with rfl | hk
  · have hquot : (s * 2 ^ (52 : Nat) + 2 ^ (53 : Nat)) / 2 ^ (52 : Nat) - 1 = s + 1 := by omega
    have hmod : (s * 2 ^ (52 : Nat) + 2 ^ (53 : Nat)) % 2 ^ (52 : Nat) = 0 := by omega
    rw [if_neg (by omega), hquot, hmod, Nat.pow_succ]
    omega
  · by_cases hsmall : k < 2 ^ (52 : Nat)
    · obtain rfl : s = 0 := by omega
      rw [if_pos (by omega)]
      omega
    · have hquot : (s * 2 ^ (52 : Nat) + k) / 2 ^ (52 : Nat) - 1 = s := by omega
      have hmod : (s * 2 ^ (52 : Nat) + k) % 2 ^ (52 : Nat) = k - 2 ^ (52 : Nat) := by omega
      rw [if_neg (by omega), hquot, hmod, Nat.add_sub_cancel' (by omega)]

/-- The spacing of a binade is small against its magnitudes. -/
lemma spacing_le_units (hr : 2 ^ (52 : Nat) ≤ r) :
    2 ^ (52 : Nat) * 2 ^ (r / 2 ^ (52 : Nat) - 1) ≤ units r := by
  rw [units, if_neg (not_lt.2 hr)]
  exact Nat.mul_le_mul_right _ (Nat.le_add_right _ _)

/-! ## Rounding to a rank -/

/-- A quotient is past the middle between the magnitudes at `k` and at `k + 1`, or it is in the
middle and `k + 1` is even. -/
def PastMiddle (k num den : Nat) : Prop :=
  (units k + units (k + 1)) * den < 2 * num ∨
    (units k + units (k + 1)) * den = 2 * num ∧ k % 2 = 1

/-- The spacing is chosen so that the quotient has 53 binary digits above it, or fewer if it is the
least one. -/
lemma spacing_bounds (num : Nat) (hden : 0 < den) :
    let s := (num / den).log2 - 52
    (s = 0 ∨ 2 ^ (52 : Nat) * (den * 2 ^ s) ≤ num) ∧ num < 2 ^ (53 : Nat) * (den * 2 ^ s) := by
  intro s
  have hmove : ∀ e : Nat, 2 ^ e * (den * 2 ^ s) = 2 ^ (e + s) * den := fun e => by
    rw [Nat.pow_add]
    ring
  rw [hmove, hmove, ← Nat.le_div_iff_mul_le hden, ← Nat.div_lt_iff_lt_mul hden]
  constructor
  · by_cases hzero : num / den = 0
    · left
      simp [s, hzero]
    · by_cases hshort : (num / den).log2 ≤ 52
      · exact Or.inl (by omega)
      · refine Or.inr (le_trans (Nat.pow_le_pow_right (by omega) ?_) (Nat.log2_self_le hzero))
        omega
  · exact lt_of_lt_of_le Nat.lt_log2_self (Nat.pow_le_pow_right (by omega) (by omega))

/-- **Correct rounding.**  The rank of a quotient is above `k` if and only if the quotient is past
the middle between the magnitudes at `k` and at `k + 1`, a tie going to the even one. -/
theorem lt_nearestRank_iff (hden : 0 < den) : k < nearestRank num den ↔ PastMiddle k num den := by
  obtain ⟨hlow, hhigh⟩ := spacing_bounds num hden
  rw [nearestRank, PastMiddle]
  generalize (num / den).log2 - 52 = s at *
  have hD : 0 < den * 2 ^ s := Nat.mul_pos hden (Nat.two_pow_pos s)
  have hunits : ∀ j, s = 0 ∨ 2 ^ (52 : Nat) ≤ j → j ≤ 2 ^ (53 : Nat) →
      units (s * 2 ^ (52 : Nat) + j) * den = j * (den * 2 ^ s) := fun j hj hle => by
    rw [units_add hj hle]
    ring
  rw [Nat.add_mul]
  by_cases hbelow : s ≠ 0 ∧ k < s * 2 ^ (52 : Nat) + 2 ^ (52 : Nat)
  · -- the rank lies in a lower binade than the quotient
    have hround : 2 ^ (52 : Nat) - 1 < roundHalfEven num (den * 2 ^ s) :=
      (lt_roundHalfEven_iff hD).2 (by omega)
    have hk : units k * den < units (k + 1) * den :=
      Nat.mul_lt_mul_of_pos_right (units_lt_succ k) hden
    have hsucc : units (k + 1) * den ≤ 2 ^ (52 : Nat) * (den * 2 ^ s) := by
      rw [← hunits _ (Or.inr le_rfl) (by omega)]
      exact Nat.mul_le_mul_right den (units_strictMono.monotone (Nat.succ_le_of_lt hbelow.2))
    exact iff_of_true (by omega) (Or.inl (by omega))
  · by_cases habove : s * 2 ^ (52 : Nat) + 2 ^ (53 : Nat) ≤ k
    · -- the rank lies in a higher binade than the quotient
      have hround : ¬ 2 ^ (53 : Nat) < roundHalfEven num (den * 2 ^ s) := fun hlt => by
        have hle := le_of_lt_roundHalfEven hD hlt
        omega
      have hk : units k * den < units (k + 1) * den :=
        Nat.mul_lt_mul_of_pos_right (units_lt_succ k) hden
      have hle : 2 ^ (53 : Nat) * (den * 2 ^ s) ≤ units k * den := by
        rw [← hunits _ (Or.inr (by omega)) le_rfl]
        exact Nat.mul_le_mul_right den (units_strictMono.monotone habove)
      exact iff_of_false (by omega) (by omega)
    · -- both ranks lie in the binade of the quotient, or start the next one
      obtain ⟨j, rfl⟩ : ∃ j, k = s * 2 ^ (52 : Nat) + j := ⟨k - s * 2 ^ (52 : Nat), by omega⟩
      have hj : s = 0 ∨ 2 ^ (52 : Nat) ≤ j := by omega
      rw [hunits j hj (by omega), Nat.add_assoc, hunits (j + 1) (by omega) (by omega),
        Nat.add_lt_add_iff_left, lt_roundHalfEven_iff hD, ← Nat.add_mul]
      have hodd : (s * 2 ^ (52 : Nat) + j) % 2 = j % 2 := by omega
      rw [hodd, show j + (j + 1) = 2 * j + 1 by omega]

/-- A magnitude rounds to its own rank. -/
theorem nearestRank_units (r : Nat) (hden : 0 < den) : nearestRank (units r * den) den = r := by
  refine eq_of_forall_lt_iff fun k => ?_
  rw [lt_nearestRank_iff hden, PastMiddle, ← Nat.mul_assoc, Nat.mul_lt_mul_right hden,
    Nat.mul_left_inj hden.ne']
  have hk : units k < units (k + 1) := units_lt_succ k
  constructor
  · intro hpast
    by_contra hle
    have hr : units r ≤ units k := units_strictMono.monotone (Nat.le_of_not_lt hle)
    omega
  · intro hlt
    have hr : units (k + 1) ≤ units r := units_strictMono.monotone (Nat.succ_le_of_lt hlt)
    omega

/-- A quotient rounds beyond a binade from the middle between its last magnitude and the first one
of the next binade on: the former is odd, so that the tie goes up. -/
lemma nextBinade_le_nearestRank_iff (hden : 0 < den) (s : Nat) :
    s * 2 ^ (52 : Nat) + 2 ^ (53 : Nat) ≤ nearestRank num den ↔
      (2 ^ (54 : Nat) - 1) * 2 ^ s * den ≤ 2 * num := by
  have hsum : units (s * 2 ^ (52 : Nat) + (2 ^ (53 : Nat) - 1))
      + units (s * 2 ^ (52 : Nat) + (2 ^ (53 : Nat) - 1) + 1) = (2 ^ (54 : Nat) - 1) * 2 ^ s := by
    rw [Nat.add_assoc, units_add (by omega) (by omega), units_add (by omega) (by omega),
      ← Nat.add_mul]
  have hodd : (s * 2 ^ (52 : Nat) + (2 ^ (53 : Nat) - 1)) % 2 = 1 := by omega
  rw [← hsum, show s * 2 ^ (52 : Nat) + 2 ^ (53 : Nat)
    = s * 2 ^ (52 : Nat) + (2 ^ (53 : Nat) - 1) + 1 by omega, Nat.succ_le_iff,
    lt_nearestRank_iff hden, PastMiddle, hodd, Nat.le_iff_lt_or_eq]
  simp

/-- From here on a quotient is too large for a finite number: twice the middle between the last
finite magnitude and `2 ^ 1024`, in units. -/
def overflowLimit : Nat :=
  (2 ^ (54 : Nat) - 1) * 2 ^ (2045 : Nat)

/-- **Overflow.**  A quotient is too large for a finite number from the middle between the last
finite magnitude and `2 ^ 1024` on. -/
theorem finiteRanks_le_nearestRank_iff (hden : 0 < den) :
    finiteRanks ≤ nearestRank num den ↔ overflowLimit * den ≤ 2 * num := by
  rw [overflowLimit, ← nextBinade_le_nearestRank_iff hden 2045]

end LogSearch
