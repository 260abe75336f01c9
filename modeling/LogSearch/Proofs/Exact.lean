import LogSearch.Proofs.Rounding
import Mathlib.Algebra.Order.Field.Basic
import Mathlib.Algebra.Order.Field.Rat
import Mathlib.Tactic.Linarith
import Mathlib.Tactic.FieldSimp
import Mathlib.Tactic.Positivity

/-!
# Numbers by value

A finite double stands for a rational number, and two doubles are numerically equal if they stand
for the same one.  That is the same as being equal, except that zero has two signs.

* `magnitude` — the number of a rank, and `Binary64.toRat?` — the number of a finite double.
* `Binary64.toRat?_finite_inj` — numerical equality of doubles by sign and rank.
* `Binary64.isFinite_scale_iff` — which multiples of a double are finite.
-/

namespace LogSearch

-- Powers of natural numbers are those of natural numbers, whatever algebra is in scope.
attribute [local instance (high)] instPowNat

/-! ## Magnitudes -/

/-- The number of a rank. -/
def magnitude (rank : Nat) : ℚ :=
  units rank / 2 ^ 1074

/-- A magnitude as a quotient of natural numbers. -/
lemma magnitude_eq (r : Nat) : magnitude r = units r / ((2 ^ (1074 : Nat) : ℕ) : ℚ) := by
  have hcast : ∀ e : ℕ, (2 : ℚ) ^ e = ((2 ^ e : ℕ) : ℚ) := fun e => by
    rw [Nat.cast_pow, Nat.cast_ofNat]
  rw [magnitude, hcast]

lemma magnitude_strictMono : StrictMono magnitude := fun _ _ h =>
  div_lt_div_of_pos_right (Nat.cast_lt.2 (units_strictMono h)) (by positivity)

lemma magnitude_zero : magnitude 0 = 0 := by
  simp [magnitude, units]

lemma magnitude_nonneg (rank : Nat) : 0 ≤ magnitude rank := by
  rw [← magnitude_zero]
  exact magnitude_strictMono.monotone (Nat.zero_le rank)

/-- Only zero is the opposite of a magnitude. -/
lemma neg_magnitude_eq_iff {r s : Nat} : -magnitude r = magnitude s ↔ r = s ∧ r = 0 := by
  constructor
  · intro h
    have hr := magnitude_nonneg r
    have hs := magnitude_nonneg s
    have hzero : magnitude r = magnitude 0 := by
      rw [magnitude_zero]
      linarith
    have heq : magnitude s = magnitude r := by
      rw [magnitude_zero] at hzero
      linarith
    exact ⟨(magnitude_strictMono.injective heq).symm, magnitude_strictMono.injective hzero⟩
  · rintro ⟨rfl, rfl⟩
    rw [magnitude_zero, neg_zero]

namespace Binary64

variable {x : Binary64} {q : ℚ} {negative negative' : Bool} {rank rank' : Fin finiteRanks}

/-- The number that a finite double stands for. -/
def toRat? : Binary64 → Option ℚ
  | finite negative rank => some (if negative then -magnitude rank else magnitude rank)
  | _ => none

lemma exists_toRat? (h : x.isFinite) : ∃ q, x.toRat? = some q := by
  cases x with
  | finite negative rank => exact ⟨_, rfl⟩
  | infinite negative => simp [isFinite] at h
  | nan => simp [isFinite] at h

/-- Doubles that are numerically equal have one rank, and one sign unless they are zero. -/
lemma toRat?_finite_inj : (finite negative rank).toRat? = (finite negative' rank').toRat? ↔
    rank = rank' ∧ (negative = negative' ∨ rank.val = 0) := by
  have hmagnitude : magnitude rank = magnitude rank' ↔ rank = rank' := by
    rw [magnitude_strictMono.injective.eq_iff, Fin.val_inj]
  have hopposite : magnitude rank = -magnitude rank' ↔ rank = rank' ∧ rank.val = 0 := by
    rw [eq_comm, neg_magnitude_eq_iff, Fin.val_inj]
    constructor
    · rintro ⟨rfl, h⟩
      exact ⟨rfl, h⟩
    · rintro ⟨rfl, h⟩
      exact ⟨rfl, h⟩
  cases negative <;> cases negative' <;>
    simp [toRat?, neg_magnitude_eq_iff, hmagnitude, hopposite, Fin.val_inj]

/-! ## Overflow -/

lemma isFinite_ofRank (negative : Bool) (r : Nat) :
    (ofRank negative r).isFinite ↔ r < finiteRanks := by
  rw [ofRank]
  split <;> simp [isFinite, *]

/-- The limit is the middle between the last finite magnitude and `2 ^ 1024`. -/
lemma overflowLimit_eq : (overflowLimit : ℚ) = (2 ^ 1024 - 2 ^ 970) * (2 * 2 ^ 1074) := by
  have hlimit : (overflowLimit : ℚ) = (2 ^ 54 - 1) * 2 ^ 2045 := by
    simp only [overflowLimit, Nat.cast_mul, Nat.cast_pow, Nat.cast_ofNat]
    norm_num
  have hbig : (2 : ℚ) ^ 1024 = 2 ^ 54 * 2 ^ 970 := by rw [← pow_add]
  have hall : (2 : ℚ) ^ 2045 = 2 ^ 970 * (2 * 2 ^ 1074) := by rw [← pow_succ', ← pow_add]
  rw [hlimit, hbig, hall]
  generalize (2 : ℚ) ^ 970 = a
  generalize (2 : ℚ) * 2 ^ 1074 = b
  ring

/-- **Scaling.**  A multiple of a double is finite if and only if it is less than the middle between
the last finite magnitude and `2 ^ 1024`. -/
theorem isFinite_scale_iff (h : x.toRat? = some q) (k : Nat) :
    (x.scale k).isFinite ↔ |q| * k < 2 ^ 1024 - 2 ^ 970 := by
  cases x with
  | infinite negative => simp [toRat?] at h
  | nan => simp [toRat?] at h
  | finite negative rank =>
      have habs : |q| = magnitude rank := by
        obtain rfl := Option.some_inj.1 h
        cases negative <;> simp [magnitude_nonneg]
      have hpos : (0 : ℚ) < 2 * 2 ^ 1074 := by positivity
      have hscale : |q| * k * (2 * 2 ^ 1074) = ((2 * (units rank * k) : ℕ) : ℚ) := by
        rw [habs, magnitude]
        push_cast
        field_simp
      rw [scale, isFinite_ofRank, ← not_le, finiteRanks_le_nearestRank_iff Nat.one_pos, not_le,
        mul_one, ← mul_lt_mul_iff_left₀ hpos, ← overflowLimit_eq, hscale, Nat.cast_lt]

lemma exists_infinite_of_scale (hx : x.isFinite) {k : Nat} (hk : ¬ (x.scale k).isFinite) :
    ∃ negative, x.scale k = infinite negative := by
  cases x with
  | infinite negative => simp [isFinite] at hx
  | nan => simp [isFinite] at hx
  | finite negative rank =>
      rw [scale, isFinite_ofRank] at hk
      exact ⟨negative, by rw [scale, ofRank, dif_neg hk]⟩

end Binary64

end LogSearch
