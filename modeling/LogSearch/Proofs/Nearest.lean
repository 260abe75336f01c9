import LogSearch.Proofs.Exact

/-!
# The double nearest to a number

Rounding a rational number is rounding any quotient that it is.  A number rounds above a rank if and
only if it is past the middle between the magnitudes there, and that makes the result nearest: no
magnitude is nearer, and of two that are equally near the one of the even rank is taken.

* `Past`, `rankOf`, `lt_rankOf_iff` — rounding by middles.
* `rankOf_nearest` — no magnitude is nearer.
* `rankOf_eq_of_between` — what lies between a magnitude and a number that rounds to it rounds to
  it as well.
* `finiteRanks_le_rankOf_iff` — which numbers are too large.
* `exists_magnitude_eq` — the whole numbers that are magnitudes.
* `Binary64.IsNearest`, `Binary64.isNearest_iff` — the double nearest to a number with a sign.
-/

namespace LogSearch

-- Powers of natural numbers are those of natural numbers, whatever algebra is in scope.
attribute [local instance (high)] instPowNat

variable {p q : ℚ} {k m r num den : Nat}

/-! ## Middles -/

/-- The middle between the magnitudes at a rank and at the next one. -/
def middle (k : Nat) : ℚ :=
  (magnitude k + magnitude (k + 1)) / 2

lemma magnitude_lt_middle (k : Nat) : magnitude k < middle k := by
  have hstep := magnitude_strictMono (Nat.lt_succ_self k)
  rw [middle]
  linarith

lemma middle_lt_magnitude (k : Nat) : middle k < magnitude (k + 1) := by
  have hstep := magnitude_strictMono (Nat.lt_succ_self k)
  rw [middle]
  linarith

lemma middle_eq (k : Nat) :
    middle k = (2 * units k + 2 ^ (k / 2 ^ (52 : Nat) - 1)) / (2 * (2 ^ (1074 : Nat) : ℕ)) := by
  rw [middle, magnitude_eq, magnitude_eq, units_succ]
  generalize 2 ^ (1074 : Nat) = two
  push_cast
  ring

/-- The middle in units: half the spacing above the magnitude. -/
lemma middle_le_iff :
    middle k ≤ q ↔
      2 * units k + 2 ^ (k / 2 ^ (52 : Nat) - 1) ≤ 2 * (q * (2 ^ (1074 : Nat) : ℕ)) := by
  have htwo : 0 < 2 ^ (1074 : Nat) := Nat.two_pow_pos 1074
  rw [middle_eq]
  generalize 2 ^ (1074 : Nat) = two at *
  rw [div_le_iff₀ (by positivity), mul_left_comm]

lemma le_middle_iff :
    q ≤ middle k ↔
      2 * (q * (2 ^ (1074 : Nat) : ℕ)) ≤ 2 * units k + 2 ^ (k / 2 ^ (52 : Nat) - 1) := by
  have htwo : 0 < 2 ^ (1074 : Nat) := Nat.two_pow_pos 1074
  rw [middle_eq]
  generalize 2 ^ (1074 : Nat) = two at *
  rw [le_div_iff₀ (by positivity), mul_left_comm]

/-- A number is past the middle above a rank, or in the middle and the next rank is even. -/
def Past (k : Nat) (q : ℚ) : Prop :=
  middle k < q ∨ middle k = q ∧ k % 2 = 1

lemma Past.le (h : Past k q) : middle k ≤ q :=
  h.elim le_of_lt fun h => h.1.le

lemma le_of_not_past (h : ¬ Past k q) : q ≤ middle k :=
  not_lt.1 fun hlt => h (Or.inl hlt)

lemma Past.mono (h : Past k p) (hpq : p ≤ q) : Past k q := by
  rcases h with h | ⟨h, hodd⟩
  · exact Or.inl (h.trans_le hpq)
  · rw [← h] at hpq
    exact hpq.lt_or_eq.imp_right (⟨·, hodd⟩)

/-! ## Rounding -/

/-- The rank that a number rounds to; a negative one rounds to zero. -/
def rankOf (q : ℚ) : Nat :=
  nearestRank (q.num.toNat * 2 ^ (1074 : Nat)) q.den

/-- Rounding a quotient, by its number. -/
lemma lt_nearestRank_iff_past (hden : 0 < den) :
    k < nearestRank num den ↔ Past k (num / (den * 2 ^ 1074)) := by
  have hpos : (0 : ℚ) < den := Nat.cast_pos.2 hden
  have htwo : (0 : ℚ) < 2 ^ 1074 := by positivity
  rw [lt_nearestRank_iff hden, PastMiddle, Past, middle, magnitude, magnitude, ← add_div, div_div]
  generalize (2 : ℚ) ^ 1074 = two at *
  rw [div_lt_div_iff₀ (by positivity) (by positivity), div_eq_div_iff (by positivity)
    (by positivity)]
  have hleft : ((units k : ℚ) + units (k + 1)) * (den * two)
      = (((units k + units (k + 1)) * den : ℕ) : ℚ) * two := by
    push_cast
    ring
  have hright : (num : ℚ) * (two * 2) = ((2 * num : ℕ) : ℚ) * two := by
    push_cast
    ring
  rw [hleft, hright, mul_lt_mul_iff_left₀ htwo, mul_left_inj' htwo.ne', Nat.cast_lt, Nat.cast_inj]

lemma cast_num_toNat (hq : 0 ≤ q) : (q.num.toNat : ℚ) = q.num := by
  rw [← Int.cast_natCast, Int.toNat_of_nonneg (Rat.num_nonneg.2 hq)]

/-- **Rounding by middles.**  A number rounds above a rank if and only if it is past the middle
there. -/
theorem lt_rankOf_iff (hq : 0 ≤ q) : k < rankOf q ↔ Past k q := by
  have hvalue : ((q.num.toNat * 2 ^ (1074 : Nat) : ℕ) : ℚ) / (q.den * 2 ^ 1074) = q := by
    simp only [Nat.cast_mul, Nat.cast_pow, Nat.cast_ofNat, cast_num_toNat hq]
    rw [mul_div_mul_right _ _ (by positivity), Rat.num_div_den]
  rw [rankOf, lt_nearestRank_iff_past q.den_pos, hvalue]

/-- The rank of a quotient is that of its number. -/
lemma nearestRank_eq_rankOf (hden : 0 < den) :
    nearestRank num den = rankOf (num / (den * 2 ^ 1074)) :=
  eq_of_forall_lt_iff fun k => by
    rw [lt_nearestRank_iff_past hden, lt_rankOf_iff (by positivity)]

lemma rankOf_mono (hp : 0 ≤ p) (h : p ≤ q) : rankOf p ≤ rankOf q :=
  le_of_forall_lt fun k hk => by
    rw [lt_rankOf_iff hp] at hk
    rw [lt_rankOf_iff (hp.trans h)]
    exact hk.mono h

/-- A magnitude rounds to itself. -/
lemma rankOf_magnitude (r : Nat) : rankOf (magnitude r) = r := by
  have hread : nearestRank (units r) 1 = rankOf (units r / ((1 : ℕ) * 2 ^ 1074)) :=
    nearestRank_eq_rankOf Nat.one_pos
  have hself := nearestRank_units r Nat.one_pos
  rw [Nat.mul_one] at hself
  rw [Nat.cast_one, one_mul, hself] at hread
  exact hread.symm

/-! ## No magnitude is nearer -/

/-- A number lies between the middles around the magnitude that it rounds to. -/
lemma le_middle_rankOf (hq : 0 ≤ q) : q ≤ middle (rankOf q) :=
  le_of_not_past fun h => lt_irrefl _ ((lt_rankOf_iff hq).2 h)

lemma middle_le_of_lt_rankOf (hq : 0 ≤ q) (h : k < rankOf q) : middle k ≤ q :=
  ((lt_rankOf_iff hq).1 h).le

/-- What lies between a magnitude and a number that rounds to it rounds to it. -/
lemma rankOf_eq_of_between (hp : 0 ≤ p) (hq : 0 ≤ q) (hr : rankOf p = r)
    (h : p ≤ q ∧ q ≤ magnitude r ∨ magnitude r ≤ q ∧ q ≤ p) : rankOf q = r := by
  rcases h with ⟨hlow, hhigh⟩ | ⟨hlow, hhigh⟩
  · refine le_antisymm ?_ (hr ▸ rankOf_mono hp hlow)
    simpa only [rankOf_magnitude] using rankOf_mono hq hhigh
  · refine le_antisymm (hr ▸ rankOf_mono hq hhigh) ?_
    simpa only [rankOf_magnitude] using rankOf_mono (magnitude_nonneg r) hlow

/-- **Nearest.**  No magnitude is nearer to a number than the one that it rounds to.  If another one
is equally near, then the rank that is taken is even and the other one is odd. -/
theorem rankOf_nearest (hq : 0 ≤ q) (k : Nat) :
    |magnitude (rankOf q) - q| ≤ |magnitude k - q| ∧
      (|magnitude (rankOf q) - q| = |magnitude k - q| →
        k = rankOf q ∨ rankOf q % 2 = 0 ∧ k % 2 = 1) := by
  have hhigh := le_middle_rankOf hq
  rcases Nat.lt_trichotomy k (rankOf q) with hk | rfl | hk
  · -- the middle below the rank lies between `k` and the number
    obtain ⟨r, hr⟩ : ∃ r, rankOf q = r + 1 := ⟨rankOf q - 1, by omega⟩
    have hpast := (lt_rankOf_iff hq).1 (show r < rankOf q by omega)
    have hlow := hpast.le
    have hbelow : magnitude k ≤ magnitude r := magnitude_strictMono.monotone (by omega)
    have hmiddle : 2 * middle r = magnitude r + magnitude (r + 1) := by rw [middle]; ring
    have hr' := magnitude_lt_middle r
    rw [hr] at hhigh ⊢
    rw [abs_of_nonpos (a := magnitude k - q) (by linarith)]
    refine ⟨abs_le.2 ⟨by linarith, by linarith⟩, fun htie => Or.inr ?_⟩
    have hle : q ≤ middle r := by
      rcases abs_cases (magnitude (r + 1) - q) with ⟨h, -⟩ | ⟨h, -⟩ <;> linarith
    have hge : magnitude r ≤ magnitude k := by
      rcases abs_cases (magnitude (r + 1) - q) with ⟨h, -⟩ | ⟨h, -⟩ <;> linarith
    obtain rfl : k = r := magnitude_strictMono.injective (le_antisymm hbelow hge)
    have hodd := hpast.resolve_left (not_lt.2 hle)
    omega
  · exact ⟨le_rfl, fun _ => Or.inl rfl⟩
  · -- the middle above the rank lies between the number and `k`
    have hnot : ¬ Past (rankOf q) q := fun h => lt_irrefl _ ((lt_rankOf_iff hq).2 h)
    have hlow : ∀ r, rankOf q = r + 1 → middle r ≤ q := fun r hr =>
      ((lt_rankOf_iff hq).1 (by omega)).le
    generalize rankOf q = r at *
    have habove : magnitude (r + 1) ≤ magnitude k := magnitude_strictMono.monotone hk
    have hmiddle : 2 * middle r = magnitude r + magnitude (r + 1) := by rw [middle]; ring
    have hr' := middle_lt_magnitude r
    rw [abs_of_nonneg (a := magnitude k - q) (by linarith)]
    refine ⟨abs_le.2 ⟨by linarith, by linarith⟩, fun htie => Or.inr ?_⟩
    have hge : middle r ≤ q := by
      rcases abs_cases (magnitude r - q) with ⟨h, -⟩ | ⟨h, -⟩ <;> linarith
    have hle : magnitude k ≤ magnitude (r + 1) := by
      rcases abs_cases (magnitude r - q) with ⟨h, -⟩ | ⟨h, -⟩ <;> linarith
    obtain rfl : k = r + 1 := magnitude_strictMono.injective (le_antisymm hle habove)
    have heven : r % 2 ≠ 1 := fun hodd => hnot (Or.inr ⟨le_antisymm hge hhigh, hodd⟩)
    omega

/-- A number is too large for a finite double from the middle between the last finite magnitude and
`2 ^ 1024` on. -/
lemma finiteRanks_le_rankOf_iff (hq : 0 ≤ q) :
    finiteRanks ≤ rankOf q ↔ 2 ^ 1024 - 2 ^ 970 ≤ q := by
  have hden : (0 : ℚ) < q.den := Nat.cast_pos.2 q.den_pos
  have htwo : (0 : ℚ) < 2 * 2 ^ 1074 := by positivity
  have hleft : (overflowLimit * q.den : ℕ) = (2 ^ 1024 - 2 ^ 970) * q.den * (2 * 2 ^ 1074 : ℚ) := by
    rw [Nat.cast_mul, Binary64.overflowLimit_eq, mul_right_comm]
  have hright : (2 * (q.num.toNat * 2 ^ (1074 : Nat)) : ℕ) = (q.num : ℚ) * (2 * 2 ^ 1074) := by
    simp only [Nat.cast_mul, Nat.cast_pow, Nat.cast_ofNat, cast_num_toNat hq]
    rw [mul_left_comm]
  rw [rankOf, finiteRanks_le_nearestRank_iff q.den_pos, ← Nat.cast_le (α := ℚ), hleft, hright,
    mul_le_mul_iff_left₀ htwo, ← le_div_iff₀ hden, Rat.num_div_den]

lemma rankOf_lt_finiteRanks_iff (hq : 0 ≤ q) :
    rankOf q < finiteRanks ↔ q < 2 ^ 1024 - 2 ^ 970 := by
  rw [← not_le, finiteRanks_le_rankOf_iff hq, not_le]

/-! ## Whole numbers -/

lemma magnitude_eq_natCast_iff : magnitude r = m ↔ units r = m * 2 ^ (1074 : Nat) := by
  have htwo : 0 < 2 ^ (1074 : Nat) := Nat.two_pow_pos 1074
  rw [magnitude_eq]
  generalize 2 ^ (1074 : Nat) = two at *
  rw [div_eq_iff (Nat.cast_ne_zero.2 htwo.ne'), ← Nat.cast_mul, Nat.cast_inj]

/-- A whole number of at most 53 binary digits, and zeros behind them, is a magnitude. -/
lemma exists_magnitude_eq (hm : m ≤ 2 ^ (53 : Nat)) (j : Nat) :
    ∃ r, magnitude r = (m * 2 ^ j : ℕ) := by
  rcases Nat.eq_zero_or_pos m with rfl | hpos
  · exact ⟨0, by rw [magnitude_zero, Nat.zero_mul, Nat.cast_zero]⟩
  -- the digits are moved up to the 53 places of a significand
  obtain ⟨i, hi, hlow, hhigh⟩ :
      ∃ i ≤ 52, 2 ^ (52 : Nat) ≤ m * 2 ^ i ∧ m * 2 ^ i ≤ 2 ^ (53 : Nat) := by
    by_cases hlarge : 2 ^ (52 : Nat) ≤ m
    · exact ⟨0, by omega, by omega, by omega⟩
    have hlog : m.log2 < 52 := (Nat.log2_lt hpos.ne').2 (by omega)
    refine ⟨52 - m.log2, by omega, ?_, ?_⟩
    · have hle := Nat.mul_le_mul_right (2 ^ (52 - m.log2)) (Nat.log2_self_le hpos.ne')
      rwa [← Nat.pow_add, Nat.add_sub_cancel' hlog.le] at hle
    · have hle := Nat.mul_le_mul_right (2 ^ (52 - m.log2)) (Nat.lt_log2_self (n := m)).le
      rwa [← Nat.pow_add, show m.log2 + 1 + (52 - m.log2) = 53 by omega] at hle
  refine ⟨(1074 + j - i) * 2 ^ (52 : Nat) + m * 2 ^ i, ?_⟩
  have hpower : ∀ a b c d : ℕ, a + b = c + d → 2 ^ a * 2 ^ b = 2 ^ c * 2 ^ d := fun a b c d h => by
    rw [← Nat.pow_add, ← Nat.pow_add, h]
  rw [magnitude_eq_natCast_iff, units_add (Or.inr hlow) hhigh, Nat.mul_assoc, Nat.mul_assoc,
    hpower i (1074 + j - i) j 1074 (by omega)]

/-! ## Numbers with a sign -/

namespace Binary64

variable {x y : Binary64} {v w : ℚ} {rank : Fin finiteRanks}

/-- The double that a number rounds to, with the sign of the number. -/
def nearest (q : ℚ) : Binary64 :=
  .ofRank (q < 0) (rankOf |q|)

/-- A double is nearest to a number: it is finite, no finite double is nearer, and if another one is
equally near, then the last bit of the double is zero. -/
def IsNearest (x : Binary64) (q : ℚ) : Prop :=
  ∃ v, x.toRat? = some v ∧ ∀ (y : Binary64) (w : ℚ), y.toRat? = some w →
    |v - q| ≤ |w - q| ∧ (|v - q| = |w - q| → w = v ∨ x.toBits % 2 = 0)

lemma toBits_finite_mod_two (negative : Bool) (rank : Fin finiteRanks) :
    (finite negative rank).toBits % 2 = rank.val % 2 := by
  rw [toBits]
  split <;> omega

lemma abs_of_toRat?_finite {negative : Bool} (h : (finite negative rank).toRat? = some v) :
    |v| = magnitude rank := by
  obtain rfl := Option.some_inj.1 h
  cases negative <;> simp [magnitude_nonneg]

lemma exists_finite_of_toRat? (h : x.toRat? = some v) :
    ∃ negative rank, x = finite negative rank := by
  cases x with
  | finite negative rank => exact ⟨negative, rank, rfl⟩
  | infinite negative => simp [toRat?] at h
  | nan => simp [toRat?] at h

/-- Numbers below the limit round to finite doubles. -/
lemma exists_nearest_eq (hq : |q| < 2 ^ 1024 - 2 ^ 970) :
    ∃ rank : Fin finiteRanks, rank.val = rankOf |q| ∧ nearest q = finite (q < 0) rank := by
  have hlt := (rankOf_lt_finiteRanks_iff (abs_nonneg q)).2 hq
  exact ⟨⟨_, hlt⟩, rfl, dif_pos hlt⟩

/-- What the double of a number stands for is on the side of the number. -/
lemma abs_sub_toRat? (hv : (finite (q < 0) rank).toRat? = some v) :
    |v - q| = abs (magnitude rank - |q|) := by
  obtain rfl := Option.some_inj.1 hv
  by_cases hq : q < 0
  · rw [decide_eq_true hq, if_pos rfl, abs_of_neg hq, ← abs_neg]
    congr 1
    ring
  · rw [decide_eq_false hq, if_neg (by simp), abs_of_nonneg (not_lt.1 hq)]

/-- The double that a number rounds to is nearest.  Of a finite double that is equally near, and not
numerically equal, the last bit is one. -/
theorem nearest_nearest (hq : |q| < 2 ^ 1024 - 2 ^ 970) (hv : (nearest q).toRat? = some v)
    (hw : y.toRat? = some w) : |v - q| ≤ |w - q| ∧
      (|v - q| = |w - q| → w = v ∨ (nearest q).toBits % 2 = 0 ∧ y.toBits % 2 = 1) := by
  obtain ⟨rank, hrank, hnearest⟩ := exists_nearest_eq hq
  obtain ⟨negative, k, rfl⟩ := exists_finite_of_toRat? hw
  rw [hnearest] at hv ⊢
  have hdist := abs_sub_toRat? hv
  have hr := abs_of_toRat?_finite hv
  have hk := abs_of_toRat?_finite hw
  obtain ⟨hle, htie⟩ := rankOf_nearest (abs_nonneg q) k
  have hfar : abs (magnitude k - |q|) ≤ |w - q| := hk ▸ abs_abs_sub_abs_le w q
  rw [← hrank] at hle htie
  rw [hdist, toBits_finite_mod_two, toBits_finite_mod_two]
  refine ⟨hle.trans hfar, fun heq => ?_⟩
  rcases htie (le_antisymm hle (hfar.trans_eq heq.symm)) with hsame | hodd
  · -- the opposite of a double is farther, unless both are zero
    left
    rw [← hdist] at heq
    rw [hsame, ← hr] at hk
    rcases abs_eq_abs.1 hk with rfl | rfl
    · rfl
    · have hzero : v * q = 0 := by
        have hsq := sq_eq_sq_iff_abs_eq_abs _ _ |>.2 heq
        linarith
      rcases mul_eq_zero.1 hzero with hv0 | hq0
      · rw [hv0, neg_zero]
      · have hrank0 : rank.val = 0 := by
          rw [hrank, hq0, abs_zero, ← magnitude_zero, rankOf_magnitude]
        rw [hrank0, magnitude_zero, abs_eq_zero] at hr
        rw [hr, neg_zero]
  · exact Or.inr hodd

/-- **The nearest double.**  For a number below the limit it is the one that the number rounds to,
up to the sign of zero. -/
theorem isNearest_iff (hq : |q| < 2 ^ 1024 - 2 ^ 970) :
    x.IsNearest q ↔ x.toRat? = (nearest q).toRat? := by
  obtain ⟨rank, hrank, hnearest⟩ := exists_nearest_eq hq
  obtain ⟨v, hv⟩ : ∃ v, (nearest q).toRat? = some v := ⟨_, congrArg toRat? hnearest⟩
  constructor
  · rintro ⟨w, hw, hleast⟩
    obtain ⟨hle, htie⟩ := nearest_nearest hq hv hw
    obtain ⟨hle', htie'⟩ := hleast _ v hv
    have heq : |v - q| = |w - q| := le_antisymm hle hle'
    have hsame : w = v := by
      rcases htie heq with h | ⟨-, hodd⟩
      · exact h
      · rcases htie' heq.symm with h | heven
        · exact h.symm
        · omega
    rw [hw, hv, hsame]
  · intro hx
    have hbits : x.toBits % 2 = (nearest q).toBits % 2 := by
      obtain ⟨negative, k, rfl⟩ := exists_finite_of_toRat? (hx.trans hv)
      rw [hnearest, toRat?_finite_inj] at hx
      rw [hnearest, toBits_finite_mod_two, toBits_finite_mod_two, hx.1]
    refine ⟨v, hx.trans hv, fun y w hw => ?_⟩
    obtain ⟨hle, htie⟩ := nearest_nearest hq hv hw
    exact ⟨hle, fun heq => (htie heq).imp_right fun h => hbits.trans h.1⟩

end Binary64

end LogSearch
