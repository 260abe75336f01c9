import LogSearch.Proofs.DecimalGrid

/-!
# The shortest digits

The digits of a magnitude are as few as identify it, and of as few digits those nearest to it.  This
is said of a number of digits, a whole number of that many digits and a place for the point, without
a grid; the search on grids finds just these digits.

* `Identifies`, `Chosen` — the digits that identify a magnitude, and those that are chosen.
* `Identifies.exists_on_grid` — digits that identify a magnitude have a point of the grid between
  them and the magnitude, so that the search misses nothing.
* `rank_nine_ne` — a digit and the next power of ten are never equally near.
* `exists_chosen` — there is exactly one choice, and the search finds it.
-/

namespace LogSearch

-- Powers of natural numbers are those of natural numbers, whatever algebra is in scope.
attribute [local instance (high)] instPowNat

variable {n n' : ℤ} {r k k' s s' : Nat}

/-! ## The digits that identify a magnitude -/

/-- `s` has `k` digits, and with the point behind the first `n` of them it reads as a rank. -/
structure Identifies (rank : Nat) (n : ℤ) (k s : Nat) : Prop where
  length_pos : 1 ≤ k
  le : 10 ^ (k - 1) ≤ s
  lt : s < 10 ^ k
  rank_eq : Decimal.rank ⟨s, n - k⟩ = rank

/-- The digits that are chosen for a magnitude: as few as possible, and of as few digits those
nearest to it, a tie going to the even number. -/
structure Chosen (rank : Nat) (n : ℤ) (k s : Nat) : Prop extends Identifies rank n k s where
  shortest : ∀ {n' k' s'}, Identifies rank n' k' s' → k ≤ k'
  nearest : ∀ {n' s'}, Identifies rank n' k s' → |Decimal.value ⟨s, n - k⟩ - magnitude rank|
    ≤ |Decimal.value ⟨s', n' - k⟩ - magnitude rank|
  even_of_tie : ∀ {n' s'}, Identifies rank n' k s' → |Decimal.value ⟨s, n - k⟩ - magnitude rank|
    = |Decimal.value ⟨s', n' - k⟩ - magnitude rank| → n' = n ∧ s' = s ∨ s % 2 = 0

lemma value_ten_pow (j : Nat) (e : ℤ) : Decimal.value ⟨10 ^ j, e⟩ = 10 ^ (e + j) := by
  rw [value_mk, Nat.cast_pow, Nat.cast_ofNat, zpow_add₀ (by norm_num), zpow_natCast, mul_comm]

namespace Identifies

/-- The point stands behind `n` digits, so the number is below `10 ^ n`. -/
lemma value_bounds (h : Identifies r n k s) :
    (10 : ℚ) ^ (n - 1) ≤ Decimal.value ⟨s, n - k⟩ ∧ Decimal.value ⟨s, n - k⟩ < 10 ^ n := by
  have hp := ten_zpow_pos (n - k)
  have hk := h.length_pos
  have hlow : (10 : ℚ) ^ (n - 1) = Decimal.value ⟨10 ^ (k - 1), n - k⟩ := by
    rw [value_ten_pow]
    congr 1
    omega
  have hhigh : (10 : ℚ) ^ n = Decimal.value ⟨10 ^ k, n - k⟩ := by
    rw [value_ten_pow]
    congr 1
    omega
  rw [hlow, hhigh]
  exact ⟨mul_le_mul_of_nonneg_right (Nat.cast_le.2 h.le) hp.le,
    mul_lt_mul_of_pos_right (Nat.cast_lt.2 h.lt) hp⟩

/-- Where the point stands is told by the number. -/
lemma eq_of_value_eq (h : Identifies r n k s) (h' : Identifies r n' k s')
    (hv : Decimal.value ⟨s, n - k⟩ = Decimal.value ⟨s', n' - k⟩) : n' = n ∧ s' = s := by
  obtain ⟨hlow, hhigh⟩ := h.value_bounds
  obtain ⟨hlow', hhigh'⟩ := h'.value_bounds
  have hn : n' - 1 < n := (zpow_lt_zpow_iff_right₀ (by norm_num)).1
    (hlow'.trans_lt (hv ▸ hhigh) : (10 : ℚ) ^ (n' - 1) < 10 ^ n)
  have hn' : n - 1 < n' := (zpow_lt_zpow_iff_right₀ (by norm_num)).1
    (hlow.trans_lt (hv ▸ hhigh') : (10 : ℚ) ^ (n - 1) < 10 ^ n')
  obtain rfl : n' = n := by omega
  rw [value_mk, value_mk, mul_left_inj' (ten_zpow_pos _).ne', Nat.cast_inj] at hv
  exact ⟨rfl, hv.symm⟩

/-- Between a number that is identified and the magnitude lies a point of the grid with as many
digits as the magnitude has there. -/
lemma exists_on_grid (hr : 0 < r) (h : Identifies r n k s) :
    ∃ c : Nat, Decimal.rank ⟨c, unitsOrder (units r) + 1 - k⟩ = r ∧
      |Decimal.value ⟨c, unitsOrder (units r) + 1 - k⟩ - magnitude r|
        ≤ |Decimal.value ⟨s, n - k⟩ - magnitude r| ∧
      (|Decimal.value ⟨c, unitsOrder (units r) + 1 - k⟩ - magnitude r|
          = |Decimal.value ⟨s, n - k⟩ - magnitude r| →
        n = unitsOrder (units r) + 1 ∧ c = s ∨
        c = 10 ^ k ∧
          Decimal.value ⟨c, unitsOrder (units r) + 1 - k⟩ = Decimal.value ⟨s, n - k⟩) := by
  obtain ⟨hlow, hhigh⟩ := h.value_bounds
  obtain ⟨hfirst, hbelow⟩ := unitsOrder_bounds hr
  generalize unitsOrder (units r) = order at *
  have hk := h.length_pos
  have hread := h.rank_eq
  have hone : (1 : ℚ) < 10 := by norm_num
  rcases lt_trichotomy n (order + 1) with hn | rfl | hn
  · -- the number is below the power of ten that the magnitude starts at
    have hten : Decimal.value ⟨10 ^ (k - 1), order + 1 - k⟩ = 10 ^ order := by
      rw [value_ten_pow]
      congr 1
      omega
    have hle : (10 : ℚ) ^ n ≤ 10 ^ order := (zpow_le_zpow_iff_right₀ hone).2 (by omega)
    refine ⟨10 ^ (k - 1), ?_, ?_, fun htie => ?_⟩
    · rw [Decimal.rank_eq_rankOf] at hread ⊢
      refine rankOf_eq_of_between (Decimal.value_nonneg _) (Decimal.value_nonneg _) hread ?_
      rw [hten]
      exact Or.inl ⟨by linarith, hfirst⟩
    · rw [hten, abs_of_nonpos (by linarith), abs_of_nonpos (by linarith)]
      linarith
    · rw [hten, abs_of_nonpos (by linarith), abs_of_nonpos (by linarith)] at htie
      linarith
  · exact ⟨s, hread, le_rfl, fun _ => Or.inl ⟨rfl, rfl⟩⟩
  · -- the number is not below the next power of ten
    have hten : Decimal.value ⟨10 ^ k, order + 1 - k⟩ = 10 ^ (order + 1) := by
      rw [value_ten_pow]
      congr 1
      omega
    have hle : (10 : ℚ) ^ (order + 1) ≤ 10 ^ (n - 1) := (zpow_le_zpow_iff_right₀ hone).2 (by omega)
    refine ⟨10 ^ k, ?_, ?_, fun htie => Or.inr ⟨rfl, ?_⟩⟩
    · rw [Decimal.rank_eq_rankOf] at hread ⊢
      refine rankOf_eq_of_between (Decimal.value_nonneg _) (Decimal.value_nonneg _) hread ?_
      rw [hten]
      exact Or.inr ⟨hbelow.le, by linarith⟩
    · rw [hten, abs_of_nonneg (by linarith), abs_of_nonneg (by linarith)]
      linarith
    · rw [hten, abs_of_nonneg (by linarith), abs_of_nonneg (by linarith)] at htie
      linarith

end Identifies

/-- A whole number that is a negative power of ten of another one makes that a multiple of five. -/
lemma five_dvd_of_eq_mul_zpow {a b m : Nat} (h : (a : ℚ) = b * 10 ^ (-((m : ℤ) + 1))) : 5 ∣ b := by
  have hinv : (10 : ℚ) ^ (-((m : ℤ) + 1)) * 10 ^ (m + 1) = 1 := by
    rw [← zpow_natCast, ← zpow_add₀ (by norm_num), Nat.cast_succ, neg_add_cancel, zpow_zero]
  have hwhole : a * 10 ^ (m + 1) = b := by
    have hcast : (a * 10 ^ (m + 1) : ℚ) = b := by rw [h, mul_assoc, hinv, mul_one]
    exact_mod_cast hcast
  refine ⟨a * 10 ^ m * 2, ?_⟩
  rw [← hwhole, Nat.pow_succ]
  ring

/-- No magnitude is in the middle between nine and ten times a power of ten and read from the
former: there the spacing would be as large as the power of ten, which has no such middle. -/
lemma rank_nine_ne {e : ℤ} (hr : 0 < r) (h : 2 * magnitude r = 19 * 10 ^ e) :
    Decimal.rank ⟨9, e⟩ ≠ r := by
  intro hread
  obtain ⟨j, rfl⟩ : ∃ j, r = j + 1 := ⟨r - 1, by omega⟩
  have hpast : middle j ≤ Decimal.value ⟨9, e⟩ := by
    rw [Decimal.rank_eq_rankOf] at hread
    exact middle_le_of_lt_rankOf (Decimal.value_nonneg _) (by omega)
  have hspacing : j / 2 ^ (52 : Nat) - 1 = 0 ∨
      2 ^ (52 : Nat) * 2 ^ (j / 2 ^ (52 : Nat) - 1) ≤ units j := by
    by_cases hj : j < 2 ^ (52 : Nat)
    · exact Or.inl (by omega)
    · exact Or.inr (spacing_le_units (not_lt.1 hj))
  rw [middle_le_iff, value_mk] at hpast
  rw [magnitude_eq, units_succ] at h
  have hfive : ¬ 5 ∣ 19 * 2 ^ (1074 : Nat) := by decide +kernel
  have htwo : 1 < 2 ^ (1074 : Nat) := by decide +kernel
  generalize 2 ^ (1074 : Nat) = two at *
  have htwo' : (1 : ℚ) < two := by exact_mod_cast htwo
  have hten := ten_zpow_pos e
  generalize j / 2 ^ (52 : Nat) - 1 = g at *
  generalize units j = u at *
  rw [← mul_div_assoc, div_eq_iff (by positivity)] at h
  push_cast at h hpast
  -- the middle below the magnitude is at nine times the power of ten at most
  have hgap : (10 : ℚ) ^ e * two ≤ 2 ^ g := by linarith
  have hclose : 2 * u ≤ 17 * 2 ^ g := by
    have hcast : (2 * u : ℚ) ≤ 17 * 2 ^ g := by linarith
    exact_mod_cast hcast
  obtain rfl : g = 0 := by
    have hpos := Nat.two_pow_pos g
    omega
  have hneg : e < 0 := by
    by_contra hnonneg
    have hone : (1 : ℚ) ≤ 10 ^ e := one_le_zpow₀ (by norm_num) (not_lt.1 hnonneg)
    nlinarith
  obtain ⟨m, rfl⟩ : ∃ m : ℕ, e = -(m + 1) := ⟨(-e - 1).toNat, by omega⟩
  refine hfive (five_dvd_of_eq_mul_zpow (a := 2 * (u + 1)) (m := m) ?_)
  push_cast
  rw [mul_right_comm, ← h, pow_zero]

/-- So no digit is as near to a magnitude below the next power of ten as that power itself. -/
lemma rank_ne_of_tie_ten {e : ℤ} {c : Nat} (hr : 0 < r) (hc : c < 10 ^ 1) (hodd : c % 2 = 1)
    (hbelow : magnitude r < 10 ^ (e + 1)) (hlow : ((10 : ℕ) : ℚ) ≤ magnitude r / 10 ^ e + 1)
    (htie : |Decimal.value ⟨10, e⟩ - magnitude r| = |Decimal.value ⟨c, e⟩ - magnitude r|) :
    Decimal.rank ⟨c, e⟩ ≠ r := by
  have hw := ten_zpow_pos e
  have hnine : (c : ℚ) ≤ 9 := by exact_mod_cast Nat.le_of_lt_succ hc
  have hle : (c : ℚ) * 10 ^ e ≤ 9 * 10 ^ e := mul_le_mul_of_nonneg_right hnine hw.le
  rw [zpow_add₀ (by norm_num), zpow_one] at hbelow
  rw [div_add_one hw.ne', le_div_iff₀ hw, Nat.cast_ofNat] at hlow
  rw [value_mk, value_mk, Nat.cast_ofNat, abs_of_nonneg (by linarith), abs_of_nonpos (by linarith)]
    at htie
  have height : (8 : ℚ) ≤ c := by
    refine le_of_mul_le_mul_right ?_ hw
    linarith
  obtain rfl : c = 9 := by
    have hcast : 8 ≤ c := by exact_mod_cast height
    omega
  refine rank_nine_ne hr ?_
  rw [Nat.cast_ofNat] at htie
  linarith

/-! ## The choice -/

/-- What the search finds, as digits with a point: the digits of the grid, or one and the next power
of ten, and then already with one digit. -/
lemma exists_identifies (hr : 0 < r) {more c : Nat}
    (hpicked : Picked r (unitsOrder (units r) - more) c)
    (hbefore : ∀ j < more, ∀ c, Decimal.rank ⟨c, unitsOrder (units r) - j⟩ ≠ r) :
    ∃ n s, Identifies r n (more + 1) s ∧
      Decimal.value ⟨s, n - (more + 1 : ℕ)⟩ = Decimal.value ⟨c, unitsOrder (units r) - more⟩ ∧
      (n = unitsOrder (units r) + 1 ∧ s = c ∨
        more = 0 ∧ c = 10 ∧ n = unitsOrder (units r) + 2 ∧ s = 1) := by
  obtain ⟨hfirst, hbelow⟩ := unitsOrder_bounds hr
  generalize unitsOrder (units r) = order at *
  have hp := ten_zpow_pos (order - more)
  have hlow : 10 ^ more ≤ c := by
    have hx : (10 : ℚ) ^ more ≤ magnitude r / 10 ^ (order - more) := by
      rw [le_div_iff₀ hp, ← zpow_natCast, ← zpow_add₀ (by norm_num), add_sub_cancel]
      exact hfirst
    have hlt : (10 : ℚ) ^ more < c + 1 := hx.trans_lt hpicked.lt
    exact Nat.le_of_lt_succ (by exact_mod_cast hlt)
  have hhigh : c ≤ 10 ^ (more + 1) := by
    have hx : magnitude r / 10 ^ (order - more) < (10 : ℚ) ^ (more + 1) := by
      rw [div_lt_iff₀ hp, ← zpow_natCast, ← zpow_add₀ (by norm_num)]
      refine hbelow.trans_eq (congrArg _ ?_)
      push_cast
      ring
    have hlt : (c : ℚ) < 10 ^ (more + 1) + 1 := by linarith [hpicked.le]
    exact Nat.le_of_lt_succ (by exact_mod_cast hlt)
  rcases Nat.eq_or_lt_of_le hhigh with rfl | hlt
  · -- the next power of ten has one digit
    have hten : ∀ j : ℕ, ∀ e : ℤ, e + j = order + 1 →
        Decimal.value ⟨10 ^ j, e⟩ = Decimal.value ⟨10 ^ (more + 1), order - more⟩ := by
      intro j e he
      rw [value_ten_pow, value_ten_pow, he]
      congr 1
      push_cast
      ring
    have hzero : more = 0 := by
      by_contra hmore
      refine hbefore 0 (by omega) (10 ^ 1) ?_
      rw [Decimal.rank_congr (hten 1 _ (by simp))]
      exact hpicked.rank_eq
    subst hzero
    have hvalue := hten 0 (order + 2 - (0 + 1 : ℕ)) (by push_cast; ring)
    refine ⟨order + 2, 1, ⟨by simp, by simp, by simp, ?_⟩, hvalue, Or.inr ⟨rfl, rfl, rfl, rfl⟩⟩
    rw [Decimal.rank_congr hvalue]
    exact hpicked.rank_eq
  · have hpower : order + 1 - ((more + 1 : ℕ) : ℤ) = order - more := by
      push_cast
      ring
    refine ⟨order + 1, c, ⟨by omega, hlow, hlt, ?_⟩, by rw [hpower], Or.inl ⟨rfl, rfl⟩⟩
    rw [hpower]
    exact hpicked.rank_eq

/-- What the search finds is no farther from the magnitude than anything else with as many digits.
If something else is equally near, then its last digit is odd and the one found is even. -/
lemma nearest_of_picked (hr : 0 < r) {c : Nat}
    (hpicked : Picked r (unitsOrder (units r) + 1 - k) c) (h : Identifies r n k s)
    (hvalue : Decimal.value ⟨s, n - k⟩ = Decimal.value ⟨c, unitsOrder (units r) + 1 - k⟩)
    (hdigits : n = unitsOrder (units r) + 1 ∧ s = c ∨ k = 1 ∧ c = 10)
    (h' : Identifies r n' k s') :
    |Decimal.value ⟨s, n - k⟩ - magnitude r| ≤ |Decimal.value ⟨s', n' - k⟩ - magnitude r| ∧
      (|Decimal.value ⟨s, n - k⟩ - magnitude r| = |Decimal.value ⟨s', n' - k⟩ - magnitude r| →
        n' = n ∧ s' = s ∨ s % 2 = 0 ∧ s' % 2 = 1) := by
  obtain ⟨c', hread, hle, htie⟩ := h'.exists_on_grid hr
  obtain ⟨hnearest, hodd⟩ := hpicked.nearest c' hread
  simp only [← value_mk] at hnearest hodd
  obtain ⟨-, hbelow⟩ := unitsOrder_bounds hr
  rw [hvalue]
  refine ⟨hnearest.trans hle, fun heq => ?_⟩
  have hsame := le_antisymm hle (heq ▸ hnearest)
  rcases hodd (le_antisymm hnearest (hle.trans_eq heq.symm)) with rfl | ⟨heven, hc'⟩
  · -- the same point of the grid
    refine Or.inl (h.eq_of_value_eq h' (hvalue.trans ?_))
    rcases htie hsame with ⟨hn', hs'⟩ | ⟨-, hsame'⟩
    · rw [hn', hs']
    · exact hsame'
  · obtain ⟨hn', rfl⟩ : n' = unitsOrder (units r) + 1 ∧ c' = s' := by
      refine (htie hsame).resolve_right fun hten => ?_
      obtain ⟨j, rfl⟩ : ∃ j, k = j + 1 := ⟨k - 1, by have hk := h.length_pos; omega⟩
      rw [hten.1, Nat.pow_succ] at hc'
      omega
    rcases hdigits with ⟨-, rfl⟩ | ⟨rfl, rfl⟩
    · exact Or.inr ⟨heven, hc'⟩
    · -- nine and ten are never equally near
      obtain rfl : n' = unitsOrder (units r) + 1 := hn'
      rw [Nat.cast_one, add_sub_cancel_right] at hpicked heq hread
      exact absurd hread (rank_ne_of_tie_ten hr h'.lt hc' hbelow hpicked.le heq)

/-- The last digit that is chosen is not zero: without it there would be fewer. -/
lemma Chosen.mod_ten_ne (h : Chosen r n k s) : s % 10 ≠ 0 := by
  intro hzero
  obtain ⟨t, rfl⟩ := Nat.dvd_of_mod_eq_zero hzero
  have hk : 2 ≤ k := by
    have hlow := h.le
    have hhigh := h.lt
    have hpos := h.length_pos
    by_contra hshort
    obtain rfl : k = 1 := by omega
    omega
  obtain ⟨j, rfl⟩ : ∃ j, k = j + 2 := ⟨k - 2, by omega⟩
  have hlow := h.le
  have hhigh := h.lt
  have hread := h.rank_eq
  rw [Nat.pow_succ] at hhigh
  rw [show j + 2 - 1 = j + 1 by omega, Nat.pow_succ] at hlow
  have hvalue : Decimal.value ⟨t, n - (j + 1 : ℕ)⟩ = Decimal.value ⟨10 * t, n - (j + 2 : ℕ)⟩ := by
    rw [value_mk, value_mk, show n - ((j + 1 : ℕ) : ℤ) = 1 + (n - (j + 2 : ℕ)) by push_cast; ring,
      zpow_add₀ (by norm_num), zpow_one]
    push_cast
    ring
  have hshorter : Identifies r n (j + 1) t := by
    refine ⟨by omega, ?_, by omega, (Decimal.rank_congr hvalue).trans hread⟩
    rw [Nat.add_sub_cancel]
    omega
  have hle := h.shortest hshorter
  omega

/-- A coefficient that does not end in zero is written with all its digits. -/
lemma digits_of_mod_ten_ne {e : ℤ} (hs : s % 10 ≠ 0) :
    Decimal.digits ⟨s, e⟩ = digitsOf s := by
  obtain ⟨j, hj⟩ := Decimal.exists_digits_append ⟨s, e⟩
  have hcoefficient := congrArg (ofDigitText · 0) hj
  simp only [ofDigitText_digitsOf, ofDigitText_append,
    ofDigitText_replicate_zero] at hcoefficient
  cases j with
  | zero => simpa using hj.symm
  | succ j =>
      rw [Nat.pow_succ, Nat.mul_right_comm] at hcoefficient
      omega

/-- **The shortest digits.**  For a magnitude there is exactly one choice of digits, and the search
finds it. -/
theorem exists_chosen (hr : 0 < r) : ∃ n k s, Chosen r n k s ∧
    (∀ {n' k' s'}, Chosen r n' k' s' → n' = n ∧ k' = k ∧ s' = s) ∧
    (shortest r).digits = digitsOf s ∧ (shortest r).order = n - 1 := by
  obtain ⟨more, c, hshortest, hpicked, hbefore⟩ := exists_shortest_eq r
  obtain ⟨n, s, h, hvalue, hdigits⟩ := exists_identifies hr hpicked hbefore
  have hpower : unitsOrder (units r) + 1 - ((more + 1 : ℕ) : ℤ) = unitsOrder (units r) - more := by
    push_cast
    ring
  have hcases : n = unitsOrder (units r) + 1 ∧ s = c ∨ more + 1 = 1 ∧ c = 10 :=
    hdigits.imp_right fun ⟨hmore, hc, _⟩ => ⟨by rw [hmore], hc⟩
  have hnearest : ∀ {n' s'}, Identifies r n' (more + 1) s' → _ := fun h' =>
    nearest_of_picked hr (hpower ▸ hpicked) h (hpower ▸ hvalue) hcases h'
  have hfew : ∀ {n' k' s'}, Identifies r n' k' s' → more + 1 ≤ k' := by
    intro n' k' s' h'
    by_contra hlt
    obtain ⟨c', hread, -⟩ := h'.exists_on_grid hr
    have hk' := h'.length_pos
    refine hbefore (k' - 1) (by omega) c' ?_
    rwa [show unitsOrder (units r) - ((k' - 1 : ℕ) : ℤ) = unitsOrder (units r) + 1 - k' by omega]
  have hchosen : Chosen r n (more + 1) s :=
    ⟨h, hfew, fun h' => (hnearest h').1, fun h' htie => ((hnearest h').2 htie).imp_right And.left⟩
  refine ⟨n, more + 1, s, hchosen, ?_, ?_⟩
  · intro n' k' s' h'
    obtain rfl : k' = more + 1 := le_antisymm (h'.shortest h) (hfew h'.toIdentifies)
    obtain ⟨hle, htie⟩ := hnearest h'.toIdentifies
    have heq := le_antisymm hle (h'.nearest h)
    rcases htie heq with ⟨rfl, rfl⟩ | ⟨-, hodd⟩
    · exact ⟨rfl, rfl, rfl⟩
    · -- of two that are equally near, both would have to be even
      rcases h'.even_of_tie h heq.symm with ⟨rfl, rfl⟩ | heven
      · exact ⟨rfl, rfl, rfl⟩
      · omega
  · rw [hshortest]
    rcases hdigits with ⟨rfl, rfl⟩ | ⟨rfl, rfl, rfl, rfl⟩
    · refine ⟨digits_of_mod_ten_ne hchosen.mod_ten_ne, ?_⟩
      have hlength := (length_digitsOf_eq_iff h.length_pos
        ((Nat.pow_pos (by omega)).trans_le h.le)).2 ⟨h.le, h.lt⟩
      rw [Decimal.order, hlength]
      push_cast
      ring
    · have hone : ((digitsOf 10).reverse.dropWhile (· == chr '0')).reverse
          = digitsOf 1 := by
        decide
      refine ⟨hone, ?_⟩
      have hlength : (digitsOf 10).length = 2 := by decide
      rw [Decimal.order, hlength]
      push_cast
      ring

namespace Chosen

variable (hr : 0 < r) (h : Chosen r n k s)
include hr h

lemma unique (h' : Chosen r n' k' s') : n' = n ∧ k' = k ∧ s' = s := by
  obtain ⟨n₀, k₀, s₀, -, hunique, -⟩ := exists_chosen hr
  obtain ⟨rfl, rfl, rfl⟩ := hunique h
  exact hunique h'

/-- The digits and the order of the shortest decimal are those that are chosen. -/
lemma shortest_eq : (LogSearch.shortest r).digits = digitsOf s ∧
    (LogSearch.shortest r).order = n - 1 := by
  obtain ⟨n₀, k₀, s₀, -, hunique, hfound⟩ := exists_chosen hr
  obtain ⟨rfl, rfl, rfl⟩ := hunique h
  exact hfound

end Chosen

end LogSearch
