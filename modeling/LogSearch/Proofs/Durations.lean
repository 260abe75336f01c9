import LogSearch.Proofs.FieldKinds
import LogSearch.Proofs.NumeralValue
import LogSearch.Proofs.ReadBack

/-!
# Durations in two units

A duration is held in milliseconds.  One that is typed in milliseconds is rounded once.  One that is
typed in seconds is rounded twice: its number of seconds, and the product of that with a thousand.
Both durations are the same, and raise the same flag, unless the first rounding carries the product
across a middle between two doubles.

* `Numeral.CrossesMiddle` — the numerals for which that happens.
* `not_crossesMiddle_of_magnitude` — never where the number of seconds is that of a double.
* `not_crossesMiddle_of_whole` — and so never for whole numbers up to `2 ^ 53`.
* `rankOf_products_le` — where it happens the two are neighbours, but for the least numbers.
* `seconds_eq_millis_iff` — a duration in seconds is the double nearest to its milliseconds, and has
  the flag of the same duration in milliseconds, except exactly for these numerals.
-/

namespace LogSearch

-- Powers of natural numbers are those of natural numbers, whatever algebra is in scope.
attribute [local instance (high)] instPowNat

variable {s t : Text} {n k : Numeral} {x y : Binary64} {p q v : ℚ} {e r : Nat}

/-! ## Rounding twice -/

/-- Two numbers round to one rank if and only if no middle parts them. -/
lemma rankOf_eq_iff (hp : 0 ≤ p) (hq : 0 ≤ q) :
    rankOf p = rankOf q ↔ ∀ j, Past j p ↔ Past j q := by
  constructor
  · intro h j
    rw [← lt_rankOf_iff hp, ← lt_rankOf_iff hq, h]
  · intro h
    refine eq_of_forall_lt_iff fun j => ?_
    rw [lt_rankOf_iff hp, lt_rankOf_iff hq, h]

/-- A thousand times the number of a numeral, and a thousand times the double nearest to it, are
parted by a middle between two doubles. -/
def Numeral.CrossesMiddle (n : Numeral) : Prop :=
  ∃ j, ¬ (Past j (1000 * magnitude (rankOf |n.value|)) ↔ Past j (1000 * |n.value|))

lemma not_crossesMiddle_iff : ¬ n.CrossesMiddle ↔
    rankOf (1000 * magnitude (rankOf |n.value|)) = rankOf (1000 * |n.value|) := by
  have hmagnitude := magnitude_nonneg (rankOf |n.value|)
  rw [rankOf_eq_iff (by positivity) (by positivity), Numeral.CrossesMiddle, not_exists]
  simp only [not_not]

/-- Where the number of seconds is that of a double, it is rounded once only. -/
theorem not_crossesMiddle_of_magnitude (h : |n.value| = magnitude r) : ¬ n.CrossesMiddle := by
  rw [not_crossesMiddle_iff, h, rankOf_magnitude]

/-- So whole numbers of seconds are, as far as the doubles hold all of them. -/
theorem not_crossesMiddle_of_whole {m : Nat} (h : |n.value| = m) (hm : m ≤ 2 ^ (53 : Nat)) :
    ¬ n.CrossesMiddle := by
  obtain ⟨r, hr⟩ := exists_magnitude_eq hm 0
  rw [Nat.pow_zero, Nat.mul_one] at hr
  exact not_crossesMiddle_of_magnitude (h.trans hr.symm)

/-- Numbers from a binade on that are less than its spacing apart round to neighbours. -/
lemma rankOf_le_succ (hpq : p ≤ q) (hp : magnitude (e * 2 ^ (52 : Nat) + 2 ^ (52 : Nat)) ≤ p)
    (hclose : (q - p) * (2 ^ (1074 : Nat) : ℕ) < 2 ^ e) : rankOf q ≤ rankOf p + 1 := by
  by_contra hlt
  have hp0 := (magnitude_nonneg _).trans hp
  have hbinade := rankOf_mono (magnitude_nonneg _) hp
  rw [rankOf_magnitude] at hbinade
  -- two middles lie between the numbers, and from one to the other it is the spacing at least
  have hlow := le_middle_iff.1 (le_middle_rankOf hp0)
  have hhigh := middle_le_iff.1 (middle_le_of_lt_rankOf (hp0.trans hpq) (not_le.1 hlt))
  generalize rankOf p = i at *
  have hstep : (2 : ℚ) ^ e ≤ 2 ^ (i / 2 ^ (52 : Nat) - 1) :=
    pow_le_pow_right₀ (by norm_num) (by omega)
  have hstep' : (2 : ℚ) ^ e ≤ 2 ^ ((i + 1) / 2 ^ (52 : Nat) - 1) :=
    pow_le_pow_right₀ (by norm_num) (by omega)
  rw [units_succ, Nat.cast_add, Nat.cast_pow, Nat.cast_ofNat] at hhigh
  rw [sub_mul] at hclose
  generalize 2 ^ (1074 : Nat) = two at *
  linarith

/-- A number that is not among the least ones lies within half the spacing of the double nearest to
it. -/
lemma abs_sub_units_le (hv : 0 ≤ v) (hnormal : 2 ^ (52 : Nat) ≤ rankOf v) :
    |v * (2 ^ (1074 : Nat) : ℕ) - units (rankOf v)| * 2 ≤ 2 ^ (rankOf v / 2 ^ (52 : Nat) - 1) := by
  have hhigh := le_middle_iff.1 (le_middle_rankOf hv)
  have hlow := middle_le_iff.1 (middle_le_of_lt_rankOf hv (show rankOf v - 1 < rankOf v by omega))
  generalize rankOf v = r at *
  obtain ⟨i, rfl⟩ : ∃ i, r = i + 1 := ⟨r - 1, by omega⟩
  have hstep : (2 : ℚ) ^ (i / 2 ^ (52 : Nat) - 1) ≤ 2 ^ ((i + 1) / 2 ^ (52 : Nat) - 1) :=
    pow_le_pow_right₀ (by norm_num)
      (Nat.sub_le_sub_right (Nat.div_le_div_right (Nat.le_succ i)) 1)
  have hunits : (units (i + 1) : ℚ) = units i + 2 ^ (i / 2 ^ (52 : Nat) - 1) := by
    rw [units_succ, Nat.cast_add, Nat.cast_pow, Nat.cast_ofNat]
  rw [Nat.add_sub_cancel] at hlow
  generalize 2 ^ (1074 : Nat) = two at *
  rw [← le_div_iff₀ (by norm_num), abs_le]
  constructor <;> linarith

/-- **Close products.**  From `2 ^ -1022` on, a thousand times a number and a thousand times the
double nearest to it round to one double or to neighbours. -/
theorem rankOf_products_le (hv : magnitude (2 ^ (52 : Nat)) ≤ v) :
    rankOf (1000 * magnitude (rankOf v)) ≤ rankOf (1000 * v) + 1 ∧
      rankOf (1000 * v) ≤ rankOf (1000 * magnitude (rankOf v)) + 1 := by
  have hv0 := (magnitude_nonneg _).trans hv
  have hm0 := magnitude_nonneg (rankOf v)
  have hnormal := rankOf_mono (magnitude_nonneg _) hv
  rw [rankOf_magnitude] at hnormal
  have herror := abs_le.1 ((le_div_iff₀ (by norm_num)).2 (abs_sub_units_le hv0 hnormal))
  have hunits : ((2 ^ (52 : Nat) * 2 ^ (rankOf v / 2 ^ (52 : Nat) - 1) : ℕ) : ℚ)
      ≤ units (rankOf v) :=
    Nat.cast_le.2 (spacing_le_units hnormal)
  have hm := magnitude_eq (rankOf v)
  -- the products are nine binades up, where the spacing is more than five hundred times as large
  obtain ⟨g, hg⟩ : ∃ g, g = rankOf v / 2 ^ (52 : Nat) - 1 := ⟨_, rfl⟩
  have hfirst := magnitude_eq ((g + 9) * 2 ^ (52 : Nat) + 2 ^ (52 : Nat))
  rw [units_add (Or.inr le_rfl) (by omega)] at hfirst
  have hclose := fun p q => rankOf_le_succ (p := p) (q := q) (e := g + 9)
  rw [hfirst] at hclose
  have hnine : ∀ g : ℕ, (2 : ℚ) ^ (g + 9) = 512 * 2 ^ g := fun g => by
    rw [pow_add]
    norm_num
    ring
  rw [← hg] at herror hunits
  have htwo : 0 < 2 ^ (1074 : Nat) := Nat.two_pow_pos 1074
  generalize 2 ^ (1074 : Nat) = two at *
  have htwo' : (0 : ℚ) < two := Nat.cast_pos.2 htwo
  rw [eq_div_iff htwo'.ne'] at hm
  have hspacing : (0 : ℚ) < 2 ^ g := by positivity
  simp only [Nat.cast_mul, Nat.cast_pow, Nat.cast_ofNat, hnine, div_le_iff₀ htwo'] at hclose hunits
  obtain ⟨hlow, hhigh⟩ := herror
  rcases le_total (magnitude (rankOf v)) v with hle | hle
  · have hproducts : 1000 * magnitude (rankOf v) ≤ 1000 * v := by linarith only [hle]
    have hmono := rankOf_mono (mul_nonneg (by norm_num) hm0) hproducts
    refine ⟨hmono.trans (Nat.le_succ _), hclose _ _ hproducts ?_ ?_⟩
    · linarith only [hm, hunits, hspacing]
    · linarith only [hm, hhigh, hspacing]
  · have hproducts : 1000 * v ≤ 1000 * magnitude (rankOf v) := by linarith only [hle]
    have hmono := rankOf_mono (mul_nonneg (by norm_num) hv0) hproducts
    refine ⟨hclose _ _ hproducts ?_ ?_, hmono.trans (Nat.le_succ _)⟩
    · linarith only [hm, hunits, hlow, hspacing]
    · linarith only [hm, hlow, hspacing]

/-! ## Two units -/

lemma Field.inSeconds_of_read? (h : Numeral.read? s = some n) :
    Field.InSeconds (s ++ [chr 's']) s := by
  refine ⟨rfl, fun hlast => ?_⟩
  have hunit : ¬ (isDigit (chr 'm') ∨
      chr 'm' ∈ [chr '+', chr '-', chr '.', chr 'e', chr 'E']) := by decide
  exact hunit (Numeral.isNumeralChar_of_read? h (chr 'm') (List.mem_of_getLast? hlast))

lemma Binary64.scale_finite (negative : Bool) (rank : Fin finiteRanks) (m : Nat) :
    (finite negative rank).scale m = .ofRank negative (rankOf (m * magnitude rank)) := by
  rw [scale, nearestRank_eq_rankOf Nat.one_pos, Nat.cast_one, one_mul, Nat.cast_mul, mul_comm,
    mul_div_assoc, magnitude]

/-- A duration in seconds is rounded twice. -/
lemma coerce?_seconds (h : Numeral.read? s = some n) (hrange : |n.value| < 2 ^ 1024 - 2 ^ 970) :
    Field.duration.coerce? (s ++ [chr 's']) = some (.number (.ofRank n.negative
      (rankOf (1000 * magnitude (rankOf |n.value|))))) := by
  obtain ⟨x, hread, hx, -⟩ := (Numeral.readNumber?_of_read? h).1 hrange
  have hlt := (rankOf_lt_finiteRanks_iff (abs_nonneg _)).2 hrange
  rw [Field.coerce?, Field.readDuration?_of_inSeconds (Field.inSeconds_of_read? h), hread, hx,
    Binary64.ofRank, dif_pos hlt, Option.map_some, Option.map_some, Binary64.scale_finite,
    Nat.cast_ofNat]

/-- A duration in milliseconds is the double nearest to its number. -/
lemma coerce?_millis (h : Numeral.read? t = some k) (hrange : |k.value| < 2 ^ 1024 - 2 ^ 970) :
    Field.duration.coerce? (t ++ [chr 'm', chr 's'])
      = some (.number (.ofRank k.negative (rankOf |k.value|))) := by
  obtain ⟨y, hread, rfl, -⟩ := (Numeral.readNumber?_of_read? h).1 hrange
  rw [Field.coerce?, Field.readDuration?, Field.beforeEnding?_eq_some_iff.2 rfl]
  simp only [hread, Option.map_some]

/-- No other number has the text of a finite one. -/
lemma text_eq_iff_of_isFinite (hy : y.isFinite) : x.text = y.text ↔ x.toRat? = y.toRat? := by
  obtain ⟨q, hq⟩ := Binary64.exists_toRat? hy
  obtain ⟨negative, rank, rfl⟩ := Binary64.exists_finite_of_toRat? hq
  have hread : readNumber? (Binary64.finite negative rank).text ≠ none := by
    rw [readNumber?_text]
    simp
  cases x with
  | finite negative' rank' => exact text_eq_iff rfl rfl
  | infinite negative' =>
      have hwords : ∀ negative, readNumber? (Binary64.infinite negative).text = none := by decide
      refine iff_of_false (fun h => hread (h ▸ hwords negative')) ?_
      rw [hq]
      simp [Binary64.toRat?]
  | nan =>
      have hword : readNumber? Binary64.nan.text = none := by decide
      refine iff_of_false (fun h => hread (h ▸ hword)) ?_
      rw [hq]
      simp [Binary64.toRat?]

/-- Doubles that are numerically equal have one rank, if one of them is finite. -/
lemma eq_of_toRat?_ofRank {r' : Nat} {negative negative' : Bool} (hr : r' < finiteRanks)
    (h : (Binary64.ofRank negative r).toRat? = (Binary64.ofRank negative' r').toRat?) : r = r' := by
  rw [Binary64.ofRank, Binary64.ofRank, dif_pos hr] at h
  split at h
  · exact congrArg Fin.val (Binary64.toRat?_finite_inj.1 h).1
  · simp [Binary64.toRat?] at h

/-- **One duration in two units.**  For a duration whose number of milliseconds is in range, the
value of its text in milliseconds is the double nearest to that number.  The value of its text in
seconds is the nearest double as well, and the two raise the same flag, except exactly if rounding
the number of seconds carries the product across a middle. -/
theorem seconds_eq_millis_iff (hs : Numeral.read? s = some n) (ht : Numeral.read? t = some k)
    (hvalue : k.value = 1000 * n.value) (hrange : |k.value| < 2 ^ 1024 - 2 ^ 970) :
    ∃ x y, Field.duration.coerce? (s ++ [chr 's']) = some (.number x) ∧
      Field.duration.coerce? (t ++ [chr 'm', chr 's']) = some (.number y) ∧
      y.IsNearest (1000 * n.value) ∧ (x.IsNearest (1000 * n.value) ↔ ¬ n.CrossesMiddle) ∧
      ∀ f g : Filter, f.field = Field.duration.name → g.field = Field.duration.name →
        f.operator = g.operator → f.value = .number x → g.value = .number y →
        (∀ z now p, f.addTo z now p = .ok (p.set f.flagName "true".text) ∧
          g.addTo z now p = .ok (p.set g.flagName "true".text)) ∧
        (f.flagName = g.flagName ↔ ¬ n.CrossesMiddle) := by
  have habs : |k.value| = 1000 * |n.value| := by
    rw [hvalue, abs_mul, abs_of_pos (by norm_num)]
  have hseconds : |n.value| < 2 ^ 1024 - 2 ^ 970 := by
    refine lt_of_le_of_lt ?_ hrange
    rw [habs]
    linarith only [abs_nonneg n.value]
  have hsign : if n.negative then k.value ≤ 0 else 0 ≤ k.value := by
    have hsign := n.sign_value
    rw [hvalue]
    split at hsign
    · rename_i hneg
      rw [if_pos hneg]
      linarith only [hsign]
    · rename_i hneg
      rw [if_neg hneg]
      linarith only [hsign]
  have hlt := (rankOf_lt_finiteRanks_iff (abs_nonneg _)).2 hrange
  have hy := isNearest_ofRank k.sign_value hrange
  have hx := isNearest_ofRank hsign hrange
  rw [Binary64.isNearest_iff hrange] at hx
  -- the two are numerically equal if and only if their ranks are
  have hsame : (Binary64.ofRank n.negative (rankOf (1000 * magnitude (rankOf |n.value|)))).toRat?
      = (Binary64.ofRank k.negative (rankOf |k.value|)).toRat? ↔ ¬ n.CrossesMiddle := by
    rw [not_crossesMiddle_iff, ← habs]
    constructor
    · exact eq_of_toRat?_ofRank hlt
    · intro heq
      rw [heq, hx, (Binary64.isNearest_iff hrange).1 hy]
  have hfinite := (Binary64.isFinite_ofRank k.negative (rankOf |k.value|)).2 hlt
  have hcoerce := coerce?_seconds hs hseconds
  have hcoerce' := coerce?_millis ht hrange
  generalize Binary64.ofRank n.negative (rankOf (1000 * magnitude (rankOf |n.value|))) = x at *
  generalize Binary64.ofRank k.negative (rankOf |k.value|) = y at *
  rw [← hvalue]
  refine ⟨x, y, hcoerce, hcoerce', hy, ?_, fun f g hf hg hop hfx hgy => ⟨fun z now p => ?_, ?_⟩⟩
  · rw [Binary64.isNearest_iff hrange, ← (Binary64.isNearest_iff hrange).1 hy, hsame]
  · exact ⟨f.addTo_comparison hf rfl z now p, g.addTo_comparison hg rfl z now p⟩
  · rw [← hsame, ← text_eq_iff_of_isFinite hfinite, Filter.flagName, Filter.flagName, hf, hg, hop,
      hfx, hgy]
    simp [Value.written]

/-- All usual numbers are in range. -/
lemma two_pow_le_limit : (2 : ℚ) ^ 53 ≤ 2 ^ 1024 - 2 ^ 970 := by
  have hlarge : (2 : ℚ) ^ 1024 = 2 ^ 54 * 2 ^ 970 := by rw [← pow_add]
  have hone : (1 : ℚ) ≤ 2 ^ 970 := one_le_pow₀ (by norm_num)
  rw [hlarge]
  generalize (2 : ℚ) ^ 970 = a at *
  linarith only [hone]

/-- Five seconds are five thousand milliseconds. -/
theorem seconds_eq_millis_iff_five :
    ∃ n k : Numeral, Numeral.read? "5".text = some n ∧ Numeral.read? "5e3".text = some k ∧
      k.value = 1000 * n.value ∧ |k.value| < 2 ^ 1024 - 2 ^ 970 ∧
      ∃ x, Field.duration.coerce? "5s".text = some (.number x) ∧ x.IsNearest 5000 := by
  have hread : Numeral.read? "5".text = some ⟨false, [5], [], 0⟩ := rfl
  have hread' : Numeral.read? "5e3".text = some ⟨false, [5], [], 3⟩ := rfl
  have hfive : Numeral.value ⟨false, [5], [], 0⟩ = 5 := by
    norm_num [Numeral.value, Numeral.decimal, Decimal.value, Numeral.lastPower, ofDigits]
  have hvalue : Numeral.value ⟨false, [5], [], 3⟩ = 1000 * Numeral.value ⟨false, [5], [], 0⟩ := by
    rw [hfive]
    norm_num [Numeral.value, Numeral.decimal, Decimal.value, Numeral.lastPower, ofDigits]
  have hrange : |Numeral.value ⟨false, [5], [], 3⟩| < 2 ^ 1024 - 2 ^ 970 := by
    refine lt_of_lt_of_le ?_ two_pow_le_limit
    rw [hvalue, hfive]
    norm_num
  obtain ⟨x, y, hx, -, -, hnearest, -⟩ := seconds_eq_millis_iff hread hread' hvalue hrange
  refine ⟨_, _, hread, hread', hvalue, hrange, x, hx, ?_⟩
  have hcrosses : ¬ Numeral.CrossesMiddle ⟨false, [5], [], 0⟩ :=
    not_crossesMiddle_of_whole (m := 5) (by rw [hfive]; norm_num) (by omega)
  have hfive' : (5000 : ℚ) = 1000 * Numeral.value ⟨false, [5], [], 0⟩ := by
    rw [hfive]
    norm_num
  rw [hfive']
  exact hnearest.2 hcrosses

/-- **A duration that differs.**  `1.005s` and `1005ms` are one duration, but the double nearest to
`1.005` is a little less, and so is its product. -/
theorem one_second_and_five :
    ∃ (n k : Numeral) (x y : Binary64), Numeral.read? "1.005".text = some n ∧
      Numeral.read? "1005".text = some k ∧ k.value = 1000 * n.value ∧
      Field.duration.coerce? "1.005s".text = some (.number x) ∧
      Field.duration.coerce? "1005ms".text = some (.number y) ∧
      ¬ x.IsNearest k.value ∧ x.text = "1004.9999999999999".text ∧ y.text = "1005".text := by
  have hread : Numeral.read? "1.005".text = some ⟨false, [1], [0, 0, 5], 0⟩ := rfl
  have hread' : Numeral.read? "1005".text = some ⟨false, [1, 0, 0, 5], [], 0⟩ := rfl
  have hvalue : Numeral.value ⟨false, [1, 0, 0, 5], [], 0⟩ = 1005 := by
    norm_num [Numeral.value, Numeral.decimal, Decimal.value, Numeral.lastPower, ofDigits]
  have hvalue' : Numeral.value ⟨false, [1], [0, 0, 5], 0⟩ = 1005 / 1000 := by
    norm_num [Numeral.value, Numeral.decimal, Decimal.value, Numeral.lastPower, ofDigits]
  have hx : (Binary64.ofBits 0x408f67ffffffffff).text = "1004.9999999999999".text := by
    decide +kernel
  have hy : (Binary64.ofBits 0x408f680000000000).text = "1005".text := by decide +kernel
  have hrange : |Numeral.value ⟨false, [1, 0, 0, 5], [], 0⟩| < 2 ^ 1024 - 2 ^ 970 := by
    refine lt_of_lt_of_le ?_ two_pow_le_limit
    rw [hvalue]
    norm_num
  refine ⟨_, _, .ofBits 0x408f67ffffffffff, .ofBits 0x408f680000000000, hread, hread', ?_,
    by decide +kernel, by decide +kernel, fun h => ?_, hx, hy⟩
  · rw [hvalue, hvalue']
    norm_num
  · -- the other one is nearest, and what is nearest has one text
    obtain ⟨y, hy', -, hnearest⟩ := (Numeral.readNumber?_of_read? hread').1 hrange
    have hfinite : (Binary64.ofBits 0x408f680000000000).isFinite := by decide +kernel
    obtain rfl : .ofBits 0x408f680000000000 = y :=
      Option.some_inj.1 (Eq.trans (by decide +kernel) hy')
    rw [Binary64.isNearest_iff hrange] at h hnearest
    rw [← hnearest, ← text_eq_iff_of_isFinite hfinite, hx, hy] at h
    exact absurd h (by decide)

end LogSearch
