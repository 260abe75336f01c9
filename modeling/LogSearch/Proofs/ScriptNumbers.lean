import LogSearch.Proofs.ReadBack
import LogSearch.Proofs.ShortestDigits

/-!
# Numbers as scripts write them

A script writes a number by its shortest digits: with zeros behind them or a point among or before
them where that stays readable, and with an exponent elsewhere.

* `scriptText`, `IsScriptText` — the text of a number in a script.
* `scriptText_eq` — these are the layouts of this library.
* `existsUnique_isScriptText` — every finite number has exactly one.
* `IsLongWhole` — the whole numbers that are written with more digits than identify them, all above
  `2 ^ 53` by `not_isLongWhole_of_le`.
* `isScriptText_text_iff` — the text of a number is that of a script, except exactly for these.
-/

namespace LogSearch

-- Powers of natural numbers are those of natural numbers, whatever algebra is in scope.
attribute [local instance (high)] instPowNat

variable {n : ℤ} {r k s m : Nat} {negative : Bool} {t : Text}

/-! ## The text in a script -/

/-- The text of the digits of `s`, which are `k`, with the point behind the first `n` of them. -/
def scriptText (n : ℤ) (k s : Nat) : Text :=
  let digits := digitsOf s
  if k ≤ n ∧ n ≤ 21 then digits ++ List.replicate (n - k).toNat (chr '0')
  else if 0 < n ∧ n ≤ 21 then digits.take n.toNat ++ chr '.' :: digits.drop n.toNat
  else if -6 < n ∧ n ≤ 0 then chr '0' :: chr '.' :: List.replicate (-n).toNat (chr '0') ++ digits
  else
    let exponent := chr 'e' :: (if n - 1 < 0 then chr '-' else chr '+') :: digitsOf (n - 1).natAbs
    if k = 1 then digits ++ exponent else digits.take 1 ++ chr '.' :: digits.drop 1 ++ exponent

/-- A text is that of a finite number in a script: zero has one digit and no sign, and every other
number is written with the digits that are chosen for it. -/
def IsScriptText (negative : Bool) (rank : Nat) (t : Text) : Prop :=
  rank = 0 ∧ t = [chr '0'] ∨
    0 < rank ∧ ∃ n k s, Chosen rank n k s ∧
      t = (if negative then [chr '-'] else []) ++ scriptText n k s

/-- Without an exponent or with one, by where the point stands. -/
lemma scriptText_eq (hk : 1 ≤ k) (hlength : (digitsOf s).length = k) :
    scriptText n k s = if -6 ≤ n - 1 ∧ n ≤ 21 then plainText (digitsOf s) (n - 1)
      else exponentText (digitsOf s) (n - 1) := by
  simp only [scriptText]
  generalize digitsOf s = digits at *
  by_cases hplain : -6 ≤ n - 1 ∧ n ≤ 21
  · rw [if_pos hplain, plainText]
    by_cases hn : n ≤ 0
    · rw [if_neg (by omega), if_neg (by omega), if_pos (by omega), if_pos (by omega)]
      congr 4
      omega
    · have hwhole : (n - 1).toNat + 1 = n.toNat := by omega
      simp only [hwhole, hlength, if_neg (show ¬ n - 1 < 0 by omega)]
      by_cases hlong : k ≤ n
      · rw [if_pos ⟨hlong, hplain.2⟩, if_neg (by omega), List.append_nil,
          List.take_of_length_le (by omega)]
        congr 2
        omega
      · rw [if_neg (by omega), if_pos (by omega), if_pos (by omega),
          Nat.sub_eq_zero_of_le (by omega), List.replicate_zero, List.append_nil]
  · rw [if_neg hplain, if_neg (by omega), if_neg (by omega), if_neg (by omega), exponentText,
      hlength]
    by_cases hone : k = 1
    · rw [if_pos hone, if_neg (show ¬ 1 < k by omega), List.append_nil,
        List.take_of_length_le (by omega)]
    · rw [if_neg hone, if_pos (show 1 < k by omega), List.append_assoc]

namespace Chosen

variable (h : Chosen r n k s)
include h

lemma length_digitsOf : (digitsOf s).length = k :=
  (length_digitsOf_eq_iff h.length_pos ((Nat.pow_pos (by omega)).trans_le h.le)).2 ⟨h.le, h.lt⟩

/-- The text in a script is a layout of the number that it writes. -/
lemma exists_layout : ∃ l : Layout,
    l.text = scriptText n k s ∧ l.number = Decimal.value ⟨s, n - k⟩ := by
  have hvalue : scientific (digitsOf s) (n - 1) = Decimal.value ⟨s, n - k⟩ := by
    rw [scientific, ofDigitText_digitsOf, h.length_digitsOf, sub_add_cancel, value_mk]
  rw [scriptText_eq h.length_pos h.length_digitsOf, ← hvalue]
  split
  · exact Layout.exists_plainText (n - 1) digitsOf_ne_nil (isDigit_digitsOf s)
  · exact Layout.exists_exponentText (n - 1) digitsOf_ne_nil (isDigit_digitsOf s)

end Chosen

lemma Layout.number_eq_of_text_eq {l l' : Layout} (h : l.text = l'.text) :
    l.number = l'.number := by
  have hread := l.read?_text false
  have hread' := l'.read?_text false
  rw [h, hread', Option.some_inj] at hread
  rw [← l.value_decimal false, ← l'.value_decimal false, hread]

/-! ## Large numbers and whole numbers -/

lemma cast_wholeLimit : (wholeLimit : ℚ) = 10 ^ (21 : ℤ) := by
  rw [wholeLimit]
  norm_num

lemma div_lt_iff_magnitude_lt (r b : Nat) : units r / 2 ^ (1074 : Nat) < b ↔ magnitude r < b := by
  have htwo : 0 < 2 ^ (1074 : Nat) := Nat.two_pow_pos 1074
  rw [magnitude_eq]
  generalize 2 ^ (1074 : Nat) = two at *
  rw [Nat.div_lt_iff_lt_mul htwo, div_lt_iff₀ (Nat.cast_pos.2 htwo)]
  exact_mod_cast Iff.rfl

lemma mod_eq_zero_iff (r : Nat) : units r % 2 ^ (1074 : Nat) = 0 ↔
    magnitude r = (units r / 2 ^ (1074 : Nat) : ℕ) := by
  have hdiv := Nat.div_add_mod (units r) (2 ^ (1074 : Nat))
  rw [magnitude_eq_natCast_iff, Nat.mul_comm (units r / _)]
  omega

namespace Chosen

/-- A magnitude that has as few digits is written with its own. -/
lemma value_eq_of_eq (h : Chosen r n k s) {t : Nat} {e : ℤ} (hr : 0 < r) (ht : t < 10 ^ k)
    (hmagnitude : magnitude r = Decimal.value ⟨t, e⟩) :
    Decimal.value ⟨s, n - k⟩ = magnitude r := by
  have hpos : 0 < t := by
    have hne : 0 < magnitude r := magnitude_zero ▸ magnitude_strictMono hr
    rw [hmagnitude, value_mk] at hne
    exact Nat.cast_pos.1 (pos_of_mul_pos_left hne (ten_zpow_pos e).le)
  generalize hk' : (digitsOf t).length = k'
  have hk'pos : 0 < k' := hk' ▸ length_digitsOf_pos
  obtain ⟨hlow, hhigh⟩ := (length_digitsOf_eq_iff hk'pos hpos).1 hk'
  have hpower : e + k' - k' = e := add_sub_cancel_right _ _
  have hidentifies : Identifies r (e + k') k' t := by
    refine ⟨hk'pos, hlow, hhigh, ?_⟩
    rw [hpower, Decimal.rank_eq_rankOf, ← hmagnitude, rankOf_magnitude]
  obtain rfl : k' = k := by
    refine le_antisymm ?_ (h.shortest hidentifies)
    have hlt := (Nat.pow_lt_pow_iff_right (by omega)).1 (hlow.trans_lt ht)
    omega
  have hnearest := h.nearest hidentifies
  rw [hpower, ← hmagnitude, sub_self, abs_zero, abs_nonpos_iff, sub_eq_zero] at hnearest
  exact hnearest

/-- The digits are written with an exponent from `10 ^ 21` on, and the number rounded to them is
beyond that if and only if it is itself. -/
lemma le_iff_magnitude_lt (h : Chosen r n k s) (hr : 0 < r) :
    n ≤ 21 ↔ magnitude r < 10 ^ (21 : ℤ) := by
  obtain ⟨hlow, hhigh⟩ := h.value_bounds
  have hread := h.rank_eq
  rw [Decimal.rank_eq_rankOf] at hread
  have hone : (1 : ℚ) < 10 := by norm_num
  -- the power of ten is the number of a double, so what it identifies is that double
  have hten : Decimal.value ⟨s, n - k⟩ ≤ 10 ^ (21 : ℤ) ∧ 10 ^ (21 : ℤ) ≤ magnitude r ∨
      magnitude r ≤ 10 ^ (21 : ℤ) ∧ 10 ^ (21 : ℤ) ≤ Decimal.value ⟨s, n - k⟩ →
        magnitude r = 10 ^ (21 : ℤ) := by
    intro hbetween
    obtain ⟨r', hr'⟩ := exists_magnitude_eq (m := 5 ^ (21 : Nat)) (by omega) 21
    have hvalue : ((5 ^ (21 : Nat) * 2 ^ 21 : ℕ) : ℚ) = 10 ^ (21 : ℤ) := by norm_num
    rw [hvalue] at hr'
    have hrank := rankOf_eq_of_between (Decimal.value_nonneg _) (by positivity) hread hbetween
    rw [← hr', rankOf_magnitude] at hrank
    rw [← hrank, hr']
  constructor
  · intro hn
    by_contra hle
    rw [not_lt] at hle
    have hlt := hhigh.trans_le ((zpow_le_zpow_iff_right₀ hone).2 hn)
    have hr' := hten (Or.inl ⟨hlt.le, hle⟩)
    -- the power of ten has one digit
    have hdigit : 1 < 10 ^ k := Nat.one_lt_pow (Nat.one_le_iff_ne_zero.1 h.length_pos) (by omega)
    have hvalue := h.value_eq_of_eq (e := 21) hr hdigit
      (by rw [hr', value_mk, Nat.cast_one, one_mul])
    rw [hvalue, hr'] at hlt
    exact lt_irrefl _ hlt
  · intro hlt
    by_contra hn
    have hle : (10 : ℚ) ^ (21 : ℤ) ≤ Decimal.value ⟨s, n - k⟩ :=
      ((zpow_le_zpow_iff_right₀ hone).2 (by omega)).trans hlow
    rw [hten (Or.inr ⟨hlt.le, hle⟩)] at hlt
    exact lt_irrefl _ hlt

/-- A whole number that is written with its own digits has zeros behind them at most. -/
lemma exists_eq_mul (h : Chosen r n k s) (hm : Decimal.value ⟨s, n - k⟩ = m) :
    ∃ j : ℕ, n = k + j ∧ m = s * 10 ^ j := by
  by_cases hn : (k : ℤ) ≤ n
  · obtain ⟨j, rfl⟩ : ∃ j : ℕ, n = k + j := ⟨(n - k).toNat, by omega⟩
    refine ⟨j, rfl, ?_⟩
    rw [value_mk, add_sub_cancel_left, zpow_natCast] at hm
    exact_mod_cast hm.symm
  · -- a point before the last digit would make that digit zero
    exfalso
    obtain ⟨j, hj⟩ : ∃ j : ℕ, n - k = -(j + 1 : ℕ) := ⟨(k - n - 1).toNat, by omega⟩
    rw [value_mk, hj, zpow_neg, zpow_natCast, ← div_eq_mul_inv, div_eq_iff (by positivity)] at hm
    have hs : s = m * 10 ^ (j + 1) := by exact_mod_cast hm
    refine h.mod_ten_ne ?_
    rw [hs, Nat.pow_succ, ← Nat.mul_assoc, Nat.mul_mod_left]

end Chosen

lemma digitsOf_mul_ten_pow (hs : 0 < s) (j : Nat) :
    digitsOf (s * 10 ^ j) = digitsOf s ++ List.replicate j (chr '0') := by
  induction j with
  | zero => simp
  | succ j ih =>
      have hpos : 0 < s * 10 ^ j := Nat.mul_pos hs (Nat.pow_pos (by omega))
      rw [Nat.pow_succ, ← Nat.mul_assoc, digitsOf_mul_ten hpos, ih, List.append_assoc,
        List.replicate_succ']

/-! ## The text of a number -/

/-- A rank is that of a whole number below `10 ^ 21` that is identified by fewer digits than it
has. -/
def IsLongWhole (rank : Nat) : Prop :=
  ∃ m : Nat, magnitude rank = m ∧ m < wholeLimit ∧
    ∃ n k s, Identifies rank n k s ∧ ∀ t < 10 ^ k, ∀ j, m ≠ t * 10 ^ j

lemma not_isLongWhole_zero : ¬ IsLongWhole 0 := by
  rintro ⟨m, hm, -, n, k, s, -, hlong⟩
  rw [magnitude_zero] at hm
  have hzero : m = 0 := by exact_mod_cast hm.symm
  exact hlong 0 (Nat.pow_pos (by omega)) 0 (by rw [hzero, Nat.zero_mul])

/-- No whole number up to `2 ^ 53` is long: so far the doubles hold all whole numbers, and fewer
digits identify another one. -/
theorem not_isLongWhole_of_le (hm : magnitude r = m) (hle : m ≤ 2 ^ (53 : Nat)) :
    ¬ IsLongWhole r := by
  rintro ⟨m', hm', -, n, k, s, h, hlong⟩
  obtain rfl : m = m' := by exact_mod_cast hm.symm.trans hm'
  obtain ⟨-, hhigh⟩ := h.value_bounds
  have hread := h.rank_eq
  have hpos := h.length_pos
  rw [Decimal.rank_eq_rankOf] at hread
  have hdigits : 10 ^ k ≤ m := by
    by_contra hlt
    exact hlong m (not_le.1 hlt) 0 (by simp)
  -- a whole number of a double between the two is `m`
  have hsame : ∀ a i : ℕ, a ≤ 2 ^ (53 : Nat) →
      Decimal.value ⟨s, n - k⟩ ≤ (a * 2 ^ i : ℕ) ∧ a * 2 ^ i ≤ m ∨
        m ≤ a * 2 ^ i ∧ ((a * 2 ^ i : ℕ) : ℚ) ≤ Decimal.value ⟨s, n - k⟩ → a * 2 ^ i = m := by
    intro a i ha hbetween
    obtain ⟨r', hr'⟩ := exists_magnitude_eq ha i
    have hrank := rankOf_eq_of_between (Decimal.value_nonneg _) (Nat.cast_nonneg (a * 2 ^ i)) hread
      (by rwa [hm, Nat.cast_le, Nat.cast_le])
    rw [← hr', rankOf_magnitude] at hrank
    rw [hrank, hm] at hr'
    exact_mod_cast hr'.symm
  by_cases hn : n < k
  · -- the point stands among the digits
    have hlt : Decimal.value ⟨s, n - k⟩ ≤ (10 ^ (k - 1) * 2 ^ 0 : ℕ) :=
      calc Decimal.value ⟨s, n - k⟩ ≤ 10 ^ n := hhigh.le
        _ ≤ 10 ^ ((k - 1 : ℕ) : ℤ) := zpow_le_zpow_right₀ (by norm_num) (by omega)
        _ = (10 ^ (k - 1) * 2 ^ 0 : ℕ) := by rw [zpow_natCast]; simp
    have hten := Nat.pow_lt_pow_right (show 1 < 10 by omega) (show k - 1 < k by omega)
    have heq := hsame (10 ^ (k - 1)) 0 (by omega) (Or.inl ⟨hlt, by omega⟩)
    omega
  · -- the digits are those of a whole number
    obtain ⟨j, rfl⟩ : ∃ j : ℕ, n = k + j := ⟨(n - k).toNat, by omega⟩
    have hvalue : Decimal.value ⟨s, k + j - k⟩ = (s * 10 ^ j : ℕ) := by
      rw [value_mk, add_sub_cancel_left, zpow_natCast]
      push_cast
      rfl
    rw [hvalue] at hsame
    generalize hw : s * 10 ^ j = w at *
    by_cases hsmall : w ≤ 2 ^ (53 : Nat)
    · have heq := hsame w 0 hsmall (by simp; omega)
      exact hlong s h.lt j (by omega)
    · have heq := hsame (2 ^ (53 : Nat)) 0 le_rfl (Or.inr ⟨by omega, Nat.cast_le.2 (by omega)⟩)
      by_cases hnext : w = 2 ^ (53 : Nat) + 1
      · -- its digits do not end in zero, so that all are there
        have hlt := h.lt
        cases j with
        | zero => omega
        | succ j =>
            rw [Nat.pow_succ, ← Nat.mul_assoc] at hw
            omega
      · have heq' := hsame (2 ^ (52 : Nat) + 1) 1 (by omega)
          (Or.inr ⟨by omega, Nat.cast_le.2 (by omega)⟩)
        omega

namespace Chosen

variable (h : Chosen r n k s) (hr : 0 < r)
include h hr

/-- Whole numbers below `10 ^ 21` are written with digits of another number if and only if fewer
digits identify them. -/
lemma isLongWhole_iff (hm : magnitude r = m) (hlimit : m < wholeLimit) :
    IsLongWhole r ↔ Decimal.value ⟨s, n - k⟩ ≠ m := by
  constructor
  · rintro ⟨m', hm', -, n', k', s', hidentifies, hlong⟩ hvalue
    obtain rfl : m = m' := by exact_mod_cast hm.symm.trans hm'
    obtain ⟨j, -, hj⟩ := h.exists_eq_mul hvalue
    have hle := Nat.pow_le_pow_right (show 0 < 10 by omega) (h.shortest hidentifies)
    exact hlong s (h.lt.trans_le hle) j hj
  · intro hvalue
    refine ⟨m, hm, hlimit, n, k, s, h.toIdentifies, fun t ht j hj => hvalue ?_⟩
    rw [← hm]
    refine h.value_eq_of_eq hr ht (e := j) ?_
    rw [hm, hj, value_mk, zpow_natCast]
    push_cast
    rfl

/-- A whole number below `10 ^ 21` has the text of a script if and only if it is not long. -/
lemma digitsOf_eq_iff (hm : magnitude r = m) (hlimit : m < wholeLimit) :
    digitsOf m = scriptText n k s ↔ ¬ IsLongWhole r := by
  rw [h.isLongWhole_iff hr hm hlimit, not_not]
  constructor
  · intro htext
    obtain ⟨l, hl, hnumber⟩ := h.exists_layout
    obtain ⟨l', hl', hnumber'⟩ := Layout.exists_digitsOf m
    rw [← hnumber, ← hnumber']
    exact Layout.number_eq_of_text_eq (hl.trans (htext.symm.trans hl'.symm))
  · intro hvalue
    obtain ⟨j, rfl, rfl⟩ := h.exists_eq_mul hvalue
    have hplain : (k : ℤ) + j ≤ 21 := by
      rw [h.le_iff_magnitude_lt hr, hm, ← cast_wholeLimit]
      exact Nat.cast_lt.2 hlimit
    have hpos : 0 < s := (Nat.pow_pos (by omega)).trans_le h.le
    rw [digitsOf_mul_ten_pow hpos, scriptText, if_pos ⟨by omega, hplain⟩, add_sub_cancel_left,
      Int.toNat_natCast]

/-- All other numbers have the text of a script. -/
lemma magnitudeText_eq (hlimit : ∀ m : ℕ, magnitude r = m → wholeLimit ≤ m) :
    magnitudeText r = scriptText n k s := by
  obtain ⟨hdigits, horder⟩ := h.shortest_eq hr
  have hlarge := h.le_iff_magnitude_lt hr
  rw [← cast_wholeLimit, ← div_lt_iff_magnitude_lt] at hlarge
  have hwhole : ¬ (units r % 2 ^ (1074 : Nat) = 0 ∧ units r / 2 ^ (1074 : Nat) < wholeLimit) :=
    fun ⟨hmod, hlt⟩ => absurd (hlimit _ ((mod_eq_zero_iff r).1 hmod)) (not_le.2 hlt)
  rw [← hlarge] at hwhole
  rw [scriptText_eq h.length_pos h.length_digitsOf]
  simp only [magnitudeText, Bool.and_eq_true, decide_eq_true_eq, hwhole, hdigits, horder, ← hlarge,
    leastPlainOrder, if_false]

end Chosen

lemma magnitudeText_of_whole (hm : magnitude r = m) (hlimit : m < wholeLimit) :
    magnitudeText r = digitsOf m := by
  have hdiv : units r / 2 ^ (1074 : Nat) = m := by
    rw [magnitude_eq_natCast_iff.1 hm, Nat.mul_div_cancel _ (Nat.two_pow_pos 1074)]
  have hmod : units r % 2 ^ (1074 : Nat) = 0 := by rw [mod_eq_zero_iff, hdiv, hm]
  simp only [magnitudeText, hmod, hdiv, hlimit, decide_true, Bool.and_self, if_true]

/-- Every finite number has exactly one text in a script. -/
lemma existsUnique_isScriptText (negative : Bool) (rank : Nat) :
    ∃! t, IsScriptText negative rank t := by
  rcases Nat.eq_zero_or_pos rank with hzero | hr
  · refine ⟨[chr '0'], Or.inl ⟨hzero, rfl⟩, ?_⟩
    rintro t (⟨-, rfl⟩ | ⟨hr, -⟩)
    · rfl
    · omega
  · obtain ⟨n, k, s, h, -⟩ := exists_chosen hr
    refine ⟨_, Or.inr ⟨hr, n, k, s, h, rfl⟩, ?_⟩
    rintro t (⟨hzero, -⟩ | ⟨-, n', k', s', h', rfl⟩)
    · omega
    · obtain ⟨rfl, rfl, rfl⟩ := h.unique hr h'
      rfl

/-- **Numbers in a script.**  Every finite number has exactly one text in a script.  Its text here
is that one, except exactly if it is a whole number below `10 ^ 21` that fewer digits identify. -/
theorem isScriptText_text_iff (negative : Bool) (rank : Fin finiteRanks) :
    (∃! t, IsScriptText negative rank t) ∧
      (IsScriptText negative rank (Binary64.finite negative rank).text ↔ ¬ IsLongWhole rank) := by
  refine ⟨existsUnique_isScriptText negative rank, ?_⟩
  rcases Nat.eq_zero_or_pos rank.val with hzero | hr
  · have htext : magnitudeText 0 = [chr '0'] := by decide +kernel
    refine iff_of_true (Or.inl ⟨hzero, ?_⟩) (hzero ▸ not_isLongWhole_zero)
    simp [Binary64.text, hzero, htext]
  · obtain ⟨n, k, s, h, -⟩ := exists_chosen hr
    have hscript : IsScriptText negative rank (Binary64.finite negative rank).text ↔
        magnitudeText rank = scriptText n k s := by
      have hsign : (Binary64.finite negative rank).text
          = (if negative then [chr '-'] else []) ++ magnitudeText rank := by
        simp [Binary64.text, hr.ne']
      have hchosen : IsScriptText negative rank _ := Or.inr ⟨hr, n, k, s, h, rfl⟩
      rw [← List.append_cancel_left_eq, ← hsign]
      constructor
      · exact fun htext => (existsUnique_isScriptText negative rank).unique htext hchosen
      · rintro heq
        rwa [heq]
    rw [hscript]
    by_cases hwhole : ∃ m : ℕ, magnitude rank = m ∧ m < wholeLimit
    · obtain ⟨m, hm, hlimit⟩ := hwhole
      rw [magnitudeText_of_whole hm hlimit]
      exact h.digitsOf_eq_iff hr hm hlimit
    · refine iff_of_true ?_ ?_
      · exact h.magnitudeText_eq hr fun m hm => not_lt.1 fun hlimit => hwhole ⟨m, hm, hlimit⟩
      · rintro ⟨m, hm, hlimit, -⟩
        exact hwhole ⟨m, hm, hlimit⟩

/-- The digits that are chosen for a rank are those of its shortest decimal. -/
lemma isScriptText_shortest (hr : 0 < r) (negative : Bool) :
    IsScriptText negative r ((if negative then [chr '-'] else []) ++
      scriptText ((shortest r).order + 1) (shortest r).digits.length
        (ofDigitText (shortest r).digits 0)) := by
  obtain ⟨n, k, s, h, -, hdigits, horder⟩ := exists_chosen hr
  refine Or.inr ⟨hr, n, k, s, h, ?_⟩
  rw [hdigits, horder, h.length_digitsOf, ofDigitText_digitsOf, sub_add_cancel]

/-- **A long whole number.**  Sixteen digits identify `2 ^ 69`, and a script fills up with zeros
behind them; here all twenty-one digits are written. -/
theorem text_two_pow_sixty_nine :
    ∃ rank : Fin finiteRanks, Binary64.ofInt (2 ^ (69 : Nat)) = .finite false rank ∧
      (Binary64.finite false rank).text = "590295810358705651712".text ∧
      IsScriptText false rank "590295810358705700000".text ∧
      ¬ IsScriptText false rank (Binary64.finite false rank).text := by
  let r := nearestRank (2 ^ (69 : Nat) * 2 ^ (1074 : Nat)) 1
  have hshortest : shortest r = ⟨5902958103587057, 5⟩ := by decide +kernel
  have hscript := isScriptText_shortest (show 0 < r by decide +kernel) false
  rw [hshortest] at hscript
  have hdigits : scriptText 21 16 5902958103587057 = "590295810358705700000".text := by
    decide +kernel
  have htext : (Binary64.finite false ⟨r, by decide +kernel⟩).text
      = "590295810358705651712".text := by
    decide +kernel
  refine ⟨⟨r, by decide +kernel⟩, by decide +kernel, htext, hdigits ▸ hscript, fun h => ?_⟩
  have heq := (existsUnique_isScriptText false r).unique h (hdigits ▸ hscript)
  rw [htext] at heq
  exact absurd heq (by decide)

end LogSearch
