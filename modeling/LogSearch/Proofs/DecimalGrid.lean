import LogSearch.Proofs.DecimalValue

/-!
# Decimal grids

The decimals that end at one power of ten are a grid.  The two points of a grid around a magnitude
are the only ones that have to be tried: if any point reads as the rank of the magnitude, so does
one of these two, and then one of them is the nearest that does.

* `unitsOrder_bounds` — the power of ten of the first digit of a magnitude.
* `Around` — the two whole numbers around a number, the nearer one first, with one lemma for each of
  the two as the nearest.
* `Picked`, `find?_decimalNeighbours` — what comes of trying a grid.
* `exists_shortest_eq` — the search ends on the first grid that has a point which reads back.
-/

namespace LogSearch

-- Powers of natural numbers are those of natural numbers, whatever algebra is in scope.
attribute [local instance (high)] instPowNat

variable {x : ℚ} {p : ℤ} {r num den near far : Nat} {d : Decimal}

/-! ## The first digit -/

lemma ten_zpow_pos (e : ℤ) : (0 : ℚ) < 10 ^ e :=
  zpow_pos (by norm_num) e

/-- The number of digits tells between which powers of ten a whole number lies. -/
lemma length_digitsOf_eq_iff {n k : Nat} (hk : 0 < k) (hn : 0 < n) :
    (digitsOf n).length = k ↔ 10 ^ (k - 1) ≤ n ∧ n < 10 ^ k := by
  have hupper := length_digitsOf_le_iff (n := n) hk
  rcases Nat.eq_or_lt_of_le (Nat.succ_le_of_lt hk) with rfl | hlong
  · have hpos : 0 < (digitsOf n).length := length_digitsOf_pos
    simp only [Nat.sub_self, Nat.pow_zero]
    omega
  · have hlower := length_digitsOf_le_iff (n := n) (k := k - 1) (by omega)
    omega

/-- The order of a magnitude is the power of ten of its first digit. -/
lemma unitsOrder_bounds (hr : 0 < r) :
    (10 : ℚ) ^ unitsOrder (units r) ≤ magnitude r ∧
      magnitude r < 10 ^ (unitsOrder (units r) + 1) := by
  have hunits : 0 < units r := (Nat.zero_le _).trans_lt (units_strictMono hr)
  rw [magnitude_eq, unitsOrder]
  generalize units r = u at *
  have htwo : 2 ^ (1074 : Nat) ≤ 10 ^ (324 : Nat) := by decide +kernel
  have hpos : 0 < 2 ^ (1074 : Nat) := Nat.two_pow_pos 1074
  generalize 2 ^ (1074 : Nat) = two at *
  have hwhole : 0 < u * 10 ^ (324 : Nat) / two :=
    Nat.div_pos (htwo.trans (Nat.le_mul_of_pos_left _ hunits)) hpos
  generalize hk : (digitsOf (u * 10 ^ (324 : Nat) / two)).length = k at *
  have hkpos : 0 < k := hk ▸ length_digitsOf_pos
  obtain ⟨hlow, hhigh⟩ := (length_digitsOf_eq_iff hkpos hwhole).1 hk
  rw [Nat.le_div_iff_mul_le hpos] at hlow
  rw [Nat.div_lt_iff_lt_mul hpos] at hhigh
  have htwo' : (0 : ℚ) < two := Nat.cast_pos.2 hpos
  have hshift : ∀ t e : ℕ, (10 : ℚ) ^ ((e : ℤ) - t) * ((10 ^ t : ℕ) : ℚ) = ((10 ^ e : ℕ) : ℚ) := by
    intro t e
    rw [Nat.cast_pow, Nat.cast_pow, Nat.cast_ofNat, ← zpow_natCast, ← zpow_natCast,
      ← zpow_add₀ (by norm_num), sub_add_cancel]
  have hlow' := hshift 324 (k - 1)
  have hhigh' := hshift 324 k
  have hten : ∀ t : ℕ, 0 < 10 ^ t := fun t => Nat.pow_pos (by omega)
  specialize hten 324
  generalize 10 ^ (324 : Nat) = ten at *
  have hten' : (0 : ℚ) < ten := Nat.cast_pos.2 hten
  constructor
  · rw [le_div_iff₀ htwo', ← mul_le_mul_iff_left₀ hten', mul_right_comm,
      show (k : ℤ) - 325 = (k - 1 : ℕ) - (324 : ℕ) by omega, hlow']
    exact_mod_cast hlow
  · rw [div_lt_iff₀ htwo', ← mul_lt_mul_iff_left₀ hten', mul_right_comm,
      show (k : ℤ) - 325 + 1 = k - (324 : ℕ) by omega, hhigh']
    exact_mod_cast hhigh

/-! ## The neighbours of a number -/

/-- A whole number lies between a number and another whole number. -/
def Beyond (x : ℚ) (a c : Nat) : Prop :=
  c < a ∧ (a : ℚ) ≤ x ∨ a < c ∧ x ≤ a

/-- Beyond a whole number the distance is larger by one at least. -/
lemma Beyond.add_one_le {a c : Nat} (h : Beyond x a c) : |a - x| + 1 ≤ |c - x| := by
  rcases h with ⟨hc, ha⟩ | ⟨hc, ha⟩
  · have hle : (c : ℚ) + 1 ≤ a := by exact_mod_cast hc
    rw [abs_of_nonpos (by linarith), abs_of_nonpos (by linarith)]
    linarith
  · have hle : (a : ℚ) + 1 ≤ c := by exact_mod_cast hc
    rw [abs_of_nonneg (by linarith), abs_of_nonneg (by linarith)]
    linarith

/-- Two whole numbers around a number, the nearer one first; a tie starts with the even one. -/
structure Around (x : ℚ) (near far : Nat) : Prop where
  adjacent : near + 1 = far ∧ (near : ℚ) ≤ x ∧ x < far ∨ far + 1 = near ∧ (far : ℚ) ≤ x ∧ x < near
  nearer : |near - x| ≤ |far - x|
  even_of_tie : |near - x| = |far - x| → near % 2 = 0

lemma exists_around (num : Nat) (hden : 0 < den) :
    ∃ near far, neighbours num den = [near, far] ∧ Around (num / den) near far := by
  have hdenq : (0 : ℚ) < den := Nat.cast_pos.2 hden
  obtain ⟨f, hx, hfrac, hlow, hhigh⟩ : ∃ f : ℚ, (num : ℚ) / den = (num / den : ℕ) + f ∧
      f * den = (num % den : ℕ) ∧ 0 ≤ f ∧ f < 1 := by
    refine ⟨((num % den : ℕ) : ℚ) / den, ?_, div_mul_cancel₀ _ hdenq.ne', by positivity, ?_⟩
    · have hnum : (den : ℚ) * (num / den : ℕ) + (num % den : ℕ) = num := by
        exact_mod_cast Nat.div_add_mod num den
      rw [← hnum]
      field_simp
    · rw [div_lt_one hdenq]
      exact_mod_cast Nat.mod_lt num hden
  have hless : 2 * (num % den) < den ↔ 2 * f < 1 := by
    rw [← Nat.cast_lt (α := ℚ), Nat.cast_mul, ← hfrac, Nat.cast_ofNat, ← mul_assoc,
      mul_lt_iff_lt_one_left hdenq]
  have hhalf : 2 * (num % den) = den ↔ 2 * f = 1 := by
    rw [← Nat.cast_inj (R := ℚ), Nat.cast_mul, ← hfrac, Nat.cast_ofNat, ← mul_assoc,
      mul_eq_right₀ hdenq.ne']
  rw [neighbours, roundHalfEven, hx]
  generalize num / den = whole at *
  simp only [hless, hhalf, Bool.or_eq_true, Bool.and_eq_true, decide_eq_true_eq, beq_iff_eq]
  have hwhole : |(whole : ℚ) - (whole + f)| = f := by
    rw [sub_add_cancel_left, abs_neg, abs_of_nonneg hlow]
  have hnext : |((whole + 1 : ℕ) : ℚ) - (whole + f)| = 1 - f := by
    rw [Nat.cast_succ, add_sub_add_left_eq_sub, abs_of_nonneg (by linarith)]
  have hcast : ((whole + 1 : ℕ) : ℚ) = whole + 1 := Nat.cast_succ whole
  by_cases hnear : 2 * f < 1 ∨ 2 * f = 1 ∧ whole % 2 = 0
  · rw [if_pos hnear]
    refine ⟨whole, whole + 1, by simp, Or.inl ⟨rfl, by linarith, by linarith⟩, ?_, fun htie => ?_⟩
    · rw [hwhole, hnext]
      rcases hnear with hlt | ⟨heq, -⟩ <;> linarith
    · rw [hwhole, hnext] at htie
      exact (hnear.resolve_left (by linarith)).2
  · rw [if_neg hnear]
    have hfar : 1 ≤ 2 * f := not_lt.1 fun hlt => hnear (Or.inl hlt)
    refine ⟨whole + 1, whole, by simp, Or.inr ⟨rfl, by linarith, by linarith⟩, ?_, fun htie => ?_⟩
    · rw [hwhole, hnext]
      linarith
    · rw [hwhole, hnext] at htie
      have hodd : whole % 2 ≠ 0 := fun heven => hnear (Or.inr ⟨by linarith, heven⟩)
      omega

namespace Around

lemma cases (h : Around x near far) (c : Nat) :
    c = near ∨ c = far ∨ Beyond x near c ∨ Beyond x far c := by
  rcases h.adjacent with ⟨rfl, hlow, hhigh⟩ | ⟨rfl, hlow, hhigh⟩
  · rcases Nat.lt_trichotomy c near with hc | rfl | hc
    · exact Or.inr (Or.inr (Or.inl (Or.inl ⟨hc, hlow⟩)))
    · exact Or.inl rfl
    · rcases Nat.eq_or_lt_of_le (Nat.succ_le_of_lt hc) with rfl | hc
      · exact Or.inr (Or.inl rfl)
      · exact Or.inr (Or.inr (Or.inr (Or.inr ⟨hc, hhigh.le⟩)))
  · rcases Nat.lt_trichotomy c far with hc | rfl | hc
    · exact Or.inr (Or.inr (Or.inr (Or.inl ⟨hc, hlow⟩)))
    · exact Or.inr (Or.inl rfl)
    · rcases Nat.eq_or_lt_of_le (Nat.succ_le_of_lt hc) with rfl | hc
      · exact Or.inl rfl
      · exact Or.inr (Or.inr (Or.inl (Or.inr ⟨hc, hhigh.le⟩)))

/-- The nearer one is the nearest of all whole numbers. -/
lemma near_nearest (h : Around x near far) (c : Nat) : |near - x| ≤ |c - x| ∧
    (|near - x| = |c - x| → c = near ∨ near % 2 = 0 ∧ c % 2 = 1) := by
  have hnearer := h.nearer
  rcases h.cases c with rfl | rfl | hc | hc
  · exact ⟨le_rfl, fun _ => Or.inl rfl⟩
  · refine ⟨hnearer, fun htie => Or.inr ?_⟩
    have heven := h.even_of_tie htie
    rcases h.adjacent with ⟨hstep, -⟩ | ⟨hstep, -⟩ <;> omega
  · have hfar := hc.add_one_le
    exact ⟨by linarith, fun htie => by linarith⟩
  · have hfar := hc.add_one_le
    exact ⟨by linarith, fun htie => by linarith⟩

/-- The farther one is the nearest of all that the nearer one does not lie before. -/
lemma far_nearest (h : Around x near far) {c : Nat} (hne : c ≠ near) (hc : ¬ Beyond x near c) :
    |far - x| ≤ |c - x| ∧ (|far - x| = |c - x| → c = far) := by
  rcases h.cases c with rfl | rfl | hbeyond | hbeyond
  · exact absurd rfl hne
  · exact ⟨le_rfl, fun _ => rfl⟩
  · exact absurd hbeyond hc
  · have hfar := hbeyond.add_one_le
    exact ⟨by linarith, fun htie => by linarith⟩

lemma bounds (h : Around x near far) : ∀ c ∈ [near, far], (c : ℚ) ≤ x + 1 ∧ x < c + 1 := by
  simp only [List.forall_mem_cons, List.not_mem_nil, false_imp_iff, implies_true, and_true]
  rcases h.adjacent with ⟨rfl, hlow, hhigh⟩ | ⟨rfl, hlow, hhigh⟩ <;> rw [Nat.cast_succ] at *
  · exact ⟨⟨by linarith, by linarith⟩, by linarith, by linarith⟩
  · exact ⟨⟨by linarith, by linarith⟩, by linarith, by linarith⟩

end Around

/-! ## The neighbours on a grid -/

lemma value_mk (c : Nat) (p : ℤ) : Decimal.value ⟨c, p⟩ = c * 10 ^ p := rfl

/-- What lies between a magnitude and a decimal that reads as its rank reads as that rank. -/
lemma rank_of_beyond {a c : Nat} (hc : Decimal.rank ⟨c, p⟩ = r)
    (h : Beyond (magnitude r / 10 ^ p) a c) : Decimal.rank ⟨a, p⟩ = r := by
  have hp := ten_zpow_pos p
  rw [Decimal.rank_eq_rankOf] at hc ⊢
  refine rankOf_eq_of_between (Decimal.value_nonneg _) (Decimal.value_nonneg _) hc ?_
  rw [value_mk, value_mk, mul_le_mul_iff_left₀ hp, mul_le_mul_iff_left₀ hp, Nat.cast_le,
    Nat.cast_le, ← le_div_iff₀ hp, ← div_le_iff₀ hp]
  exact h.imp (fun h => ⟨h.1.le, h.2⟩) fun h => ⟨h.2, h.1.le⟩

/-- The choice on a grid: of the decimals that read as a rank, the one nearest to the magnitude.  If
another one is equally near, the one that is chosen is even. -/
structure Picked (r : Nat) (p : ℤ) (c : Nat) : Prop where
  rank_eq : Decimal.rank ⟨c, p⟩ = r
  le : (c : ℚ) ≤ magnitude r / 10 ^ p + 1
  lt : magnitude r / 10 ^ p < c + 1
  nearest : ∀ c', Decimal.rank ⟨c', p⟩ = r →
    |c * 10 ^ p - magnitude r| ≤ |c' * 10 ^ p - magnitude r| ∧
      (|c * 10 ^ p - magnitude r| = |c' * 10 ^ p - magnitude r| → c' = c ∨ c % 2 = 0 ∧ c' % 2 = 1)

/-- The decimals that are tried on a grid. -/
lemma exists_decimalNeighbours (r : Nat) (p : ℤ) : ∃ near far,
    decimalNeighbours (units r) p = [⟨near, p⟩, ⟨far, p⟩] ∧
      Around (magnitude r / 10 ^ p) near far := by
  have htwo : 0 < 2 ^ (1074 : Nat) := Nat.two_pow_pos 1074
  have hten : 0 < 10 ^ p.toNat := Nat.pow_pos (by omega)
  obtain ⟨near, far, hneighbours, haround⟩ :=
    exists_around (units r * 10 ^ (-p).toNat) (Nat.mul_pos htwo hten)
  refine ⟨near, far, by rw [decimalNeighbours, hneighbours]; rfl, ?_⟩
  have hquot : ((units r * 10 ^ (-p).toNat : ℕ) : ℚ) / ((2 ^ (1074 : Nat) * 10 ^ p.toNat : ℕ) : ℚ)
      = magnitude r / 10 ^ p := by
    have hpower : (10 : ℚ) ^ p = 10 ^ p.toNat / 10 ^ (-p).toNat := by
      rw [← zpow_natCast, ← zpow_natCast, ← zpow_sub₀ (by norm_num)]
      congr 1
      omega
    rw [magnitude_eq]
    generalize 2 ^ (1074 : Nat) = two
    simp only [hpower, Nat.cast_mul, Nat.cast_pow, Nat.cast_ofNat]
    rw [div_div_div_eq]
  rwa [hquot] at haround

/-- What comes of trying a grid. -/
theorem find?_decimalNeighbours (r : Nat) (p : ℤ) :
    ((decimalNeighbours (units r) p).find? (·.rank == r) = none ∧
      ∀ c, Decimal.rank ⟨c, p⟩ ≠ r) ∨
    ∃ c, (decimalNeighbours (units r) p).find? (·.rank == r) = some ⟨c, p⟩ ∧ Picked r p c := by
  have hp := ten_zpow_pos p
  obtain ⟨near, far, hneighbours, haround⟩ := exists_decimalNeighbours r p
  have hscale : ∀ c : ℕ,
      |c * 10 ^ p - magnitude r| = |(c : ℚ) - magnitude r / 10 ^ p| * 10 ^ p := by
    intro c
    have hmul := abs_mul ((c : ℚ) - magnitude r / 10 ^ p) (10 ^ p)
    rwa [sub_mul, div_mul_cancel₀ _ hp.ne', abs_of_pos hp] at hmul
  have hbounds := haround.bounds
  rw [hneighbours]
  by_cases hnear : Decimal.rank ⟨near, p⟩ = r
  · refine Or.inr ⟨near, by simp [hnear], hnear, (hbounds near (by simp)).1,
      (hbounds near (by simp)).2, fun c _ => ?_⟩
    simp only [hscale, mul_le_mul_iff_left₀ hp, mul_left_inj' hp.ne']
    exact haround.near_nearest c
  · have hside : ∀ c, Decimal.rank ⟨c, p⟩ = r → |(far : ℚ) - magnitude r / 10 ^ p| ≤
        |c - magnitude r / 10 ^ p| ∧ (|(far : ℚ) - magnitude r / 10 ^ p| =
          |c - magnitude r / 10 ^ p| → c = far) := by
      intro c hc
      exact haround.far_nearest (fun h => hnear (h ▸ hc)) fun h => hnear (rank_of_beyond hc h)
    by_cases hfar : Decimal.rank ⟨far, p⟩ = r
    · refine Or.inr ⟨far, by simp [hnear, hfar], hfar, (hbounds far (by simp)).1,
        (hbounds far (by simp)).2, fun c hc => ?_⟩
      simp only [hscale, mul_le_mul_iff_left₀ hp, mul_left_inj' hp.ne']
      exact ⟨(hside c hc).1, fun htie => Or.inl ((hside c hc).2 htie)⟩
    · refine Or.inl ⟨by simp [hnear, hfar], fun c hc => ?_⟩
      rcases haround.cases c with rfl | rfl | hbeyond | hbeyond
      · exact hnear hc
      · exact hfar hc
      · exact hnear (rank_of_beyond hc hbeyond)
      · exact hfar (rank_of_beyond hc hbeyond)

/-! ## The search -/

lemma findSome?_range_eq_some {α : Type} {f : Nat → Option α} {n : Nat} {a : α}
    (h : (List.range n).findSome? f = some a) :
    ∃ k < n, f k = some a ∧ ∀ j < k, f j = none := by
  induction n with
  | zero => simp at h
  | succ n ih =>
      rw [List.range_succ, List.findSome?_append, Option.or_eq_some_iff] at h
      rcases h with h | ⟨hnone, h⟩
      · obtain ⟨k, hk, hfound⟩ := ih h
        exact ⟨k, Nat.lt_succ_of_lt hk, hfound⟩
      · refine ⟨n, Nat.lt_succ_self n, by simpa using h, fun j hj => ?_⟩
        exact List.findSome?_eq_none_iff.1 hnone j (List.mem_range.2 hj)

/-- **The search.**  The shortest decimal of a rank is picked on the first grid that has one. -/
theorem exists_shortest_eq (r : Nat) : ∃ more c : Nat,
    shortest r = ⟨c, unitsOrder (units r) - more⟩ ∧ Picked r (unitsOrder (units r) - more) c ∧
      ∀ j < more, ∀ c, Decimal.rank ⟨c, unitsOrder (units r) - j⟩ ≠ r := by
  rw [shortest]
  generalize horder : unitsOrder (units r) = order
  have hlong : -1074 ≤ order := by
    rw [← horder, unitsOrder]
    have hpos : 0 < (digitsOf (units r * 10 ^ (324 : Nat) / 2 ^ (1074 : Nat))).length :=
      length_digitsOf_pos
    omega
  cases hfound : (List.range (order + 1075).toNat).findSome? fun more : Nat =>
      (decimalNeighbours (units r) (order - more)).find? (·.rank == r) with
  | some d =>
      obtain ⟨more, -, hd, hbefore⟩ := findSome?_range_eq_some hfound
      rcases find?_decimalNeighbours r (order - more) with ⟨hnone, -⟩ | ⟨c, hc, hpicked⟩
      · simp [hnone] at hd
      · refine ⟨more, c, ?_, hpicked, fun j hj => ?_⟩
        · rw [Option.getD_some]
          exact Option.some_inj.1 (hd.symm.trans hc)
        · rcases find?_decimalNeighbours r (order - j) with ⟨-, hnone⟩ | ⟨c, hc, -⟩
          · exact hnone
          · simp [hbefore j hj] at hc
  | none =>
      -- the last grid holds the magnitude itself
      have hlast := List.findSome?_eq_none_iff.1 hfound (order + 1074).toNat (by simp; omega)
      have hpower : order - ((order + 1074).toNat : ℤ) = -1074 := by omega
      rw [hpower] at hlast
      rcases find?_decimalNeighbours r (-1074) with ⟨-, hnone⟩ | ⟨c, hc, -⟩
      · exact absurd (rank_exact r) (hnone _)
      · simp [hlast] at hc

end LogSearch
