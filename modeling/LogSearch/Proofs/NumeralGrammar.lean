import LogSearch.Proofs.NumeralValue

/-!
# The grammar of numerals

A numeral is a sign, digits with a point, and an exponent, of which only one digit is needed; it
denotes a rational number.  The grammar stands here beside the reader, which cuts a text at its
digits, and the two agree.  So numbers are read by what is denoted and not by how it is spelled.

* `AreDigits`, `IsSign`, `IsMantissa`, `IsExponent`, `Denotes` — the grammar, each part with its
  value.  Digits of any script count.
* `denotes_iff` — the texts of the grammar are those that are read as numerals, with their numbers.
* `Binary64.nearest_mono` — rounding keeps the order of numbers.
* `numerals_by_value` — a text is read as a number if and only if it is a numeral with a finite
  nearest double, and the doubles are in the order of the numbers that the texts denote.
-/

namespace LogSearch

/-! ## The grammar -/

/-- Digits of any script, possibly none, and the number that they write. -/
inductive AreDigits : Text → Nat → Prop
  | nil : AreDigits [] 0
  | concat {w : Text} {c : CodePoint} {n d : Nat} : AreDigits w n → digit? c = some d →
      AreDigits (w ++ [c]) (10 * n + d)

/-- A sign, which may be missing, and the factor that it stands for. -/
inductive IsSign : Text → Int → Prop
  | none : IsSign [] 1
  | plus : IsSign [chr '+'] 1
  | minus : IsSign [chr '-'] (-1)

/-- Digits with at most one point among, behind or before them, and the number that they write. -/
inductive IsMantissa : Text → ℚ → Prop
  | whole {w : Text} {n : Nat} : w ≠ [] → AreDigits w n → IsMantissa w n
  | pointed {w f : Text} {n : Nat} : w ≠ [] → AreDigits (w ++ f) n →
      IsMantissa (w ++ chr '.' :: f) (n / 10 ^ f.length)
  | fraction {f : Text} {n : Nat} : f ≠ [] → AreDigits f n →
      IsMantissa (chr '.' :: f) (n / 10 ^ f.length)

/-- A power of ten, which may be missing: a mark, a sign and at least one digit. -/
inductive IsExponent : Text → Int → Prop
  | none : IsExponent [] 0
  | marked {c : CodePoint} {sign w : Text} {σ : Int} {n : Nat} : c = chr 'e' ∨ c = chr 'E' →
      IsSign sign σ →
      w ≠ [] → AreDigits w n → IsExponent (c :: (sign ++ w)) (σ * n)

/-- A text is a numeral, and denotes a number. -/
inductive Denotes : Text → ℚ → Prop
  | numeral {sign m x : Text} {σ k : Int} {v : ℚ} : IsSign sign σ → IsMantissa m v →
      IsExponent x k → Denotes (sign ++ (m ++ x)) (σ * v * 10 ^ k)

variable {s t w f x sign : Text} {c : CodePoint} {n : Nat} {k : Int} {p q : ℚ} {negative : Bool}

/-! ## Digits -/

/-- Digits are read one by one. -/
lemma areDigits_iff : AreDigits w n ↔ (∀ c ∈ w, isDigit c) ∧ ofDigits (w.filterMap digit?) = n := by
  constructor
  · intro h
    induction h with
    | nil => exact ⟨by simp, rfl⟩
    | @concat w c n d _ hd ih =>
        refine ⟨List.forall_mem_append.2 ⟨ih.1, by simp [isDigit, hd]⟩, ?_⟩
        rw [List.filterMap_append, List.filterMap_cons_some hd, List.filterMap_nil, ofDigits,
          List.foldl_append, ← ofDigits, ih.2]
        rfl
  · rintro ⟨hw, rfl⟩
    induction w using List.reverseRecOn with
    | nil => exact .nil
    | append_singleton w c ih =>
        obtain ⟨hw, hc⟩ := List.forall_mem_append.1 hw
        obtain ⟨d, hd⟩ := Option.isSome_iff_exists.1 (hc c List.mem_cons_self)
        rw [List.filterMap_append, List.filterMap_cons_some hd, List.filterMap_nil, ofDigits,
          List.foldl_append, ← ofDigits]
        exact .concat (ih hw) hd

lemma length_filterMap_digit? (h : ∀ c ∈ w, isDigit c) :
    (w.filterMap digit?).length = w.length := by
  induction w with
  | nil => rfl
  | cons c w ih =>
      obtain ⟨hc, hw⟩ := List.forall_mem_cons.1 h
      obtain ⟨d, hd⟩ := Option.isSome_iff_exists.1 hc
      rw [List.filterMap_cons_some hd, List.length_cons, List.length_cons, ih hw]

lemma filterMap_digit?_eq_nil_iff (h : ∀ c ∈ w, isDigit c) : w.filterMap digit? = [] ↔ w = [] := by
  rw [← List.length_eq_zero_iff, length_filterMap_digit? h, List.length_eq_zero_iff]

/-- Digits are cut off whole where something else follows. -/
lemma cut_digits (hw : ∀ c ∈ w, isDigit c) (ht : ∀ c ∈ t.head?, isDigit c = false) :
    Numeral.leadingDigits (w ++ t) = w.filterMap digit? ∧ (w ++ t).dropWhile isDigit = t := by
  obtain ⟨htake, hdrop⟩ := takeWhile_dropWhile_append hw ht
  exact ⟨by rw [Numeral.leadingDigits, htake], hdrop⟩

/-- A text starts with its leading digits. -/
lemma exists_digits (s : Text) : ∃ w t, s = w ++ t ∧ (∀ c ∈ w, isDigit c) ∧
    ∀ c ∈ t.head?, isDigit c = false :=
  ⟨s.takeWhile isDigit, s.dropWhile isDigit, List.takeWhile_append_dropWhile.symm,
    fun _ hc => List.mem_takeWhile_imp hc, fun _ hc => by
      have hhead := List.head?_dropWhile_not isDigit s
      rw [hc] at hhead
      simpa using hhead⟩

/-! ## Signs and exponents -/

namespace Numeral

/-- The factor of a sign. -/
def factor (negative : Bool) : Int :=
  if negative then -1 else 1

lemma exists_sign (s : Text) : ∃ sign, s = sign ++ (splitSign s).2 ∧
    IsSign sign (factor (splitSign s).1) := by
  unfold splitSign
  split
  · exact ⟨[chr '-'], rfl, .minus⟩
  · exact ⟨[chr '+'], rfl, .plus⟩
  · exact ⟨[], rfl, .none⟩

/-- A sign is split off in front of a text that has none. -/
lemma splitSign_of_isSign (h : IsSign sign k) (ht : ∀ c ∈ t.head?, isDigit c ∨ c = chr '.') :
    ∃ negative, splitSign (sign ++ t) = (negative, t) ∧ k = factor negative := by
  cases h with
  | plus => exact ⟨false, rfl, rfl⟩
  | minus => exact ⟨true, rfl, rfl⟩
  | none =>
      refine ⟨false, ?_, rfl⟩
      cases t with
      | nil => rfl
      | cons c t =>
          have hplus : ¬ (isDigit (chr '+') ∨ chr '+' = chr '.') := by decide
          have hminus : ¬ (isDigit (chr '-') ∨ chr '-' = chr '.') := by decide
          have hc := ht c rfl
          have hne : c ≠ chr '-' ∧ c ≠ chr '+' :=
            ⟨fun h => hminus (h ▸ hc), fun h => hplus (h ▸ hc)⟩
          simp [splitSign, hne]

lemma cast_factor (negative : Bool) (a : ℤ) :
    (if negative then -a else a) = factor negative * a := by
  cases negative <;> simp [factor]

lemma readExponent?_eq_some_iff : readExponent? t = some k ↔ IsExponent t k := by
  constructor
  · intro h
    cases t with
    | nil =>
        obtain rfl : 0 = k := by simpa [readExponent?] using h
        exact .none
    | cons c t =>
        obtain ⟨sign, ht, hsign⟩ := exists_sign t
        simp only [readExponent?] at h
        split at h
        · rename_i hdigits
          simp only [Bool.and_eq_true, Bool.or_eq_true, beq_iff_eq, Bool.not_eq_true',
            List.isEmpty_eq_false_iff, List.all_eq_true] at hdigits
          obtain ⟨⟨hmark, hne⟩, hall⟩ := hdigits
          obtain rfl := Option.some.inj h
          rw [cast_factor]
          nth_rewrite 1 [ht]
          refine .marked hmark hsign hne (areDigits_iff.2 ⟨hall, ?_⟩)
          rw [leadingDigits, List.takeWhile_eq_self_iff.2 hall]
        · simp at h
  · intro h
    cases h with
    | none => rfl
    | @marked c sign w σ n hmark hsign hne hw =>
        obtain ⟨hall, rfl⟩ := areDigits_iff.1 hw
        have hfirst : ∀ c ∈ w.head?, isDigit c ∨ c = chr '.' := fun c hc =>
          Or.inl (hall c (List.mem_of_mem_head? hc))
        obtain ⟨negative, hsplit, rfl⟩ := splitSign_of_isSign hsign hfirst
        have hif : ((c == chr 'e' || c == chr 'E') && !w.isEmpty && w.all isDigit) = true := by
          simpa [hne] using ⟨hmark, hall⟩
        simp only [readExponent?, hsplit, hif, if_true]
        rw [cast_factor, leadingDigits, List.takeWhile_eq_self_iff.2 hall]

/-- An exponent starts with its mark, and so not with a digit or a point. -/
lemma not_digit_of_isExponent (h : IsExponent t k) :
    ∀ c ∈ t.head?, isDigit c = false ∧ c ≠ chr '.' := by
  have hmarks : ∀ c, c = chr 'e' ∨ c = chr 'E' → isDigit c = false ∧ c ≠ chr '.' := by
    rintro c (rfl | rfl) <;> decide
  cases h with
  | none => simp
  | marked hmark _ _ _ =>
      intro c hc
      obtain rfl := Option.some.inj hc
      exact hmarks _ hmark

/-! ## Whole numerals -/

/-- The number of a numeral by its parts. -/
lemma value_eq (negative : Bool) (w f : List Nat) (k : Int) :
    value ⟨negative, w, f, k⟩
      = factor negative * (ofDigits (w ++ f) / 10 ^ f.length) * 10 ^ k := by
  have hpower : (10 : ℚ) ^ (k - f.length) = 10 ^ k / 10 ^ f.length := by
    rw [zpow_sub₀ (by norm_num), zpow_natCast]
  simp only [value, decimal, Decimal.value, lastPower, hpower]
  cases negative <;> simp [factor] <;> ring

/-- Digits, a point, more digits and an exponent behind a sign. -/
lemma read?_pointed (hs : splitSign s = (negative, w ++ chr '.' :: (f ++ x)))
    (hw : ∀ c ∈ w, isDigit c) (hf : ∀ c ∈ f, isDigit c) (hx : ∀ c ∈ x.head?, isDigit c = false) :
    read? s = if w = [] ∧ f = [] then none else (readExponent? x).map fun k =>
      ⟨negative, w.filterMap digit?, f.filterMap digit?, k⟩ := by
  obtain ⟨hdigits, hdrop⟩ := cut_digits (t := chr '.' :: (f ++ x)) hw (by simp; decide)
  obtain ⟨hdigits', hdrop'⟩ := cut_digits hf hx
  simp only [read?, hs, hdigits, hdrop, hdigits', hdrop', Bool.and_eq_true, List.isEmpty_iff,
    filterMap_digit?_eq_nil_iff hw, filterMap_digit?_eq_nil_iff hf]

/-- Digits and an exponent behind a sign. -/
lemma read?_whole (hs : splitSign s = (negative, w ++ x)) (hw : ∀ c ∈ w, isDigit c)
    (hx : ∀ c ∈ x.head?, isDigit c = false ∧ c ≠ chr '.') :
    read? s = if w = [] then none else (readExponent? x).map fun k =>
      ⟨negative, w.filterMap digit?, [], k⟩ := by
  obtain ⟨hdigits, hdrop⟩ := cut_digits hw fun c hc => (hx c hc).1
  simp only [read?, hs, hdigits, hdrop]
  split
  · rename_i r
    exact absurd rfl (hx (chr '.') rfl).2
  · simp [filterMap_digit?_eq_nil_iff hw]

/-- A mantissa starts with a digit or a point. -/
lemma head?_of_isMantissa {m : Text} {v : ℚ} (h : IsMantissa m v) :
    ∀ c ∈ (m ++ x).head?, isDigit c ∨ c = chr '.' := by
  have hdigits : ∀ {w t : Text}, w ≠ [] → (∀ c ∈ w, isDigit c) →
      ∀ c ∈ (w ++ t).head?, isDigit c ∨ c = chr '.' := fun hne hw c hc => by
    rw [List.head?_append_of_ne_nil _ hne] at hc
    exact Or.inl (hw c (List.mem_of_mem_head? hc))
  cases h with
  | whole hne hw => exact hdigits hne (areDigits_iff.1 hw).1
  | pointed hne hw =>
      rw [List.append_assoc]
      exact hdigits hne (List.forall_mem_append.1 (areDigits_iff.1 hw).1).1
  | fraction _ _ => simp

/-- Behind a sign, a mantissa and an exponent are read. -/
lemma exists_read?_of_isMantissa {m : Text} {v : ℚ} (hs : splitSign s = (negative, m ++ x))
    (hm : IsMantissa m v) (hx : IsExponent x k) :
    ∃ n, read? s = some n ∧ n.value = factor negative * v * 10 ^ k := by
  have hexponent := readExponent?_eq_some_iff.2 hx
  have hnext := not_digit_of_isExponent hx
  cases hm with
  | whole hne hm =>
      obtain ⟨hall, rfl⟩ := areDigits_iff.1 hm
      refine ⟨⟨negative, m.filterMap digit?, [], k⟩, ?_, ?_⟩
      · rw [read?_whole hs hall hnext, if_neg hne, hexponent, Option.map_some]
      · rw [value_eq, List.append_nil, List.length_nil, pow_zero, div_one]
  | @pointed w f n hne hw =>
      obtain ⟨hall, rfl⟩ := areDigits_iff.1 hw
      obtain ⟨hw, hf⟩ := List.forall_mem_append.1 hall
      rw [List.append_assoc, List.cons_append] at hs
      refine ⟨⟨negative, w.filterMap digit?, f.filterMap digit?, k⟩, ?_, ?_⟩
      · rw [read?_pointed hs hw hf fun c hc => (hnext c hc).1, if_neg fun h => hne h.1, hexponent,
          Option.map_some]
      · rw [value_eq, ← List.filterMap_append, length_filterMap_digit? hf]
  | @fraction f n hne hw =>
      obtain ⟨hf, rfl⟩ := areDigits_iff.1 hw
      refine ⟨⟨negative, [], f.filterMap digit?, k⟩, ?_, ?_⟩
      · rw [read?_pointed (w := []) hs (by simp) hf fun c hc => (hnext c hc).1,
          if_neg fun h => hne h.2, hexponent, Option.map_some, List.filterMap_nil]
      · rw [value_eq, List.nil_append, length_filterMap_digit? hf]

/-- What is read behind a sign is a mantissa and an exponent. -/
lemma exists_isMantissa_of_read? {n : Numeral} (h : read? s = some n) :
    ∃ m x v k, (splitSign s).2 = m ++ x ∧ IsMantissa m v ∧ IsExponent x k ∧
      n.value = factor (splitSign s).1 * v * 10 ^ k := by
  obtain ⟨w, r, hs, hw, hr⟩ := exists_digits (splitSign s).2
  by_cases hpoint : r.head? = some (chr '.')
  · obtain ⟨r', rfl⟩ := List.head?_eq_some_iff.1 hpoint
    obtain ⟨f, x, rfl, hf, hx⟩ := exists_digits r'
    rw [read?_pointed (Prod.ext rfl hs) hw hf hx] at h
    split at h
    · simp at h
    · rename_i hne
      obtain ⟨k, hk, rfl⟩ := Option.map_eq_some_iff.1 h
      have hdigits : AreDigits (w ++ f) (ofDigits ((w ++ f).filterMap digit?)) :=
        areDigits_iff.2 ⟨List.forall_mem_append.2 ⟨hw, hf⟩, rfl⟩
      refine ⟨w ++ chr '.' :: f, x, ofDigits ((w ++ f).filterMap digit?) / 10 ^ f.length, k, ?_, ?_,
        readExponent?_eq_some_iff.1 hk, ?_⟩
      · rw [hs, List.append_assoc, List.cons_append]
      · by_cases hempty : w = []
        · subst hempty
          exact .fraction (fun hf => hne ⟨rfl, hf⟩) hdigits
        · exact .pointed hempty hdigits
      · rw [value_eq, ← List.filterMap_append, length_filterMap_digit? hf]
  · have hx : ∀ c ∈ r.head?, isDigit c = false ∧ c ≠ chr '.' := fun c hc =>
      ⟨hr c hc, fun h => hpoint (h ▸ hc)⟩
    rw [read?_whole (Prod.ext rfl hs) hw hx] at h
    split at h
    · simp at h
    · rename_i hne
      obtain ⟨k, hk, rfl⟩ := Option.map_eq_some_iff.1 h
      refine ⟨w, r, ofDigits (w.filterMap digit?), k, hs, .whole hne (areDigits_iff.2 ⟨hw, rfl⟩),
        readExponent?_eq_some_iff.1 hk, ?_⟩
      rw [value_eq, List.append_nil, List.length_nil, pow_zero, div_one]

end Numeral

/-- **Numerals are what is read.**  A text denotes a number if and only if it is read as a numeral
of that number. -/
theorem denotes_iff : Denotes s q ↔ ∃ n : Numeral, Numeral.read? s = some n ∧ n.value = q := by
  constructor
  · intro h
    cases h with
    | numeral hsign hm hx =>
        obtain ⟨negative, hsplit, rfl⟩ :=
          Numeral.splitSign_of_isSign hsign (Numeral.head?_of_isMantissa hm)
        exact Numeral.exists_read?_of_isMantissa hsplit hm hx
  · rintro ⟨n, hread, rfl⟩
    obtain ⟨sign, hs, hsign⟩ := Numeral.exists_sign s
    obtain ⟨m, x, v, k, hbody, hm, hx, hvalue⟩ := Numeral.exists_isMantissa_of_read? hread
    rw [hbody] at hs
    have hdenotes := Denotes.numeral hsign hm hx
    rwa [← hs, ← hvalue] at hdenotes

/-- A text denotes at most one number. -/
lemma Denotes.unique (hp : Denotes s p) (hq : Denotes s q) : p = q := by
  obtain ⟨n, hn, rfl⟩ := denotes_iff.1 hp
  obtain ⟨n', hn', rfl⟩ := denotes_iff.1 hq
  rw [Option.some.inj (hn.symm.trans hn')]

/-! ## Doubles in order -/

namespace Binary64

variable {x y : Binary64}

/-- Both doubles are finite, and the first one is numerically at most the second one. -/
def AtMost (x y : Binary64) : Prop :=
  ∃ v w, x.toRat? = some v ∧ y.toRat? = some w ∧ v ≤ w

/-- What the nearest double stands for. -/
lemma toRat?_nearest (hq : |q| < 2 ^ 1024 - 2 ^ 970) : (nearest q).toRat?
    = some (if q < 0 then -magnitude (rankOf |q|) else magnitude (rankOf |q|)) := by
  obtain ⟨rank, hrank, hnearest⟩ := exists_nearest_eq hq
  rw [hnearest, ← hrank]
  simp [toRat?]

/-- A number has a finite nearest double below the middle between the last of these and
`2 ^ 1024`. -/
lemma isFinite_nearest_iff : (nearest q).isFinite ↔ |q| < 2 ^ 1024 - 2 ^ 970 := by
  rw [nearest, isFinite_ofRank, rankOf_lt_finiteRanks_iff (abs_nonneg q)]

/-- **Rounding keeps the order.** -/
theorem nearest_mono (hp : |p| < 2 ^ 1024 - 2 ^ 970) (hq : |q| < 2 ^ 1024 - 2 ^ 970) (h : p ≤ q) :
    (nearest p).AtMost (nearest q) := by
  refine ⟨_, _, toRat?_nearest hp, toRat?_nearest hq, ?_⟩
  have hmono : ∀ {a b : ℚ}, |a| ≤ |b| → magnitude (rankOf |a|) ≤ magnitude (rankOf |b|) :=
    fun hab => magnitude_strictMono.monotone (rankOf_mono (abs_nonneg _) hab)
  have hp0 := magnitude_nonneg (rankOf |p|)
  have hq0 := magnitude_nonneg (rankOf |q|)
  by_cases hneg : q < 0
  · have hpneg := h.trans_lt hneg
    rw [if_pos hneg, if_pos hpneg, neg_le_neg_iff]
    refine hmono ?_
    rw [abs_of_neg hneg, abs_of_neg hpneg]
    exact neg_le_neg h
  · rw [if_neg hneg]
    split
    · linarith
    · rename_i hpos
      refine hmono ?_
      rwa [abs_of_nonneg (not_lt.1 hpos), abs_of_nonneg (not_lt.1 hneg)]

end Binary64

/-! ## Reading -/

/-- A numeral is read as a number if its nearest double is finite, and as no number otherwise. -/
lemma readNumber?_of_denotes (h : Denotes s q) :
    (readNumber? s).isSome ↔ |q| < 2 ^ 1024 - 2 ^ 970 := by
  obtain ⟨n, hn, rfl⟩ := denotes_iff.1 h
  obtain ⟨hread, hnone⟩ := Numeral.readNumber?_of_read? hn
  constructor
  · intro hsome
    by_contra hlarge
    rw [hnone (not_lt.1 hlarge)] at hsome
    simp at hsome
  · intro hlt
    obtain ⟨x, hx, -⟩ := hread hlt
    rw [hx]
    rfl

/-- What is read is nearest to the number that the text denotes. -/
lemma isNearest_of_readNumber? {x : Binary64} (hx : readNumber? s = some x) (h : Denotes s q) :
    |q| < 2 ^ 1024 - 2 ^ 970 ∧ x.IsNearest q := by
  have hlt := (readNumber?_of_denotes h).1 (by rw [hx]; rfl)
  obtain ⟨n, hn, rfl⟩ := denotes_iff.1 h
  obtain ⟨y, hy, -, hnearest⟩ := (Numeral.readNumber?_of_read? hn).1 hlt
  rw [Option.some.inj (hx.symm.trans hy)]
  exact ⟨hlt, hnearest⟩

/-- **Numerals are read by value.**  A text denotes at most one number.  It is read as a number if
and only if it is a numeral whose nearest double is finite, and that is so below the middle between
the last finite double and `2 ^ 1024`.  The double is nearest to the number that the text denotes.
Of two texts the doubles are in the order of the numbers that the texts denote, and numerically
equal if these are equal. -/
theorem numerals_by_value :
    (∀ s p q, Denotes s p → Denotes s q → p = q) ∧
    (∀ s, (readNumber? s).isSome ↔ ∃ q, Denotes s q ∧ (Binary64.nearest q).isFinite) ∧
    (∀ q, (Binary64.nearest q).isFinite ↔ |q| < 2 ^ 1024 - 2 ^ 970) ∧
    ∀ a b x y p q, readNumber? a = some x → readNumber? b = some y → Denotes a p → Denotes b q →
      x.IsNearest p ∧ (p ≤ q → x.AtMost y) ∧ (p = q → x.toRat? = y.toRat?) := by
  refine ⟨fun s p q => Denotes.unique, fun s => ⟨fun h => ?_, ?_⟩,
    fun q => Binary64.isFinite_nearest_iff, ?_⟩
  · obtain ⟨x, hx⟩ := Option.isSome_iff_exists.1 h
    obtain ⟨hmap, -⟩ := Option.filter_eq_some_iff.1 hx
    obtain ⟨n, hn, -⟩ := Option.map_eq_some_iff.1 hmap
    have hdenotes : Denotes s n.value := denotes_iff.2 ⟨n, hn, rfl⟩
    exact ⟨n.value, hdenotes,
      Binary64.isFinite_nearest_iff.2 ((readNumber?_of_denotes hdenotes).1 h)⟩
  · rintro ⟨q, hq, hfinite⟩
    exact (readNumber?_of_denotes hq).2 (Binary64.isFinite_nearest_iff.1 hfinite)
  · intro a b x y p q hx hy hp hq
    obtain ⟨hlt, hnearest⟩ := isNearest_of_readNumber? hx hp
    obtain ⟨hlt', hnearest'⟩ := isNearest_of_readNumber? hy hq
    have hrat := (Binary64.isNearest_iff hlt).1 hnearest
    have hrat' := (Binary64.isNearest_iff hlt').1 hnearest'
    refine ⟨hnearest, fun hle => ?_, fun heq => ?_⟩
    · obtain ⟨v, w, hv, hw, hvw⟩ := Binary64.nearest_mono hlt hlt' hle
      exact ⟨v, w, hrat.trans hv, hrat'.trans hw, hvw⟩
    · rw [hrat, hrat', heq]

/-- A negative number that is too small for any double but zero, and three and a half in two scripts
and spellings. -/
theorem numerals_by_value_small :
    ∃ x y z p q, readNumber? "-1e-400".text = some x ∧ readNumber? "٣.٥".text = some y ∧
      readNumber? "+035E-01".text = some z ∧ Denotes "-1e-400".text p ∧
      Denotes "٣.٥".text q ∧ Denotes "+035E-01".text q ∧ p < 0 ∧ q = 7 / 2 ∧
      x = .finite true 0 ∧ x.IsNearest p ∧ x.AtMost y ∧ y.toRat? = z.toRat? := by
  have hx : readNumber? "-1e-400".text = some (.finite true 0) := by decide +kernel
  have hy : readNumber? "٣.٥".text = some (.ofBits 0x400c000000000000) := by decide +kernel
  have hz : readNumber? "+035E-01".text = some (.ofBits 0x400c000000000000) := by decide +kernel
  have hp : Denotes "-1e-400".text (Numeral.value ⟨true, [1], [], -400⟩) :=
    denotes_iff.2 ⟨_, rfl, rfl⟩
  have hneg : Numeral.value ⟨true, [1], [], -400⟩ < 0 := by
    simp only [Numeral.value, Numeral.decimal, Decimal.value, Numeral.lastPower, ofDigits]
    simp
  have hq : Denotes "٣.٥".text (7 / 2) := by
    refine denotes_iff.2 ⟨⟨false, [3], [5], 0⟩, rfl, ?_⟩
    norm_num [Numeral.value, Numeral.decimal, Decimal.value, Numeral.lastPower, ofDigits]
  have hq' : Denotes "+035E-01".text (7 / 2) := by
    refine denotes_iff.2 ⟨⟨false, [0, 3, 5], [], -1⟩, rfl, ?_⟩
    norm_num [Numeral.value, Numeral.decimal, Decimal.value, Numeral.lastPower, ofDigits]
  obtain ⟨-, -, -, horder⟩ := numerals_by_value
  obtain ⟨hnearest, hle, -⟩ := horder _ _ _ _ _ _ hx hy hp hq
  obtain ⟨-, -, heq⟩ := horder _ _ _ _ _ _ hy hz hq hq'
  have hpq : Numeral.value ⟨true, [1], [], -400⟩ ≤ 7 / 2 := hneg.le.trans (by norm_num)
  exact ⟨_, _, _, _, _, hx, hy, hz, hp, hq, hq', hneg, rfl, rfl, hnearest, hle hpq, heq rfl⟩

end LogSearch
