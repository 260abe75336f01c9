import LogSearch.Number.Written
import LogSearch.Proofs.DecimalValue
import LogSearch.Query.Params

/-!
# Reading written numbers

A finite number is written with all digits of a whole number, with a point among or before its
shortest digits, or with an exponent.  All three are one layout, whose number is told by its digits
and by where the point stands; reading gives the double nearest to that number.

* `Layout` — digits, more digits after a point, and an exponent, with `Layout.number`.
* `Layout.readNumber?_text` — what is read from a layout.
* `Layout.exists_magnitudeText` — every magnitude is written in a layout of a number that rounds to
  it, in each of the three forms.
* `readNumber?_text` — so a number is read back, and zero without its sign.
* `written_numbers_read_back` — the flags of two comparisons have one name if and only if their
  numbers are equal.
-/

namespace LogSearch

-- Powers of natural numbers are those of natural numbers, whatever algebra is in scope.
attribute [local instance (high)] instPowNat

variable {s t w : Text} {c : CodePoint} {e : Int}

/-! ## Reading digits -/

lemma digit?_of_isDigit (h : c.isDigit) : digit? c = some (c.toNat - (chr '0').toNat) := by
  obtain ⟨hlow, hhigh⟩ := CodePoint.isDigit_iff_toNat.1 h
  have hascii : 48 ≤ c.toNat ∧ c.toNat ≤ 57 := ⟨hlow, hhigh⟩
  simp [digit?, digitZeros, hascii]

lemma isDigit_of_isDigit (h : c.isDigit) : isDigit c := by
  rw [isDigit, digit?_of_isDigit h]
  rfl

/-- The values of the digits of a text. -/
def digitValues (w : Text) : List Nat :=
  w.map fun c => c.toNat - (chr '0').toNat

lemma ofDigits_digitValues (w : Text) : ofDigits (digitValues w) = ofDigitText w 0 := by
  rw [ofDigits, digitValues, List.foldl_map]
  rfl

lemma lt_ten_of_mem_digitValues (hw : ∀ c ∈ w, c.isDigit) : ∀ d ∈ digitValues w, d < 10 := by
  intro d hd
  obtain ⟨c, hc, rfl⟩ := List.mem_map.1 hd
  have hhigh := (CodePoint.isDigit_iff_toNat.1 (hw c hc)).2
  have hnine : (chr '9').toNat = 57 := rfl
  have hzero : (chr '0').toNat = 48 := rfl
  omega

/-- Digits end where something else follows. -/
lemma leadingDigits_append (hw : ∀ c ∈ w, c.isDigit) (ht : ∀ c ∈ t.head?, isDigit c = false) :
    Numeral.leadingDigits (w ++ t) = digitValues w ∧ (w ++ t).dropWhile isDigit = t := by
  have hdigits : ∀ c ∈ w, isDigit c := fun c hc => isDigit_of_isDigit (hw c hc)
  have hrest : t.takeWhile isDigit = [] ∧ t.dropWhile isDigit = t := by
    cases t with
    | nil => exact ⟨rfl, rfl⟩
    | cons c t =>
        have hc := ht c rfl
        simp [hc]
  rw [Numeral.leadingDigits, List.takeWhile_append_of_pos hdigits,
    List.dropWhile_append_of_pos hdigits, hrest.1, hrest.2, List.append_nil, digitValues]
  refine ⟨?_, rfl⟩
  rw [← List.filterMap_eq_map]
  exact List.filterMap_congr fun c hc => digit?_of_isDigit (hw c hc)

/-! ## Layouts -/

/-- Digits after a point, and no point without them. -/
def pointed (fraction : Text) : Text :=
  if fraction = [] then [] else chr '.' :: fraction

/-- The layout of a numeral without a sign: digits, more digits after a point, and an exponent. -/
structure Layout where
  whole : Text
  fraction : Text
  ending : Text
  exponent : Int
  whole_ne_nil : whole ≠ []
  isDigit_of_mem : ∀ c ∈ whole ++ fraction, c.isDigit
  readExponent?_ending : Numeral.readExponent? ending = some exponent

namespace Layout

/-- The text in a layout. -/
def text (l : Layout) : Text :=
  l.whole ++ (pointed l.fraction ++ l.ending)

/-- The number that is written in a layout. -/
def number (l : Layout) : ℚ :=
  ofDigitText (l.whole ++ l.fraction) 0 * 10 ^ (l.exponent - l.fraction.length)

/-- What is read from a layout. -/
def numeral (l : Layout) (negative : Bool) : Numeral :=
  ⟨negative, digitValues l.whole, digitValues l.fraction, l.exponent⟩

lemma value_decimal (l : Layout) (negative : Bool) :
    (l.numeral negative).decimal.value = l.number := by
  rw [Numeral.decimal, Decimal.value, numeral, Numeral.lastPower, number, ← ofDigits_digitValues]
  simp [digitValues]

end Layout

/-- An exponent starts with its mark. -/
lemma mark_of_readExponent? (h : Numeral.readExponent? t = some e) :
    ∀ c ∈ t.head?, c = chr 'e' ∨ c = chr 'E' := by
  cases t with
  | nil => simp
  | cons c t =>
      intro c' hc
      obtain rfl : c = c' := by simpa using hc
      simp only [Numeral.readExponent?] at h
      split at h
      · rename_i hmark
        simp only [Bool.and_eq_true, Bool.or_eq_true, beq_iff_eq] at hmark
        exact hmark.1.1
      · simp at h

lemma splitSign_append (negative : Bool) (hs : ∀ c ∈ s.head?, c.isDigit) :
    Numeral.splitSign ((if negative then [chr '-'] else []) ++ s) = (negative, s) := by
  cases negative with
  | true => rfl
  | false =>
      cases s with
      | nil => rfl
      | cons c s =>
          have hdigit : c.isDigit := hs c rfl
          have hminus : c ≠ chr '-' := fun h => absurd (h ▸ hdigit) (by decide)
          have hplus : c ≠ chr '+' := fun h => absurd (h ▸ hdigit) (by decide)
          simp [Numeral.splitSign, hminus, hplus]

namespace Layout

/-- **Reading a layout.** -/
theorem read?_text (l : Layout) (negative : Bool) :
    Numeral.read? ((if negative then [chr '-'] else []) ++ l.text) = some (l.numeral negative) := by
  have hmark := mark_of_readExponent? l.readExponent?_ending
  have hending : ∀ c ∈ l.ending.head?, isDigit c = false := by
    intro c hc
    rcases hmark c hc with rfl | rfl <;> decide
  have hwhole : ∀ c ∈ l.whole, c.isDigit := fun c hc =>
    l.isDigit_of_mem c (List.mem_append_left _ hc)
  have hfraction : ∀ c ∈ l.fraction, c.isDigit := fun c hc =>
    l.isDigit_of_mem c (List.mem_append_right _ hc)
  have hfirst : ∀ c ∈ l.text.head?, c.isDigit := by
    intro c hc
    rw [text, List.head?_append_of_ne_nil _ l.whole_ne_nil] at hc
    exact hwhole c (List.mem_of_mem_head? hc)
  have hrest : ∀ c ∈ (pointed l.fraction ++ l.ending).head?, isDigit c = false := by
    rw [pointed]
    split
    · exact hending
    · intro c hc
      obtain rfl : chr '.' = c := by simpa using hc
      decide
  have hne : (digitValues l.whole).isEmpty = false := by
    simp [digitValues, l.whole_ne_nil]
  obtain ⟨hdigits, hdrop⟩ := leadingDigits_append hwhole hrest
  obtain ⟨hdigits', hdrop'⟩ := leadingDigits_append hfraction hending
  simp only [Numeral.read?, splitSign_append negative hfirst]
  rw [text, hdigits, hdrop]
  by_cases hf : l.fraction = []
  · -- without a point the exponent follows at once
    rw [pointed, if_pos hf, List.nil_append]
    split
    · rename_i hdot
      have hpoint := hmark (chr '.') (by simp [hdot])
      simp at hpoint
    · simp [hf, numeral, digitValues, l.whole_ne_nil, l.readExponent?_ending]
  · rw [pointed, if_neg hf, List.cons_append]
    simp [hne, hdigits', hdrop', numeral, l.readExponent?_ending]

/-- **What is read from a layout.** -/
theorem readNumber?_text (l : Layout) {d : Decimal} (hd : d.value = l.number)
    (hfinite : d.rank < finiteRanks) (negative : Bool) :
    readNumber? ((if negative then [chr '-'] else []) ++ l.text)
      = some (.finite negative ⟨d.rank, hfinite⟩) := by
  have hdigits : ∀ n ∈ (l.numeral negative).whole ++ (l.numeral negative).fraction, n < 10 := by
    rw [numeral, digitValues, digitValues, ← List.map_append]
    exact lt_ten_of_mem_digitValues l.isDigit_of_mem
  have hrank : (l.numeral negative).decimal.rank = d.rank :=
    Decimal.rank_congr ((l.value_decimal negative).trans hd.symm)
  rw [readNumber?, l.read?_text, Option.map_some, Numeral.toBinary64_eq _ hdigits, hrank,
    Binary64.ofRank, dif_pos hfinite]
  rfl

end Layout

/-! ## The three forms -/

namespace Layout

/-- The digits of a whole number are a layout of it. -/
lemma exists_digitsOf (n : Nat) : ∃ l : Layout, l.text = digitsOf n ∧ l.number = n := by
  have hdigits : ∀ c ∈ digitsOf n ++ [], c.isDigit := by
    rw [List.append_nil]
    exact isDigit_digitsOf n
  refine ⟨⟨_, [], [], 0, digitsOf_ne_nil, hdigits, rfl⟩, ?_, ?_⟩
  · simp [text, pointed]
  · simp [number, ofDigitText_digitsOf]

variable {digits whole fraction : Text} {order : Int}

/-- Without an exponent, the number is told by how many zeros stand behind the digits and by where
the point stands; zeros in front do not count. -/
lemma exists_plain (hdigits : ∀ c ∈ digits, c.isDigit) (hne : whole ≠ []) (before behind : Nat)
    (hsplit : whole ++ fraction
      = List.replicate before (chr '0') ++ digits ++ List.replicate behind (chr '0'))
    (hpoint : (behind : ℤ) - fraction.length = order + 1 - digits.length) :
    ∃ l : Layout, l.text = whole ++ pointed fraction ∧
      l.number = scientific digits order := by
  have hall : ∀ c ∈ whole ++ fraction, c.isDigit := by
    have hzeros : ∀ n : Nat, ∀ c ∈ List.replicate n (chr '0'), c.isDigit := fun n c hc => by
      rw [List.eq_of_mem_replicate hc]
      rfl
    rw [hsplit]
    simp only [List.forall_mem_append]
    exact ⟨⟨hzeros _, hdigits⟩, hzeros _⟩
  refine ⟨⟨whole, fraction, [], 0, hne, hall, rfl⟩, ?_, ?_⟩
  · simp [text]
  · rw [number, scientific, hsplit, ← hpoint]
    simp only [ofDigitText_append, ofDigitText_replicate_zero, Nat.mul_zero,
      Nat.cast_mul, Nat.cast_pow, Nat.cast_ofNat]
    rw [zpow_sub₀ (by norm_num), zpow_sub₀ (by norm_num)]
    simp only [zpow_natCast, zpow_zero]
    ring

/-- Positional digits are a layout of the number that the digits and their order stand for. -/
lemma exists_plainText (order : Int) (hne : digits ≠ []) (hdigits : ∀ c ∈ digits, c.isDigit) :
    ∃ l : Layout, l.text = plainText digits order ∧
      l.number = scientific digits order := by
  rw [plainText]
  split
  · -- zeros stand between the point and the digits
    have htext : chr '0' :: chr '.' :: List.replicate (-order - 1).toNat (chr '0') ++ digits
        = [chr '0'] ++ pointed (List.replicate (-order - 1).toNat (chr '0') ++ digits) := by
      simp [pointed, hne]
    rw [htext]
    refine exists_plain hdigits (by simp) ((-order - 1).toNat + 1) 0 ?_ ?_
    · simp [List.replicate_succ]
    · rw [List.length_append, List.length_replicate]
      omega
  · rename_i hnonneg
    by_cases hlong : order.toNat + 1 < digits.length
    · -- the point stands among the digits
      have htext : digits.take (order.toNat + 1) ++ pointed (digits.drop (order.toNat + 1))
          = digits.take (order.toNat + 1)
            ++ List.replicate (order.toNat + 1 - digits.length) (chr '0')
            ++ chr '.' :: digits.drop (order.toNat + 1) := by
        have hdrop : digits.drop (order.toNat + 1) ≠ [] := by simpa using hlong
        simp [pointed, hdrop, Nat.sub_eq_zero_of_le hlong.le]
      simp only [if_pos hlong, ← htext]
      refine exists_plain hdigits (by simp [hne]) 0 0 ?_ ?_
      · simp
      · rw [List.length_drop]
        omega
    · -- zeros fill up the places before the point
      have htext : digits.take (order.toNat + 1)
            ++ List.replicate (order.toNat + 1 - digits.length) (chr '0') ++ []
          = digits ++ List.replicate (order.toNat + 1 - digits.length) (chr '0') ++ pointed [] := by
        rw [List.take_of_length_le (by omega)]
        rfl
      simp only [if_neg hlong]
      rw [htext]
      refine exists_plain hdigits (by simp [hne]) 0 (order.toNat + 1 - digits.length) ?_ ?_
      · simp
      · rw [List.length_nil]
        omega

/-- An exponent is read back. -/
lemma readExponent?_sign (order : Int) : Numeral.readExponent?
    (chr 'e' :: (if order < 0 then chr '-' else chr '+') :: digitsOf order.natAbs)
      = some order := by
  have hsplit : Numeral.splitSign
        ((if order < 0 then chr '-' else chr '+') :: digitsOf order.natAbs)
      = (decide (order < 0), digitsOf order.natAbs) := by
    by_cases hneg : order < 0
    · simp only [if_pos hneg, decide_eq_true hneg]
      rfl
    · simp only [if_neg hneg, decide_eq_false hneg]
      rfl
  have hdigits : Numeral.leadingDigits (digitsOf order.natAbs)
      = digitValues (digitsOf order.natAbs) := by
    simpa using (leadingDigits_append (isDigit_digitsOf order.natAbs) (t := []) (by simp)).1
  have hall : (digitsOf order.natAbs).all isDigit :=
    List.all_eq_true.2 fun c hc => isDigit_of_isDigit (isDigit_digitsOf _ c hc)
  rw [Numeral.readExponent?, hsplit]
  simp only [hall, hdigits, ofDigits_digitValues, ofDigitText_digitsOf]
  have hne : (digitsOf order.natAbs).isEmpty = false := by simp [digitsOf_ne_nil]
  rw [hne, if_pos (by decide), Option.some_inj]
  by_cases hneg : order < 0
  · rw [decide_eq_true hneg, if_pos rfl]
    omega
  · rw [decide_eq_false hneg, if_neg (by simp)]
    omega

/-- Digits with an exponent are a layout of the same number. -/
lemma exists_exponentText (order : Int) (hne : digits ≠ []) (hdigits : ∀ c ∈ digits, c.isDigit) :
    ∃ l : Layout, l.text = exponentText digits order ∧
      l.number = scientific digits order := by
  have hall : ∀ c ∈ digits.take 1 ++ digits.drop 1, c.isDigit := by
    rwa [List.take_append_drop]
  have hlength := List.length_pos_of_ne_nil hne
  refine ⟨⟨digits.take 1, digits.drop 1, _, order, by simp [hne], hall, readExponent?_sign order⟩,
    ?_, ?_⟩
  · have hpoint : digits.drop 1 = [] ↔ ¬ 1 < digits.length := by
      rw [List.drop_eq_nil_iff, not_lt]
    rw [text, exponentText, pointed, List.append_assoc]
    simp only [hpoint, ite_not]
  · have hexponent : order - ((digits.drop 1).length : ℤ) = order + 1 - digits.length := by
      rw [List.length_drop]
      omega
    rw [number, scientific, hexponent, List.take_append_drop]

/-- **Every magnitude is written in a layout**, of a decimal that reads as its rank. -/
theorem exists_magnitudeText (rank : Nat) :
    ∃ (l : Layout) (d : Decimal), l.text = magnitudeText rank ∧ d.value = l.number ∧
      d.rank = rank := by
  simp only [magnitudeText]
  split
  · rename_i hwhole
    simp only [Bool.and_eq_true, decide_eq_true_eq] at hwhole
    obtain ⟨l, htext, hnumber⟩ := exists_digitsOf (units rank / 2 ^ (1074 : Nat))
    exact ⟨l, _, htext, (Decimal.value_whole _).trans hnumber.symm, Decimal.rank_whole hwhole.1⟩
  · rename_i hwhole
    have hrank : (shortest rank).rank ≠ 0 := by
      rw [rank_shortest]
      rintro rfl
      exact hwhole (by decide +kernel)
    have hne := Decimal.digits_ne_nil hrank
    have hdigits := (shortest rank).isDigit_of_mem_digits
    split
    · obtain ⟨l, htext, hnumber⟩ := exists_plainText (shortest rank).order hne hdigits
      exact ⟨l, shortest rank, htext, (Decimal.value_eq_scientific _).trans hnumber.symm,
        rank_shortest rank⟩
    · obtain ⟨l, htext, hnumber⟩ := exists_exponentText (shortest rank).order hne hdigits
      exact ⟨l, shortest rank, htext, (Decimal.value_eq_scientific _).trans hnumber.symm,
        rank_shortest rank⟩

end Layout

/-! ## Reading back -/

/-- **Reading back.**  A finite number is read back from its text, zero without its sign. -/
theorem readNumber?_text (negative : Bool) (rank : Fin finiteRanks) :
    readNumber? (Binary64.finite negative rank).text
      = some (.finite (negative && rank.val ≠ 0) rank) := by
  obtain ⟨l, d, htext, hvalue, hrank⟩ := Layout.exists_magnitudeText rank
  have hread := l.readNumber?_text hvalue (hrank ▸ rank.isLt) (negative && rank.val ≠ 0)
  rw [htext] at hread
  rw [Binary64.text, hread]
  simp [hrank]

/-- Zero is written without its sign, so equal numbers have one text. -/
lemma text_finite_congr {negative negative' : Bool} {rank : Fin finiteRanks}
    (h : negative = negative' ∨ rank.val = 0) :
    (Binary64.finite negative rank).text = (Binary64.finite negative' rank).text := by
  rcases h with rfl | h
  · rfl
  · simp [Binary64.text, h]

/-- **Numbers and their texts.**  Finite numbers have one text if and only if they are equal. -/
theorem text_eq_iff {x y : Binary64} (hx : x.isFinite) (hy : y.isFinite) :
    x.text = y.text ↔ x.toRat? = y.toRat? := by
  cases x with
  | infinite negative => simp [Binary64.isFinite] at hx
  | nan => simp [Binary64.isFinite] at hx
  | finite negative rank =>
      cases y with
      | infinite negative => simp [Binary64.isFinite] at hy
      | nan => simp [Binary64.isFinite] at hy
      | finite negative' rank' =>
          rw [Binary64.toRat?_finite_inj]
          constructor
          · intro h
            have hread := congrArg readNumber? h
            rw [readNumber?_text, readNumber?_text, Option.some_inj] at hread
            obtain ⟨hsign, rfl⟩ := Binary64.finite.inj hread
            by_cases hzero : rank.val = 0
            · exact ⟨rfl, Or.inr hzero⟩
            · exact ⟨rfl, Or.inl (by simpa [hzero] using hsign)⟩
          · rintro ⟨rfl, hsign⟩
            exact text_finite_congr hsign

/-- A filter on a cost or a duration raises its flag. -/
lemma Filter.addTo_comparison {f : Filter} {fld : Field} (hf : f.field = fld.name)
    (hrole : fld.role = .comparison) (z : Zone) (now : Moment) (p : Params) :
    f.addTo z now p = .ok (p.set f.flagName "true".text) := by
  rw [addTo, hf, Field.ofName?_name, Option.map_some, hrole]

/-- **Numbers survive being written.**  A finite number is read back from its text, zero without its
sign.  So two filters on one field with a number, with the same operator, raise flags of one name if
and only if their numbers are equal. -/
theorem written_numbers_read_back {x y : Binary64} (hx : x.isFinite) (hy : y.isFinite) :
    (∃ x', readNumber? x.text = some x' ∧ x'.toRat? = x.toRat? ∧
      (x.toRat? = some 0 → x' = .ofRank false 0)) ∧
    ∀ fld ∈ [Field.cost, Field.duration], ∀ f g : Filter, f.field = fld.name → g.field = fld.name →
      f.operator = g.operator → f.value = .number x → g.value = .number y →
      (∀ z now p, f.addTo z now p = .ok (p.set f.flagName "true".text) ∧
        g.addTo z now p = .ok (p.set g.flagName "true".text)) ∧
      (f.flagName = g.flagName ↔ x.toRat? = y.toRat?) := by
  constructor
  · cases x with
    | infinite negative => simp [Binary64.isFinite] at hx
    | nan => simp [Binary64.isFinite] at hx
    | finite negative rank =>
        refine ⟨_, readNumber?_text negative rank, ?_, ?_⟩
        · rw [Binary64.toRat?_finite_inj]
          by_cases hzero : rank.val = 0 <;> simp [hzero]
        · intro h
          have hzero : (Binary64.finite false ⟨0, by decide⟩).toRat? = some 0 := by
            simp [Binary64.toRat?, magnitude_zero]
          obtain ⟨rfl, -⟩ := Binary64.toRat?_finite_inj.1 (h.trans hzero.symm)
          simp [Binary64.ofRank]
  · intro fld hfld f g hf hg hop hfx hgy
    have hrole : fld.role = .comparison := by
      have hroles : ∀ fld ∈ [Field.cost, Field.duration], fld.role = .comparison := by decide
      exact hroles fld hfld
    refine ⟨fun z now p => ⟨f.addTo_comparison hf hrole z now p,
      g.addTo_comparison hg hrole z now p⟩, ?_⟩
    rw [← text_eq_iff hx hy, Filter.flagName, Filter.flagName, hf, hg, hop, hfx, hgy]
    simp [Value.written]

/-- Three tenths have one digit, and the double above them has seventeen. -/
theorem written_numbers_read_back_three_tenths :
    let x := Binary64.ofRatio false 3 10
    let y := Binary64.ofRatio false 30000000000000004 100000000000000000
    let f : Filter := ⟨"cost".text, .ge, .number x, []⟩
    let g : Filter := ⟨"cost".text, .ge, .number y, []⟩
    x.isFinite ∧ y.isFinite ∧ f.flagName = "cost_>=_0.3".text ∧
      g.flagName = "cost_>=_0.30000000000000004".text ∧ x.toRat? ≠ y.toRat? ∧
      ∃ x', readNumber? "0.3".text = some x' ∧ x'.toRat? = x.toRat? := by
  intro x y f g
  have hx : x.isFinite := by decide +kernel
  have hy : y.isFinite := by decide +kernel
  have hf : f.flagName = "cost_>=_0.3".text := by decide +kernel
  have hg : g.flagName = "cost_>=_0.30000000000000004".text := by decide +kernel
  have htext : x.text = "0.3".text := by decide +kernel
  obtain ⟨⟨x', hread, hvalue, -⟩, hflags⟩ := written_numbers_read_back hx hy
  have hne := (hflags .cost (by decide) f g rfl rfl rfl rfl rfl).2
  refine ⟨hx, hy, hf, hg, fun heq => ?_, x', htext ▸ hread, hvalue⟩
  rw [← hne, hf, hg] at heq
  exact absurd heq (by decide)

end LogSearch
