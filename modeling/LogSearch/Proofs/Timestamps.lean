import LogSearch.Calendar.Read
import LogSearch.Proofs.CalendarRanges
import LogSearch.Proofs.ReadBack

/-!
# Timestamps

An instant is written with all its fields at full width, the largest first, so that texts can be
compared in place of instants.  What is finer than a millisecond is cut off.

* `Precedes`, `InOrder` — the order of texts by code points.  `precedes_append_iff`: behind texts of
  one length it goes on with what follows.
* `length_padded`, `precedes_field_iff`, `readDigits?_padded` — a number at full width.
* `Stamp` — a date and a clock time to the millisecond, with `Stamp.text` and `Stamp.time`;
  `Stamp.ofInstant`: the one by which an instant is written.
* `isoText_inOrder_iff` — texts of instants are in the order of the instants, have one length, and
  are read back.
-/

namespace LogSearch

-- Powers of natural numbers are those of natural numbers, whatever algebra is in scope.
attribute [local instance (high)] instPowNat

variable {u v s t : Text} {w n m : Nat}

/-! ## Texts in order -/

/-- A text comes before another: at the first place where they differ it has the smaller code point,
or it ends there. -/
def Precedes (s t : Text) : Prop :=
  List.Lex (fun c d => c.toNat < d.toNat) s t

/-- Texts in order: they are equal, or the first one comes before the second. -/
def InOrder (s t : Text) : Prop :=
  s = t ∨ Precedes s t

lemma not_precedes_self (s : Text) : ¬ Precedes s s :=
  fun h => List.lex_asymm (fun h => Nat.not_lt_of_lt h) h h

lemma precedes_cons_iff {c d : CodePoint} :
    Precedes (c :: s) (d :: t) ↔ c.toNat < d.toNat ∨ c = d ∧ Precedes s t :=
  List.cons_lex_cons_iff

/-- Behind texts of one length, what follows counts only where these are equal. -/
lemma precedes_append_iff (h : u.length = v.length) :
    Precedes (u ++ s) (v ++ t) ↔ Precedes u v ∨ u = v ∧ Precedes s t := by
  induction u generalizing v with
  | nil =>
      obtain rfl := List.eq_nil_of_length_eq_zero h.symm
      simp [not_precedes_self]
  | cons c u ih =>
      cases v with
      | nil => cases h
      | cons d v =>
          rw [List.cons_append, List.cons_append, precedes_cons_iff, precedes_cons_iff,
            ih (Nat.succ.inj h), List.cons.injEq]
          tauto

/-! ## Numbers at full width -/

lemma isDigit_padded (w n : Nat) : ∀ c ∈ padded w n, c.isDigit := by
  intro c hc
  rcases List.mem_append.1 hc with hzero | hdigit
  · rw [List.eq_of_mem_replicate hzero]
    rfl
  · exact isDigit_digitsOf n c hdigit

lemma length_padded (hw : 0 < w) (hn : n < 10 ^ w) : (padded w n).length = w := by
  have hlength := (length_digitsOf_le_iff hw).2 hn
  rw [padded, List.length_append, List.length_replicate]
  omega

/-- Zeros in front do not change the number. -/
lemma ofDigits_padded (w n : Nat) : ofDigits (digitValues (padded w n)) = n := by
  have hzeros : ∀ k, ofDigitText (List.replicate k (chr '0')) 0 = 0 := by
    intro k
    induction k with
    | zero => rfl
    | succ k ih => exact ih
  rw [ofDigits_digitValues, padded, ofDigitText_append, hzeros, ofDigitText_digitsOf]

/-- What is smaller than the place of a digit counts only where the digits are equal. -/
lemma digit_lt_iff {c d place x y : Nat} (hx : x < place) (hy : y < place) :
    c * place + x < d * place + y ↔ c < d ∨ c = d ∧ x < y := by
  rcases Nat.lt_trichotomy c d with hlt | rfl | hlt
  · have := Nat.mul_le_mul_right place (Nat.succ_le_of_lt hlt)
    rw [Nat.succ_mul] at this
    omega
  · omega
  · have := Nat.mul_le_mul_right place (Nat.succ_le_of_lt hlt)
    rw [Nat.succ_mul] at this
    omega

lemma ofDigits_digitValues_cons (c : CodePoint) (u : Text) : ofDigits (digitValues (c :: u))
    = (c.toNat - (chr '0').toNat) * 10 ^ u.length + ofDigits (digitValues u) := by
  rw [digitValues, List.map_cons, ofDigits_cons, List.length_map]
  rfl

lemma ofDigits_digitValues_lt (hu : ∀ c ∈ u, c.isDigit) :
    ofDigits (digitValues u) < 10 ^ u.length := by
  have hlt := ofDigits_lt (lt_ten_of_mem_digitValues hu)
  rwa [digitValues, List.length_map] at hlt

/-- Digits of one length are in the order of their numbers. -/
lemma precedes_iff_ofDigits_lt (hu : ∀ c ∈ u, c.isDigit) (hv : ∀ c ∈ v, c.isDigit)
    (h : u.length = v.length) :
    Precedes u v ↔ ofDigits (digitValues u) < ofDigits (digitValues v) := by
  induction u generalizing v with
  | nil =>
      obtain rfl := List.eq_nil_of_length_eq_zero h.symm
      simp [not_precedes_self]
  | cons c u ih =>
      cases v with
      | nil => cases h
      | cons d v =>
          obtain ⟨hc, hu⟩ := List.forall_mem_cons.1 hu
          obtain ⟨hd, hv⟩ := List.forall_mem_cons.1 hv
          have hlength : u.length = v.length := Nat.succ.inj h
          have hlow := (CodePoint.isDigit_iff_toNat.1 hc).1
          have hlow' := (CodePoint.isDigit_iff_toNat.1 hd).1
          have hzero : (chr '0').toNat = 48 := rfl
          have hdigit : c.toNat - (chr '0').toNat < d.toNat - (chr '0').toNat
              ↔ c.toNat < d.toNat := by
            omega
          have hsame : c.toNat - (chr '0').toNat = d.toNat - (chr '0').toNat ↔ c = d := by
            rw [← CodePoint.toNat_inj]
            omega
          rw [precedes_cons_iff, ih hu hv hlength, ofDigits_digitValues_cons,
            ofDigits_digitValues_cons, hlength,
            digit_lt_iff (hlength ▸ ofDigits_digitValues_lt hu) (ofDigits_digitValues_lt hv),
            hdigit, hsame]

/-- **Numbers at one width, with the same character behind**, are in the order of the numbers, and
what follows counts only where these are equal. -/
lemma precedes_field_iff (hw : 0 < w) (hn : n < 10 ^ w) (hm : m < 10 ^ w) {c : CodePoint} :
    Precedes (padded w n ++ c :: s) (padded w m ++ c :: t) ↔ n < m ∨ n = m ∧ Precedes s t := by
  have hlength : (padded w n).length = (padded w m).length :=
    (length_padded hw hn).trans (length_padded hw hm).symm
  have hsame : padded w n = padded w m ↔ n = m := by
    refine ⟨fun h => ?_, fun h => h ▸ rfl⟩
    rw [← ofDigits_padded w n, h, ofDigits_padded]
  have hrest : Precedes (c :: s) (c :: t) ↔ Precedes s t := by
    rw [precedes_cons_iff]
    simp
  rw [precedes_append_iff hlength, hsame, hrest,
    precedes_iff_ofDigits_lt (isDigit_padded w n) (isDigit_padded w m) hlength, ofDigits_padded,
    ofDigits_padded]

/-- A number at full width is read back. -/
lemma readDigits?_padded (hw : 0 < w) (hn : n < 10 ^ w) (s : Text) :
    readDigits? w (padded w n ++ s) = some (n, s) := by
  have hlength := length_padded hw hn
  have hdigits : (padded w n).all CodePoint.isDigit = true :=
    List.all_eq_true.2 (isDigit_padded w n)
  rw [readDigits?, List.take_left' hlength, List.drop_left' hlength, if_pos ⟨hlength, hdigits⟩]
  exact congrArg (fun k => some (k, s)) (ofDigits_padded w n)

/-! ## Stamps -/

/-- A date of the calendar and a time on the clock, to the millisecond. -/
structure Stamp where
  date : Date
  hour : Nat
  minute : Nat
  sec : Nat
  milli : Nat
  date_valid : date.isValid
  hour_lt : hour < 24
  minute_lt : minute < 60
  sec_lt : sec < 60
  milli_lt : milli < 1000

namespace Stamp

variable {a b : Stamp} {t : Int}

/-- How a stamp is written. -/
def text (a : Stamp) : Text :=
  padded 4 a.date.year.toNat ++ chr '-' :: (padded 2 a.date.month ++
    chr '-' :: (padded 2 a.date.day ++ chr 'T' :: (padded 2 a.hour ++
    chr ':' :: (padded 2 a.minute ++ chr ':' :: (padded 2 a.sec ++
    chr '.' :: (padded 3 a.milli ++ [chr 'Z']))))))

/-- The time of a stamp. -/
def time (a : Stamp) : Int :=
  a.date.reading a.hour a.minute a.sec a.milli

/-- The fields fit into their widths. -/
lemma fields_lt (a : Stamp) : (a.date.year.toNat < 10 ^ 4 ∧ a.date.month < 10 ^ 2 ∧
    a.date.day < 10 ^ 2) ∧ a.hour < 10 ^ 2 ∧ a.minute < 10 ^ 2 ∧ a.sec < 10 ^ 2 ∧
      a.milli < 10 ^ 3 := by
  obtain ⟨⟨⟨hmonth, hmonth'⟩, -, hday⟩, hyear, hyear'⟩ := Date.isValid_iff.1 a.date_valid
  have hlength := monthLength_bounds (isLeap a.date.year) a.date.month (by omega) hmonth
  have hhour := a.hour_lt
  have hminute := a.minute_lt
  have hsec := a.sec_lt
  have hmilli := a.milli_lt
  rw [monthLength] at hday
  omega

lemma length_text (a : Stamp) : a.text.length = 24 := by
  obtain ⟨⟨hyear, hmonth, hday⟩, hhour, hminute, hsec, hmilli⟩ := a.fields_lt
  simp only [text, List.length_append, List.length_cons, List.length_nil,
    length_padded (show 0 < 4 by decide) hyear, length_padded (show 0 < 2 by decide) hmonth,
    length_padded (show 0 < 2 by decide) hday, length_padded (show 0 < 2 by decide) hhour,
    length_padded (show 0 < 2 by decide) hminute, length_padded (show 0 < 2 by decide) hsec,
    length_padded (show 0 < 3 by decide) hmilli]

/-- **Stamps are in order if and only if their texts are.** -/
theorem precedes_text_iff : Precedes a.text b.text ↔ a.time < b.time := by
  obtain ⟨⟨hyear, hmonth, hday⟩, hhour, hminute, hsec, hmilli⟩ := a.fields_lt
  obtain ⟨⟨hyear', hmonth', hday'⟩, hhour', hminute', hsec', hmilli'⟩ := b.fields_lt
  rw [text, text, precedes_field_iff (by decide) hyear hyear',
    precedes_field_iff (by decide) hmonth hmonth', precedes_field_iff (by decide) hday hday',
    precedes_field_iff (by decide) hhour hhour', precedes_field_iff (by decide) hminute hminute',
    precedes_field_iff (by decide) hsec hsec', precedes_field_iff (by decide) hmilli hmilli']
  simp only [not_precedes_self, and_false, or_false]
  obtain ⟨hreal, hpos, -⟩ := Date.isValid_iff.1 a.date_valid
  obtain ⟨hreal', hpos', -⟩ := Date.isValid_iff.1 b.date_valid
  have hbefore := Date.toDay_lt_iff hreal hreal'
  have hafter := Date.toDay_lt_iff hreal' hreal
  have hrange := a.hour_lt
  have hrange' := b.hour_lt
  have := a.minute_lt
  have := b.minute_lt
  have := a.sec_lt
  have := b.sec_lt
  have := a.milli_lt
  have := b.milli_lt
  unfold Date.Before at hbefore hafter
  unfold time Date.reading dayLength
  omega

lemma readFraction?_milli (a : Stamp) :
    readFraction? (chr '.' :: (padded 3 a.milli ++ [chr 'Z']))
      = some (a.milli * 1000, [chr 'Z']) := by
  obtain ⟨-, -, -, -, hmilli⟩ := a.fields_lt
  have hdigits : (padded 3 a.milli ++ [chr 'Z']).takeWhile CodePoint.isDigit
      = padded 3 a.milli := by
    rw [List.takeWhile_append_of_pos (isDigit_padded 3 a.milli)]
    simp [show (chr 'Z').isDigit = false by decide]
  simp only [readFraction?, hdigits, length_padded (show 0 < 3 by decide) hmilli,
    readDigits?_padded (show 0 < 3 by decide) hmilli]
  rfl

/-- **A stamp is read back**, as a time in UTC. -/
theorem read?_text (a : Stamp) : Moment.read? a.text = some (.zoned a.time 0) := by
  obtain ⟨⟨hyear, hmonth, hday⟩, hhour, hminute, hsec, hmilli⟩ := a.fields_lt
  have hchar : ∀ (c : CodePoint) (s : Text), readChar? c (c :: s) = some s := fun c s => if_pos rfl
  have hpos := (Date.isValid_iff.1 a.date_valid).2.1
  have hdate : (⟨(a.date.year.toNat : Int), a.date.month, a.date.day⟩ : Date) = a.date := by
    rw [Int.toNat_of_nonneg (by omega)]
  have htime : Moment.readTime? a.text = some (a.time, [chr 'Z']) := by
    simp only [Moment.readTime?, text, readDigits?_padded (show 0 < 4 by decide) hyear,
      readDigits?_padded (show 0 < 2 by decide) hmonth,
      readDigits?_padded (show 0 < 2 by decide) hday,
      readDigits?_padded (show 0 < 2 by decide) hhour,
      readDigits?_padded (show 0 < 2 by decide) hminute,
      readDigits?_padded (show 0 < 2 by decide) hsec, hchar, readFraction?_milli, hdate,
      a.date_valid, a.hour_lt, a.minute_lt, a.sec_lt, bind, Option.bind, decide_true, Bool.and_true,
      if_true]
    congr 2
    unfold time Date.reading second
    omega
  rw [Moment.read?, htime]
  rfl

/-- The stamp of an instant, without what is finer than a millisecond. -/
def ofInstant (t : Int) (h : Zone.inCalendar t = true) : Stamp where
  date := Date.ofDay (t / dayLength)
  hour := (t % dayLength / second).toNat / 3600
  minute := (t % dayLength / second).toNat / 60 % 60
  sec := (t % dayLength / second).toNat % 60
  milli := (t % second / 1000).toNat
  date_valid := by
    rw [Zone.inCalendar_iff] at h
    rw [Date.isValid_ofDay]
    unfold dayLength at *
    omega
  hour_lt := by
    unfold dayLength second
    omega
  minute_lt := Nat.mod_lt _ (by decide)
  sec_lt := Nat.mod_lt _ (by decide)
  milli_lt := by
    unfold second
    omega

lemma text_ofInstant (h : Zone.inCalendar t = true) : (ofInstant t h).text = isoText t := by
  simp only [text, ofInstant, isoText, dateTimeText, List.append_assoc, List.cons_append]

lemma time_ofInstant (h : Zone.inCalendar t = true) :
    (ofInstant t h).time = t / 1000 * 1000 := by
  simp only [time, ofInstant, Date.reading, Date.toDay_ofDay]
  unfold dayLength second
  omega

end Stamp

/-! ## Instants -/

variable {z z' : Zone} {moment moment' : Moment} {t t' : Int}

/-- The instant of a moment lies in the calendar. -/
lemma Moment.inCalendar_of_toInstant (h : moment.toInstant z = .ok t) :
    Zone.inCalendar t = true := by
  cases moment with
  | wall time => exact (Zone.eq_of_instantOf h).1
  | zoned time offset =>
      obtain ⟨hresult, rfl⟩ := Zone.checked_eq_ok_iff.1 h
      exact hresult

/-- What is finer than a millisecond is not written. -/
lemma isoText_congr (h : t / 1000 = t' / 1000) : isoText t = isoText t' := by
  have hday : t / dayLength = t' / dayLength := by
    unfold dayLength
    omega
  have hseconds : t % dayLength / second = t' % dayLength / second := by
    unfold dayLength second
    omega
  have hmilli : t % second / 1000 = t' % second / 1000 := by
    unfold second
    omega
  rw [isoText, isoText, dateTimeText, dateTimeText, hday, hseconds, hmilli]

lemma inOrder_isoText_iff (h : Zone.inCalendar t = true) (h' : Zone.inCalendar t' = true) :
    InOrder (isoText t) (isoText t') ↔ t / 1000 ≤ t' / 1000 := by
  have hbefore : Precedes (isoText t) (isoText t') ↔ t / 1000 < t' / 1000 := by
    rw [← Stamp.text_ofInstant h, ← Stamp.text_ofInstant h', Stamp.precedes_text_iff,
      Stamp.time_ofInstant, Stamp.time_ofInstant]
    omega
  rw [InOrder, hbefore]
  constructor
  · rintro (hsame | hlt)
    · -- one text stands for one time, since it is read back
      have hback := Stamp.read?_text (Stamp.ofInstant t h)
      rw [Stamp.text_ofInstant, hsame, ← Stamp.text_ofInstant h', Stamp.read?_text,
        Option.some.injEq, Moment.zoned.injEq, Stamp.time_ofInstant, Stamp.time_ofInstant] at hback
      omega
    · exact Int.le_of_lt hlt
  · intro hle
    exact (Int.lt_or_eq_of_le hle).symm.imp isoText_congr id

/-- **Timestamps sort as time.**  Take any two moments, each a reading of the clock of some zone or
one with an offset of its own, down to the microsecond, whose instants lie in the calendar.  Their
texts are in order, code point by code point, if and only if the instants are, cut to milliseconds.
A text has 24 characters, and it is read back as a time in UTC: the instant cut to milliseconds. -/
theorem isoText_inOrder_iff (h : moment.toInstant z = .ok t) (h' : moment'.toInstant z' = .ok t') :
    (InOrder (isoText t) (isoText t') ↔ t / 1000 ≤ t' / 1000) ∧
      (isoText t).length = 24 ∧
      ∃ back, Moment.read? (isoText t) = some back ∧
        ∀ other, back.toInstant other = .ok (t / 1000 * 1000) := by
  have hin := Moment.inCalendar_of_toInstant h
  refine ⟨inOrder_isoText_iff hin (Moment.inCalendar_of_toInstant h'), ?_, ?_⟩
  · rw [← Stamp.text_ofInstant hin, Stamp.length_text]
  · refine ⟨.zoned (t / 1000 * 1000) 0, ?_, fun other => Zone.checked_eq_ok_iff.2 ⟨?_, ?_⟩⟩
    · rw [← Stamp.text_ofInstant hin, Stamp.read?_text, Stamp.time_ofInstant]
    · rw [Zone.inCalendar_iff] at hin ⊢
      unfold dayLength at *
      omega
    · exact Int.sub_zero _

/-- Half a minute into the year 2027 of UTC: seen from a clock that is half a minute behind it, and
from one in New York, a tenth of a millisecond earlier. -/
theorem isoText_inOrder_iff_new_year :
    ∃ moment moment' t t', Moment.read? "2026-12-31T23:59:59.999600-00:00:30".text = some moment ∧
      Moment.read? "2026-12-31T19:00:29.999500".text = some moment' ∧
      moment.toInstant easternZone = .ok t ∧ moment'.toInstant easternZone = .ok t' ∧ t' < t ∧
      InOrder (isoText t) (isoText t') ∧ isoText t = "2027-01-01T00:00:29.999Z".text ∧
      (isoText t).length = 24 ∧
      ∃ back, Moment.read? (isoText t) = some back ∧
        back.toInstant easternZone = .ok (t - 600) := by
  let midnight := Date.toDay ⟨2027, 1, 1⟩ * dayLength
  have h : (Moment.zoned (midnight - 400) (-30 * second)).toInstant easternZone
      = .ok (midnight + 30 * second - 400) := by
    decide +kernel
  have h' : (Moment.wall (midnight - 18000 * second + 30 * second - 500)).toInstant easternZone
      = .ok (midnight + 30 * second - 500) := by
    decide +kernel
  obtain ⟨horder, hlength, back, hread, hback⟩ := isoText_inOrder_iff h h'
  exact ⟨_, _, _, _, by decide +kernel, by decide +kernel, h, h', by decide +kernel,
    horder.2 (by decide +kernel), by decide +kernel, hlength, back, hread,
    (hback easternZone).trans (by decide +kernel)⟩

end LogSearch
