import LogSearch.Calendar.Zone
import Mathlib.Tactic.ByContra
import Mathlib.Tactic.Lemma

/-!
# The wall clock of a zone

A zone has at most two offsets, and which of them is in force may change at any whole second.  Where
it changes, the wall clock jumps: forward over readings that it never shows, or back to readings
that it shows twice.

* `Zone.lead` — how far the clock is ahead of UTC; it is `Zone.most` or `Zone.least`.
* `Zone.leadOf` — the lead by which a reading is turned into an instant.
* `Zone.Jumps` — the clock is moved from one reading to another.
* `Zone.KeepsStart`, `Zone.KeepsEnd` — no jump leads over a reading, seen as the first one of a
  range or as the first one after it.  `keepsStart_iff`, `keepsEnd_iff`: these are exactly the
  readings for which the conversion finds the instant that divides the earlier readings from the
  later ones.

Only the instants between the reading less the larger lead and the reading less the smaller one can
go wrong: before them the clock is behind the reading with either lead, and after them it is ahead.
-/

namespace LogSearch

namespace Zone

variable {z : Zone} {a b c m n t u x y : Int}

/-! ## Offsets -/

/-- The larger lead of a zone over UTC, in microseconds. -/
def most (z : Zone) : Int :=
  (match z.daylight with
    | none => z.standard
    | some d => max z.standard d.offset) * second

/-- The smaller lead of a zone over UTC, in microseconds. -/
def least (z : Zone) : Int :=
  (match z.daylight with
    | none => z.standard
    | some d => min z.standard d.offset) * second

/-- How far the clock is ahead of UTC at an instant, in microseconds. -/
def lead (z : Zone) (t : Int) : Int :=
  z.offsetAt t * second

/-- The lead by which a reading of the clock is turned into an instant, in microseconds. -/
def leadOf (z : Zone) (wall : Int) : Int :=
  z.offsetOf wall * second

/-- The offsets from UTC are less than a day, either way. -/
def WithinDay (z : Zone) : Prop :=
  -dayLength < z.least ∧ z.most < dayLength

instance (z : Zone) : Decidable z.WithinDay :=
  inferInstanceAs (Decidable (_ ∧ _))

lemma wallAt_eq (z : Zone) (t : Int) : z.wallAt t = t + z.lead t :=
  rfl

lemma least_le_most (z : Zone) : z.least ≤ z.most := by
  unfold least most second
  split <;> omega

lemma lead_eq (z : Zone) (t : Int) : z.lead t = z.most ∨ z.lead t = z.least := by
  unfold lead most least offsetAt second
  cases z.daylight with
  | none => simp
  | some d =>
      simp only
      split <;> omega

lemma second_dvd_most (z : Zone) : second ∣ z.most :=
  Int.dvd_mul_left ..

lemma second_dvd_least (z : Zone) : second ∣ z.least :=
  Int.dvd_mul_left ..

/-- The smaller lead is taken only where it alone fits. -/
lemma leadOf_eq (z : Zone) (m : Int) : z.leadOf m =
    if z.lead (m - z.least) = z.least ∧ z.lead (m - z.most) ≠ z.most then z.least else z.most := by
  unfold leadOf offsetOf lead most least
  cases hd : z.daylight with
  | none => simp
  | some d =>
      simp only
      have hcancel : ∀ p q : Int, p * second = q * second ↔ p = q := by
        intro p q
        unfold second
        omega
      simp only [ne_eq, hcancel]
      split <;> rfl

lemma leadOf_eq_or (z : Zone) (m : Int) : z.leadOf m = z.most ∨ z.leadOf m = z.least := by
  rw [leadOf_eq]
  split
  · exact Or.inr rfl
  · exact Or.inl rfl

lemma inForce_congr (d : Daylight) (standard : Int) (h : t / second = u / second) :
    d.inForce standard t = d.inForce standard u := by
  have hday : t / dayLength = u / dayLength := by
    unfold dayLength second at *
    omega
  have hle : ∀ n : Int, n * second ≤ t ↔ n * second ≤ u := by
    unfold second at *
    omega
  have hlt : ∀ n : Int, t < n * second ↔ u < n * second := by
    unfold second at *
    omega
  have hyear : d.ruleYear t = d.ruleYear u := by
    rw [Daylight.ruleYear, Daylight.ruleYear, hday]
  unfold Daylight.inForce Daylight.startInstant Daylight.endInstant
  simp only [hyear, hle, hlt]

/-- **The clock is only changed at whole seconds.**  Daylight time starts and ends at one, and so
does a year. -/
theorem lead_congr (z : Zone) (h : t / second = u / second) : z.lead t = z.lead u := by
  unfold lead offsetAt
  cases z.daylight with
  | none => rfl
  | some d => simp only [inForce_congr d z.standard h]

/-! ## Jumps -/

/-- The clock is moved from one reading to another: at some instant it should show `a` and
shows `b`. -/
def Jumps (z : Zone) (a b : Int) : Prop :=
  ∃ c, z.wallAt (c - 1) + 1 = a ∧ z.wallAt c = b ∧ a ≠ b

/-- A jump goes from one lead to the other. -/
lemma jumps_iff : z.Jumps a b ↔ ∃ c, a = c + z.lead (c - 1) ∧ b = c + z.lead c ∧
    (z.lead (c - 1) = z.most ∧ z.lead c = z.least ∨ z.lead (c - 1) = z.least ∧ z.lead c = z.most)
    ∧ z.least < z.most := by
  have hle := z.least_le_most
  constructor
  · rintro ⟨c, ha, hb, hne⟩
    rw [wallAt_eq] at ha hb
    have h₁ := z.lead_eq (c - 1)
    have h₂ := z.lead_eq c
    exact ⟨c, by omega, by omega, by omega, by omega⟩
  · rintro ⟨c, rfl, rfl, h, hlt⟩
    exact ⟨c, by rw [wallAt_eq]; omega, wallAt_eq z c, by omega⟩

/-- Between two instants with different leads the clock is changed. -/
lemma exists_change (h : x ≤ y) (hne : z.lead y ≠ z.lead x) :
    ∃ c, x < c ∧ c ≤ y ∧ z.lead (c - 1) ≠ z.lead c := by
  obtain ⟨n, rfl⟩ : ∃ n : Nat, y = x + n := ⟨(y - x).toNat, by omega⟩
  clear h
  induction n with
  | zero => exact absurd (by simp) hne
  | succ n ih =>
      by_cases hn : z.lead (x + n) = z.lead x
      · refine ⟨x + (n + 1 : Nat), by omega, by omega, ?_⟩
        rw [show x + (n + 1 : Nat) - 1 = x + n by omega, hn]
        exact hne.symm
      · obtain ⟨c, hc, hcn, hch⟩ := ih hn
        exact ⟨c, hc, by omega, hch⟩

/-- Where no jump leads over a reading, one lead is in force at all instants at which the clock may
show it. -/
lemma lead_eq_of_no_jump (h : ∀ a b, z.Jumps a b → ¬ (a < m ∧ m < b) ∧ ¬ (b < m ∧ m < a))
    (h₁ : m - z.most ≤ t) (h₂ : t < m - z.least) : z.lead t = z.lead (m - z.most) := by
  by_contra hne
  obtain ⟨c, hc, hct, hch⟩ := exists_change h₁ hne
  have e₁ := z.lead_eq (c - 1)
  have e₂ := z.lead_eq c
  have := h _ _ (jumps_iff.mpr ⟨c, rfl, rfl, by omega, by omega⟩)
  omega

/-! ## The reading that a range starts with -/

/-- No jump leads from before a reading, or from the reading itself, to after it, and none leads
back over it. -/
def KeepsStart (z : Zone) (m : Int) : Prop :=
  ∀ a b, z.Jumps a b → ¬ (a ≤ m ∧ m < b) ∧ ¬ (b < m ∧ m < a)

lemma KeepsStart.lead_eq (h : z.KeepsStart m) (h₁ : m - z.most ≤ t) (h₂ : t < m - z.least) :
    z.lead t = z.lead (m - z.most) := by
  refine lead_eq_of_no_jump (fun a b hj => ?_) h₁ h₂
  have := h a b hj
  omega

/-- The reading is taken with the lead that is in force around it. -/
lemma KeepsStart.leadOf_eq (h : z.KeepsStart m) (hlt : z.least < z.most) :
    z.leadOf m = z.lead (m - z.most) := by
  have e := z.lead_eq (m - z.most)
  have hlast := h.lead_eq (t := m - z.least - 1) (by omega) (by omega)
  have hnext := z.lead_eq (m - z.least)
  have hjump : ¬ (z.lead (m - z.least - 1) = z.least ∧ z.lead (m - z.least) = z.most) := by
    intro hj
    have := h _ _ (jumps_iff.mpr ⟨m - z.least, rfl, rfl, Or.inr hj, hlt⟩)
    omega
  rw [Zone.leadOf_eq]
  split <;> omega

/-- **Where a range starts.**  The conversion of a reading finds the instant from which
on the clock shows that reading or a later one, if and only if the zone keeps the reading. -/
theorem keepsStart_iff (z : Zone) (m : Int) :
    (∀ t, m - z.leadOf m ≤ t ↔ m ≤ z.wallAt t) ↔ z.KeepsStart m := by
  have hle := z.least_le_most
  have hof := z.leadOf_eq m
  constructor
  · intro h a b hab
    obtain ⟨c, rfl, rfl, hch, hlt⟩ := jumps_iff.mp hab
    have h₁ := h (c - 1)
    have h₂ := h c
    rw [wallAt_eq] at h₁ h₂
    obtain ⟨e₁, e₂⟩ | ⟨e₁, e₂⟩ := hch
    · -- The clock is put back over the reading, and shows earlier ones after it.
      omega
    · -- The clock skips the reading: the start would be the jump itself, with the smaller lead,
      -- which is taken only where it is in force.
      refine ⟨fun hskip => ?_, by omega⟩
      have hc : c = m - z.leadOf m := by omega
      split at hof
      · rw [hof] at hc
        rw [hc] at e₂
        omega
      · omega
  · intro h t
    rw [wallAt_eq]
    have e := z.lead_eq t
    rcases Int.lt_or_eq_of_le hle with hlt | heq
    · have hof := h.leadOf_eq hlt
      have hm := z.lead_eq (m - z.most)
      by_cases hin : m - z.most ≤ t ∧ t < m - z.least
      · have := h.lead_eq hin.1 hin.2
        omega
      · omega
    · have := z.leadOf_eq_or m
      omega

/-! ## The reading that a range ends before -/

/-- No jump leads over a reading, and none leads back from it or over it. -/
def KeepsEnd (z : Zone) (m : Int) : Prop :=
  ∀ a b, z.Jumps a b → ¬ (a < m ∧ m < b) ∧ ¬ (b < m ∧ m ≤ a)

lemma KeepsEnd.lead_eq (h : z.KeepsEnd m) (h₁ : m - z.most ≤ t) (h₂ : t < m - z.least) :
    z.lead t = z.lead (m - z.most) := by
  refine lead_eq_of_no_jump (fun a b hj => ?_) h₁ h₂
  have := h a b hj
  omega

/-- One lead is in force in the last second of the first pass that may lead up to a reading. -/
lemma lead_before_most (z : Zone) (hm : second ∣ m) (hn : 0 < n) (hsec : n ≤ second) :
    z.lead (m - n - z.most) = z.lead (m - z.most - 1) := by
  have hmost := z.second_dvd_most
  refine lead_congr z ?_
  unfold second at *
  omega

/-- The last reading before a kept one is taken with the lead that is in force around it. -/
lemma KeepsEnd.leadOf_eq (h : z.KeepsEnd m) (hm : second ∣ m) (hlt : z.least < z.most)
    (hn : 0 < n) (hsec : n ≤ second) : z.leadOf (m - n) = z.lead (m - z.most) := by
  have hmost := z.second_dvd_most
  have hleast := z.second_dvd_least
  have e := z.lead_eq (m - z.most)
  have hlast := h.lead_eq (t := m - n - z.least) (by unfold second at *; omega) (by omega)
  have hbefore := z.lead_before_most hm hn hsec
  have e' := z.lead_eq (m - z.most - 1)
  have hjump : ¬ (z.lead (m - z.most - 1) = z.most ∧ z.lead (m - z.most) = z.least) := by
    intro hj
    have := h _ _ (jumps_iff.mpr ⟨m - z.most, rfl, rfl, Or.inl hj, hlt⟩)
    omega
  rw [Zone.leadOf_eq, hbefore, hlast]
  split <;> omega

/-- **Where a range ends.**  With the lead of the last reading before it, the conversion finds the
instant up to which the clock shows an earlier reading than the given one, if and only if the zone
keeps that one. -/
theorem keepsEnd_iff (z : Zone) (hm : second ∣ m) (hn : 0 < n) (hsec : n ≤ second) :
    (∀ t, t < m - z.leadOf (m - n) ↔ z.wallAt t < m) ↔ z.KeepsEnd m := by
  have hle := z.least_le_most
  have hof := z.leadOf_eq_or (m - n)
  constructor
  · intro h a b hab
    obtain ⟨c, rfl, rfl, hch, hlt⟩ := jumps_iff.mp hab
    have h₁ := h (c - 1)
    have h₂ := h c
    rw [wallAt_eq] at h₁ h₂
    obtain ⟨e₁, e₂⟩ | ⟨e₁, e₂⟩ := hch
    · -- The clock is put back from the reading: the end would be that of the second pass, with
      -- the smaller lead, but the larger one fits the first pass.
      refine ⟨by omega, fun hback => ?_⟩
      have hc : c = m - z.most := by omega
      have hbefore := z.lead_before_most hm hn hsec
      rw [← hc] at hbefore
      rw [Zone.leadOf_eq, if_neg (by omega)] at h₂
      omega
    · omega
  · intro h t
    rw [wallAt_eq]
    have e := z.lead_eq t
    rcases Int.lt_or_eq_of_le hle with hlt | heq
    · have hof := h.leadOf_eq hm hlt hn hsec
      have e' := z.lead_eq (m - z.most)
      by_cases hin : m - z.most ≤ t ∧ t < m - z.least
      · have := h.lead_eq hin.1 hin.2
        omega
      · omega
    · omega

end Zone

end LogSearch
