import LogSearch.Proofs.Clock
import LogSearch.Proofs.Outcomes

/-!
# From readings to instants

To turn a reading of the clock into an instant, the zone is asked four times for the reading at some
instant nearby, and each of these readings must lie in the calendar; so must the result.

* `Zone.guess`, `Zone.earlier` — where the zone is asked, and `Zone.consulted` for what.
* `Zone.instantOf_eq_checked` — where all four readings lie in the calendar, only the result counts.
* `Zone.instantOf_eq` — away from the ends of the calendar every reading has an instant.
* `Zone.wallAt_sub_leadOf` — at this instant the clock shows the reading, if it ever does.
-/

namespace LogSearch

namespace Zone

variable {z : Zone} {t w : Int}

/-! ## Leads -/

lemma lead_bounds (z : Zone) (t : Int) : z.least ≤ z.lead t ∧ z.lead t ≤ z.most := by
  have h := z.lead_eq t
  have hle := z.least_le_most
  omega

lemma leadOf_bounds (z : Zone) (w : Int) : z.least ≤ z.leadOf w ∧ z.leadOf w ≤ z.most := by
  have h := z.leadOf_eq_or w
  have hle := z.least_le_most
  omega

lemma second_dvd_leadOf (z : Zone) (w : Int) : second ∣ z.leadOf w :=
  Int.dvd_mul_left ..

/-- **The instant taken for a reading shows it**, if the clock ever does. -/
theorem wallAt_sub_leadOf (h : ∃ t, z.wallAt t = w) : z.wallAt (w - z.leadOf w) = w := by
  obtain ⟨t, ht⟩ := h
  have hor := z.lead_eq t
  rw [wallAt_eq] at ht
  have hfits : z.lead (w - z.most) = z.most ∨ z.lead (w - z.least) = z.least := by
    rcases hor with hmost | hleast
    · exact Or.inl (by rw [← hmost, show w - z.lead t = t by omega])
    · exact Or.inr (by rw [← hleast, show w - z.lead t = t by omega])
  rw [wallAt_eq, leadOf_eq]
  split <;> omega

/-! ## The calendar -/

lemma inCalendar_iff : inCalendar t = true ↔ 0 ≤ t ∧ t < calendarDays * dayLength := by
  rw [inCalendar, Bool.and_eq_true, decide_eq_true_eq, decide_eq_true_eq]

lemma checked_eq_ok_iff {u : Int} : checked t = .ok u ↔ inCalendar t = true ∧ t = u := by
  rw [checked]
  split <;> simp [*]

/-! ## The conversion -/

/-- The instant that the offset at the instant of the same name in UTC leads to. -/
def guess (z : Zone) (w : Int) : Int :=
  w - z.lead w

/-- That instant, or the one a day before it where the clock shows the reading there. -/
def earlier (z : Zone) (w : Int) : Int :=
  if z.wallAt (z.guess w) = w then z.guess w - dayLength else z.guess w

/-- The readings that the zone is asked for on the way, in order. -/
def consulted (z : Zone) (w : Int) : List Int :=
  [z.wallAt w, z.wallAt (z.guess w), z.wallAt (z.earlier w), z.wallAt (w - z.lead (z.earlier w))]

lemma instantOf_def (z : Zone) (w : Int) : z.instantOf w = (do
    forM (z.consulted w) checkReading
    checked (w - z.leadOf w)) := by
  simp only [consulted, List.forM_cons, List.forM_nil, bind_assoc, pure_bind]
  rfl

lemma checkReading_eq_ok_iff : checkReading w = .ok () ↔ inCalendar w = true := by
  rw [checkReading]
  split <;> simp [*]

/-- Where all readings consulted on the way lie in the calendar, the conversion fails only if its
result does not. -/
lemma instantOf_eq_checked (h : ∀ r ∈ z.consulted w, inCalendar r = true) :
    z.instantOf w = checked (w - z.leadOf w) := by
  rw [instantOf_def, forM_eq_ok_iff.2 fun r hr => checkReading_eq_ok_iff.2 (h r hr)]
  rfl

/-- The instant of a reading, if it has one, lies in the calendar. -/
lemma eq_of_instantOf (h : z.instantOf w = .ok t) :
    inCalendar t = true ∧ t = w - z.leadOf w := by
  rw [instantOf_def] at h
  obtain ⟨-, -, h⟩ := bind_eq_ok_iff.1 h
  obtain ⟨hresult, rfl⟩ := checked_eq_ok_iff.1 h
  exact ⟨hresult, rfl⟩

lemma wallAt_guess (z : Zone) (w : Int) :
    z.wallAt (z.guess w) = w + (z.lead (z.guess w) - z.lead w) := by
  rw [wallAt_eq]
  unfold guess
  omega

/-- The clock at the earlier instant. -/
lemma wallAt_earlier (z : Zone) (w : Int) :
    z.earlier w = z.guess w - dayLength ∧
        z.wallAt (z.earlier w) = w - dayLength + (z.lead (z.guess w - dayLength) - z.lead w) ∨
      z.earlier w = z.guess w ∧ z.wallAt (z.earlier w) = z.wallAt (z.guess w) := by
  unfold earlier
  split
  · refine Or.inl ⟨rfl, ?_⟩
    rw [wallAt_eq]
    unfold guess
    omega
  · exact Or.inr ⟨rfl, rfl⟩

/-- The zone is asked for readings that are less than a day ahead, or as far as the leads lie apart,
and at most that and a day behind. -/
lemma consulted_bounds (hz : z.WithinDay) : ∀ r ∈ z.consulted w,
    w - dayLength - (z.most - z.least) ≤ r ∧
      (r < w + dayLength ∨ r ≤ w + (z.most - z.least)) := by
  obtain ⟨hlow, hhigh⟩ := hz
  have hle := z.least_le_most
  have hlead := z.lead_bounds w
  have hguess := z.lead_bounds (z.guess w)
  have hbefore := z.lead_bounds (z.guess w - dayLength)
  have hlast := z.lead_bounds (w - z.lead (z.earlier w))
  have hearlier := z.lead_bounds (z.earlier w)
  have hcases := z.wallAt_earlier w
  rw [wallAt_guess] at hcases
  simp only [consulted, List.forall_mem_cons, List.not_mem_nil, false_imp_iff, implies_true,
    and_true, wallAt_guess, wallAt_eq z w, wallAt_eq z (w - z.lead (z.earlier w))]
  unfold dayLength at *
  omega

/-- **A reading of the clock has an instant**, if the readings a day and the distance of the leads
before it, and those either of these after it, lie in the calendar. -/
theorem instantOf_eq (hz : z.WithinDay) (h₁ : dayLength + (z.most - z.least) ≤ w)
    (h₂ : w + (z.most - z.least) < calendarDays * dayLength)
    (h₃ : w ≤ (calendarDays - 1) * dayLength) : z.instantOf w = .ok (w - z.leadOf w) := by
  have hresult : inCalendar (w - z.leadOf w) = true := by
    have hle := z.least_le_most
    have hof := z.leadOf_bounds w
    obtain ⟨hlow, hhigh⟩ := hz
    rw [inCalendar_iff]
    unfold dayLength calendarDays at *
    omega
  rw [instantOf_eq_checked, checked, if_pos hresult]
  intro r hr
  have hbounds := consulted_bounds hz r hr
  rw [inCalendar_iff]
  unfold dayLength calendarDays at *
  omega

end Zone

end LogSearch
