import LogSearch.Proofs.Outcomes
import LogSearch.Query.Params
import Mathlib.Data.List.Forall2
import Mathlib.Tactic.Lemma

/-!
# The bounds of the time window

A query may hold any number of date filters.  Each equality filter that names a range writes the
bounds of its window over those written before; no other filter and no free text touches them.  But
a window without an end writes only its start, and so an end that an earlier filter has written
stays.

* `Filter.NamesRange` — the filters that set the window.
* `Filter.addTo_of_namesRange`, `Filter.get?_addTo` — what one filter does to the bounds.
* `get?_foldlM_addTo` — what a list of filters does: the start is that of the last window, the end
  is that of the last window which has one.
* `params_bounds` — so the bounds are those of one filter if and only if the last window has an
  end or none has.
-/

namespace LogSearch

variable {z : Zone} {now : Moment} {p p' : Params} {f : Filter} {fld : Field} {name : Text}
  {filters : List Filter} {w : Window}

/-! ## Writing into the table -/

namespace Params

/-- The parameters that hold the bounds of the window. -/
def boundNames : List Text :=
  ["startDate".text, "endDate".text]

lemma get?_set_of_ne {name other : Text} (h : other ≠ name) (p : Params) (value : Text) :
    (p.set name value).get? other = p.get? other := by
  rw [get?_set, if_neg h]

lemma get?_append_of_ne {name other : Text} (h : other ≠ name) (p : Params) (separator : CodePoint)
    (value : Text) : (p.append name separator value).get? other = p.get? other := by
  rw [append]
  split <;> exact get?_set_of_ne h p _

lemma get?_setWindow_start (p : Params) (w : Window) :
    (p.setWindow w).get? "startDate".text = some (isoText w.start) := by
  rw [setWindow]
  split
  · rw [get?_set_of_ne (by decide), get?_set, if_pos rfl]
  · rw [get?_set, if_pos rfl]

/-- A window without an end leaves the end alone. -/
lemma get?_setWindow_end (p : Params) (w : Window) :
    (p.setWindow w).get? "endDate".text
      = (w.stop.map isoText).or (p.get? "endDate".text) := by
  rw [setWindow]
  split
  · rename_i stop hstop
    rw [get?_set, if_pos rfl, hstop]
    rfl
  · rename_i hstop
    rw [get?_set_of_ne (by decide), hstop]
    rfl

end Params

/-! ## One filter -/

/-- A filter that sets the window: one for equality, on the date, with the name of a range. -/
def Filter.NamesRange (f : Filter) : Prop :=
  Field.ofName? f.field = some .date ∧ f.operator = .eq ∧
    (RangeName.ofText? f.value.written).isSome

instance : DecidablePred Filter.NamesRange :=
  fun _ => inferInstanceAs (Decidable (_ ∧ _ ∧ _))

lemma Field.not_mem_boundNames_of_single {param : Text} (h : fld.role = .single param) :
    param ∉ Params.boundNames := by
  cases fld <;> simp only [Field.role, Role.single.injEq, reduceCtorEq] at h <;> subst h <;> decide

lemma Field.not_mem_boundNames_of_joined {param : Text} {separator : CodePoint}
    (h : fld.role = .joined param separator) : param ∉ Params.boundNames := by
  cases fld <;> simp only [Field.role, Role.joined.injEq, reduceCtorEq] at h <;>
    obtain ⟨rfl, -⟩ := h <;> decide

lemma Filter.flagName_not_mem_boundNames (f : Filter) : f.flagName ∉ Params.boundNames := by
  intro h
  have hunderscore := f.underscore_mem_flagName
  have hbounds : ∀ name ∈ Params.boundNames, chr '_' ∉ name := by decide
  exact hbounds _ h hunderscore

namespace Filter

/-- **A filter that names a range** writes the bounds of its window. -/
theorem addTo_of_namesRange (hf : f.NamesRange) (h : f.addTo z now p = .ok p') :
    ∃ w, namedWindow z f.value.written now = .ok (some w) ∧ p' = p.setWindow w := by
  obtain ⟨hfld, hop, hrange⟩ := hf
  obtain ⟨range, hrange⟩ := Option.isSome_iff_exists.1 hrange
  simp only [addTo, hfld, Option.map_some, Field.role, hop, ne_eq, not_true_eq_false, if_false] at h
  obtain ⟨o, hw, h⟩ := bind_eq_ok_iff.1 h
  cases o with
  | some w => exact ⟨w, hw, (Except.ok.inj h).symm⟩
  | none =>
      -- the name is that of a range, so there is a window or an error
      rw [namedWindow, hrange] at hw
      obtain ⟨today, -, hw⟩ := bind_eq_ok_iff.1 hw
      obtain ⟨w, -, hw⟩ := bind_eq_ok_iff.1 hw
      cases hw

/-- **Any other filter** leaves the bounds alone. -/
theorem get?_addTo (hf : ¬ f.NamesRange) (h : f.addTo z now p = .ok p')
    (hname : name ∈ Params.boundNames) : p'.get? name = p.get? name := by
  have hne : ∀ param ∉ Params.boundNames, name ≠ param := fun _ hp e => hp (e ▸ hname)
  cases hfld : Field.ofName? f.field with
  | none =>
      simp only [addTo, hfld, Option.map_none, Except.ok.injEq] at h
      rw [h]
  | some fld =>
      cases hrole : fld.role with
      | comparison =>
          simp only [addTo, hfld, Option.map_some, hrole, Except.ok.injEq] at h
          rw [← h, Params.get?_set_of_ne (hne _ f.flagName_not_mem_boundNames)]
      | single param =>
          have hparam := hne _ (Field.not_mem_boundNames_of_single hrole)
          simp only [addTo, hfld, Option.map_some, hrole] at h
          split at h
          · rw [Except.ok.inj h]
          · rw [← Except.ok.inj h, Params.get?_set_of_ne hparam]
      | joined param separator =>
          have hparam := hne _ (Field.not_mem_boundNames_of_joined hrole)
          simp only [addTo, hfld, Option.map_some, hrole] at h
          split at h
          · rw [Except.ok.inj h]
          · rw [← Except.ok.inj h, Params.get?_append_of_ne hparam]
      | window =>
          simp only [addTo, hfld, Option.map_some, hrole] at h
          split at h
          · rw [Except.ok.inj h]
          · rename_i hop
            obtain rfl := Field.role_eq_window_iff.1 hrole
            have hrange : RangeName.ofText? f.value.written = none := by
              rw [← Option.not_isSome_iff_eq_none]
              exact fun hr => hf ⟨hfld, not_not.1 hop, hr⟩
            obtain ⟨o, hw, h⟩ := bind_eq_ok_iff.1 h
            rw [namedWindow, hrange] at hw
            obtain ⟨today, -, hw⟩ := bind_eq_ok_iff.1 hw
            obtain rfl := Except.ok.inj hw
            rw [Except.ok.inj h]

end Filter

/-! ## All filters -/

/-- **The bounds after a list of filters.**  Each is that of the last window which has it, or else
what it was before. -/
theorem get?_foldlM_addTo (h : filters.foldlM (fun p f => f.addTo z now p) p = .ok p') :
    ∃ ws, List.Forall₂ (fun f w => namedWindow z f.value.written now = .ok (some w))
        (filters.filter (·.NamesRange)) ws ∧
      p'.get? "startDate".text
        = (ws.getLast?.map (isoText ·.start)).or (p.get? "startDate".text) ∧
      p'.get? "endDate".text
        = ((ws.filterMap (·.stop)).getLast?.map isoText).or (p.get? "endDate".text) := by
  induction filters generalizing p with
  | nil =>
      obtain rfl : p = p' := Except.ok.inj h
      exact ⟨[], .nil, rfl, rfl⟩
  | cons f filters ih =>
      rw [List.foldlM_cons] at h
      obtain ⟨q, hadd, h⟩ := bind_eq_ok_iff.1 h
      obtain ⟨ws, hws, hstart, hend⟩ := ih h
      by_cases hf : f.NamesRange
      · obtain ⟨w, hw, rfl⟩ := Filter.addTo_of_namesRange hf hadd
        refine ⟨w :: ws, ?_, ?_, ?_⟩
        · rw [List.filter_cons_of_pos (by simpa using hf)]
          exact .cons hw hws
        · rw [hstart, Params.get?_setWindow_start, List.getLast?_cons]
          cases ws.getLast? <;> rfl
        · rw [hend, Params.get?_setWindow_end]
          cases hstop : w.stop with
          | none => simp [hstop]
          | some stop =>
              simp only [List.filterMap_cons, hstop, List.getLast?_cons]
              cases (ws.filterMap (·.stop)).getLast? <;> rfl
      · have hbound : ∀ name ∈ Params.boundNames, q.get? name = p.get? name :=
          fun _ hname => Filter.get?_addTo hf hadd hname
        refine ⟨ws, ?_, ?_, ?_⟩
        · rwa [List.filter_cons_of_neg (by simpa using hf)]
        · rw [hstart, hbound _ (by decide)]
        · rw [hend, hbound _ (by decide)]

/-- The end of the last window is that of the last one with an end if and only if it has an end or
none has. -/
lemma getLast?_filterMap_stop_iff {ws : List Window} (hw : ws.getLast? = some w) :
    (ws.filterMap (·.stop)).getLast?.map isoText = w.stop.map isoText ↔
      (w.stop = none → ∀ v ∈ ws, v.stop = none) := by
  obtain ⟨ws, rfl⟩ := List.getLast?_eq_some_iff.1 hw
  cases hstop : w.stop with
  | some stop => simp [List.filterMap_append, hstop]
  | none =>
      have hall : (∀ v ∈ ws, v.stop = none) ↔ ∀ v ∈ ws ++ [w], v.stop = none := by
        rw [List.forall_mem_append]
        simp [hstop]
      simpa [List.filterMap_append, hstop] using hall

/-- **The bounds of the time window.**  If the parameters of a query can be computed, then so can
the windows of its date filters, and the start is that of the last window.  The end is that of the
last window which has one.  So it is the end of the last window, or absent with it, if and only if
the last window has an end or none has. -/
theorem params_bounds (q : Query) (z : Zone) (now : Moment) (p : Params)
    (h : q.params z now = .ok p) :
    ∃ ws, List.Forall₂ (fun f w => namedWindow z f.value.written now = .ok (some w))
        (q.filters.filter (·.NamesRange)) ws ∧
      p.get? "startDate".text = ws.getLast?.map (isoText ·.start) ∧
      p.get? "endDate".text = (ws.filterMap (·.stop)).getLast?.map isoText ∧
      ∀ w ∈ ws.getLast?, p.get? "endDate".text = w.stop.map isoText ↔
        (w.stop = none → ∀ v ∈ ws, v.stop = none) := by
  rw [Query.params] at h
  cases hfold : q.filters.foldlM (fun p f => f.addTo z now p) Params.empty with
  | error e => simp [hfold, bind, Except.bind] at h
  | ok p' =>
      obtain ⟨ws, hws, hstart, hend⟩ := get?_foldlM_addTo hfold
      -- the free text goes under another name
      have hsearch : ∀ name ∈ Params.boundNames, p.get? name = p'.get? name := by
        intro name hname
        have hne : name ≠ "search".text := fun e => absurd (e ▸ hname) (by decide)
        simp only [hfold, bind, Except.bind, pure, Except.pure, Except.ok.injEq] at h
        rw [← h]
        split
        · rfl
        · exact Params.get?_append_of_ne hne p' _ _
      rw [← hsearch _ (by decide), show Params.empty.get? _ = none from rfl, Option.or_none] at *
      refine ⟨ws, hws, hstart, hend, fun w hw => ?_⟩
      rw [hend]
      exact getLast?_filterMap_stop_iff hw

/-- A closed range, two filters that set nothing, an open range, and a closed range at the end. -/
theorem params_bounds_last_week :
    let text := "date:yesterday date:!=today date:tomorrow date:today date:last-week refund".text
    let now := Moment.wall (Date.toDay ⟨2026, 10, 14⟩ * dayLength)
    ∃ p ws, (Query.parse text).params .utc now = .ok p ∧
      List.Forall₂ (fun f w => namedWindow .utc f.value.written now = .ok (some w))
        ((Query.parse text).filters.filter (·.NamesRange)) ws ∧
      p.get? "startDate".text = ws.getLast?.map (isoText ·.start) ∧
      p.get? "startDate".text = some "2026-10-05T00:00:00.000Z".text ∧
      p.get? "endDate".text = some "2026-10-11T23:59:59.999Z".text := by
  intro text now
  obtain ⟨p, hp, hstart, hend⟩ : ∃ p, (Query.parse text).params .utc now = .ok p ∧
      p.get? "startDate".text = some "2026-10-05T00:00:00.000Z".text ∧
      p.get? "endDate".text = some "2026-10-11T23:59:59.999Z".text :=
    ⟨⟨[("startDate".text, "2026-10-05T00:00:00.000Z".text),
      ("endDate".text, "2026-10-11T23:59:59.999Z".text),
      ("search".text, "refund".text)]⟩, by decide +kernel⟩
  obtain ⟨ws, hws, hlast, -, -⟩ := params_bounds (Query.parse text) .utc now p hp
  exact ⟨p, ws, hp, hws, hlast, hstart, hend⟩

/-- **A window that ends before it starts.**  After `date:yesterday`, the filter `date:today` writes
its start and leaves the end, although its own window has none. -/
theorem params_inverted_window :
    let q := Query.parse "date:yesterday date:today".text
    let midnight := Date.toDay ⟨2026, 10, 14⟩ * dayLength
    let startText := "2026-10-14T00:00:00.000Z".text
    let endText := "2026-10-13T23:59:59.999Z".text
    namedWindow .utc "today".text (.wall midnight) = .ok (some ⟨midnight, none⟩) ∧
      q.params .utc (.wall midnight)
        = .ok ⟨[("startDate".text, startText), ("endDate".text, endText)]⟩ ∧
      endText < startText := by
  decide +kernel

end LogSearch
