import LogSearch.Proofs.Exact
import LogSearch.Proofs.Parse
import Mathlib.Algebra.Order.Ring.Abs

/-!
# The kinds of parsed values

A filter that the parser accepts names a field and holds a value of that field's kind.  For numbers
the kind asks for a finite one, and there the parser has a gap: whether a number is finite is looked
at before a duration in seconds is turned into milliseconds, and the product may be too large.

* `FieldKind.Holds` — the values of a kind.
* `Filter.Overflows` — the durations that are finite in seconds and not in milliseconds, told by the
  number that was typed.
* `parsed_holds_iff` — these are the only filters whose value is not of its kind; it is infinite.
-/

namespace LogSearch

variable {s n : Text} {x y : Binary64} {f : Filter} {fld : Field} {v : Value}

/-- The values of a kind: finite numbers, or texts. -/
def FieldKind.Holds : FieldKind → Value → Prop
  | .number, v => ∃ x : Binary64, v = .number x ∧ x.isFinite
  | .string, v => ∃ s, v = .text s
  | .date, v => ∃ s, v = .text s

/-! ## Durations -/

lemma isFinite_of_readNumber? (h : readNumber? s = some x) : x.isFinite :=
  (Option.filter_eq_some_iff.1 h).2

namespace Field

lemma beforeEnding?_eq_some_iff {ending : Text} :
    beforeEnding? ending s = some n ↔ s = n ++ ending := by
  rw [beforeEnding?]
  constructor
  · intro h
    split at h
    · rename_i hsuf
      obtain ⟨m, rfl⟩ := List.isSuffixOf_iff_suffix.1 hsuf
      obtain rfl : m = n := by simpa using h
      rfl
    · simp at h
  · rintro rfl
    simp

/-- A text ends in the unit of seconds, with `n` before it. -/
def InSeconds (s n : Text) : Prop :=
  s = n ++ [chr 's'] ∧ n.getLast? ≠ some (chr 'm')

lemma readDuration?_of_inSeconds (h : InSeconds s n) :
    readDuration? s = (readNumber? n).map (Binary64.scale 1000) := by
  obtain ⟨rfl, hm⟩ := h
  have hms : beforeEnding? [chr 'm', chr 's'] (n ++ [chr 's']) = none := by
    rw [Option.eq_none_iff_forall_ne_some]
    intro k hk
    have happ : n ++ [chr 's'] = (k ++ [chr 'm']) ++ [chr 's'] := by
      simpa using beforeEnding?_eq_some_iff.1 hk
    obtain rfl := List.append_cancel_right happ
    simp at hm
  rw [readDuration?, hms, beforeEnding?_eq_some_iff.2 rfl]

/-- A duration that is not in seconds is the number that was typed. -/
lemma isFinite_of_readDuration? (hn : ∀ n, ¬ InSeconds s n) (h : readDuration? s = some y) :
    y.isFinite := by
  rw [readDuration?] at h
  split at h
  · exact isFinite_of_readNumber? h
  · rename_i hms
    split at h
    · rename_i n hs
      obtain rfl := beforeEnding?_eq_some_iff.1 hs
      refine absurd ⟨rfl, fun hm => ?_⟩ (hn n)
      obtain ⟨k, rfl⟩ := List.getLast?_eq_some_iff.1 hm
      rw [beforeEnding?_eq_some_iff (n := k) |>.2 (by simp)] at hms
      exact absurd hms (by simp)
    · exact isFinite_of_readNumber? h

end Field

/-! ## Parsed filters -/

/-- The filter is a duration in seconds whose number of milliseconds is too large for a finite
double. -/
def Filter.Overflows (f : Filter) : Prop :=
  f.field = Field.duration.name ∧
    ∃ seconds x q, Field.InSeconds (unquote (Operator.split f.typed).2) seconds ∧
      readNumber? seconds = some x ∧ x.toRat? = some q ∧ 2 ^ 1024 - 2 ^ 970 ≤ |q| * 1000

/-- Whether a duration in seconds overflows is told by its number of seconds. -/
lemma Filter.overflows_iff {q : ℚ} (hname : f.field = Field.duration.name)
    (hs : Field.InSeconds (unquote (Operator.split f.typed).2) n) (hx : readNumber? n = some x)
    (hq : x.toRat? = some q) : f.Overflows ↔ 2 ^ 1024 - 2 ^ 970 ≤ |q| * 1000 := by
  constructor
  · rintro ⟨-, n', x', q', hs', hx', hq', hle⟩
    obtain rfl : n' = n := List.append_cancel_right (hs'.1.symm.trans hs.1)
    obtain rfl : x' = x := Option.some_inj.1 (hx'.symm.trans hx)
    obtain rfl : q' = q := Option.some_inj.1 (hq'.symm.trans hq)
    exact hle
  · intro hle
    exact ⟨hname, n, x, q, hs, hx, hq, hle⟩

/-- A duration is finite unless it overflows, and then it is infinite. -/
lemma Filter.isFinite_duration_iff (hname : f.field = Field.duration.name)
    (h : Field.readDuration? (unquote (Operator.split f.typed).2) = some x) :
    (x.isFinite ↔ ¬ f.Overflows) ∧ (f.Overflows → ∃ negative, x = .infinite negative) := by
  by_cases hsec : ∃ n, Field.InSeconds (unquote (Operator.split f.typed).2) n
  · obtain ⟨n, hs⟩ := hsec
    rw [Field.readDuration?_of_inSeconds hs] at h
    obtain ⟨seconds, hread, rfl⟩ := Option.map_eq_some_iff.1 h
    have hfinite := isFinite_of_readNumber? hread
    obtain ⟨q, hq⟩ := Binary64.exists_toRat? hfinite
    have hscale := Binary64.isFinite_scale_iff hq 1000
    rw [overflows_iff hname hs hread hq, not_le, hscale]
    refine ⟨Iff.rfl, fun hle => Binary64.exists_infinite_of_scale hfinite ?_⟩
    rw [hscale]
    exact not_lt.2 hle
  · have hover : ¬ f.Overflows := by
      rintro ⟨-, n, -, -, hs, -⟩
      exact hsec ⟨n, hs⟩
    have hfinite := Field.isFinite_of_readDuration? (fun n hs => hsec ⟨n, hs⟩) h
    exact ⟨iff_of_true hfinite hover, fun ho => absurd ho hover⟩

/-- What an accepted filter is read from. -/
lemma Query.exists_of_mem_filters (hf : f ∈ (parse s).filters) :
    ∃ fld, Field.ofName? f.field = some fld ∧
      fld.coerce? (unquote (Operator.split f.typed).2) = some f.value := by
  obtain ⟨p, -, hp⟩ := List.mem_filterMap.1 hf
  simp only [Span.filter?, Filter.read?, Option.bind_eq_bind, Option.bind_eq_some_iff,
    Option.some.injEq] at hp
  obtain ⟨fld, hfld, v, hv, rfl⟩ := hp
  exact ⟨fld, hfld, hv⟩

/-- **Parsed values and their kinds.**  Every filter of a query names a field.  Its value is of the
field's kind if and only if it is not a duration in seconds that overflows in milliseconds; then its
value is infinite. -/
theorem parsed_holds_iff (s : Text) (hf : f ∈ (Query.parse s).filters) :
    ∃ fld, Field.ofName? f.field = some fld ∧ (fld.kind.Holds f.value ↔ ¬ f.Overflows) ∧
      (f.Overflows → ∃ negative, f.value = .number (.infinite negative)) := by
  obtain ⟨fld, hfld, hv⟩ := Query.exists_of_mem_filters hf
  refine ⟨fld, hfld, ?_⟩
  have hname := Field.name_of_ofName? hfld
  have hother : fld ≠ .duration → ¬ f.Overflows := fun hne ho => by
    rw [ho.1] at hfld
    exact hne (Option.some_inj.1 (hfld.symm.trans rfl))
  cases fld with
  | duration =>
      obtain ⟨x, hread, hx⟩ := Option.map_eq_some_iff.1 hv
      obtain ⟨hfinite, hinfinite⟩ := Filter.isFinite_duration_iff hname.symm hread
      rw [← hx, ← hfinite]
      refine ⟨?_, fun ho => ?_⟩
      · simp [Field.kind, FieldKind.Holds]
      · obtain ⟨negative, rfl⟩ := hinfinite ho
        exact ⟨negative, rfl⟩
  | cost =>
      obtain ⟨x, hread, hx⟩ := Option.map_eq_some_iff.1 hv
      have hholds : Field.cost.kind.Holds f.value := ⟨x, hx.symm, isFinite_of_readNumber? hread⟩
      exact ⟨iff_of_true hholds (hother (by decide)), fun ho => absurd ho (hother (by decide))⟩
  | _ =>
      have hholds : ∃ t, f.value = .text t := ⟨_, (Option.some_inj.1 hv).symm⟩
      exact ⟨iff_of_true hholds (hother (by decide)), fun ho => absurd ho (hother (by decide))⟩

/-- Half a minute, as a number of milliseconds. -/
theorem parsed_holds_iff_half_minute :
    let f : Filter := ⟨"duration".text, .le, .number (.ofInt 30000), "<=30s".text⟩
    f ∈ (Query.parse "refund duration:<=30s".text).filters ∧
      FieldKind.number.Holds f.value ∧ ¬ f.Overflows := by
  intro f
  have hf : f ∈ (Query.parse "refund duration:<=30s".text).filters := by decide +kernel
  obtain ⟨fld, hfld, hholds, -⟩ := parsed_holds_iff _ hf
  have hvalue : FieldKind.number.Holds f.value := ⟨_, rfl, by decide +kernel⟩
  obtain rfl : .duration = fld := Option.some_inj.1 (Eq.trans (by decide +kernel) hfld)
  exact ⟨hf, hvalue, hholds.1 hvalue⟩

/-- **An infinite duration.**  `1e308` is a finite number of seconds, but not of milliseconds, and
the filter is accepted with an infinite value. -/
theorem parsed_infinite_duration :
    let f : Filter := ⟨"duration".text, .eq, .number (.infinite false), "1e308s".text⟩
    Query.parse "duration:1e308s".text = ⟨[f], []⟩ ∧ Field.ofName? f.field = some .duration ∧
      ¬ Field.duration.kind.Holds f.value := by
  intro f
  refine ⟨by decide +kernel, by decide +kernel, ?_⟩
  rintro ⟨x, hx, hfinite⟩
  obtain rfl : .infinite false = x := by simpa [f] using hx
  simp [Binary64.isFinite] at hfinite

end LogSearch
