import LogSearch.Proofs.Values
import LogSearch.Query.Field
import LogSearch.Query.Parse

/-!
# Values that do not fit their field

A filter is rejected if its key names no field, or if its field holds numbers and the value is not
one.  Numbers hold no blanks, so a value that was rejected and holds a blank stays rejected when
its blanks change: `Field.coerce?_eq_none_of_isBlank`.
-/

namespace LogSearch

variable {s : Text} {c : CodePoint}

lemma isDigit_eq_false_of_isBlank (h : isBlank c) : isDigit c = false := by
  by_cases hn : c.toNat < 0x80
  · have hascii : ∀ n < 0x80, isBlank (.ofNat n) → isDigit (.ofNat n) = false := by
      decide +kernel
    have := hascii c.toNat hn
    rw [CodePoint.ofNat_toNat] at this
    exact this h
  · have hwide : ∀ n ∈ wideBlanks, digitZeros.find? (fun z => z ≤ n && n ≤ z + 9) = none := by
      decide +kernel
    rw [isBlank] at h
    rw [if_neg hn] at h
    simp [isDigit, digit?, hwide _ (by simpa using h)]

/-! ## The characters of numerals -/

/-- The characters that numerals are made of: digits, signs, the point and the mark of an
exponent. -/
def IsNumeralChar (c : CodePoint) : Prop :=
  isDigit c ∨ c ∈ [chr '+', chr '-', chr '.', chr 'e', chr 'E']

lemma IsNumeralChar.isBlank_eq_false (h : IsNumeralChar c) : isBlank c = false := by
  rcases h with h | h
  · by_contra hb
    rw [isDigit_eq_false_of_isBlank (by simpa using hb)] at h
    exact Bool.noConfusion h
  · have hall : [chr '+', chr '-', chr '.', chr 'e', chr 'E'].all fun c => !isBlank c := by decide
    simpa using List.all_eq_true.1 hall c h

namespace Numeral

lemma isNumeralChar_of_splitSign (h : ∀ c ∈ (splitSign s).2, IsNumeralChar c) :
    ∀ c ∈ s, IsNumeralChar c := by
  rw [splitSign.eq_def] at h
  split at h
  · exact List.forall_mem_cons.2 ⟨Or.inr (by simp), h⟩
  · exact List.forall_mem_cons.2 ⟨Or.inr (by simp), h⟩
  · exact h

lemma isNumeralChar_of_dropWhile (h : ∀ c ∈ s.dropWhile isDigit, IsNumeralChar c) :
    ∀ c ∈ s, IsNumeralChar c := by
  intro c hc
  rw [← List.takeWhile_append_dropWhile (p := isDigit) (l := s), List.mem_append] at hc
  rcases hc with hc | hc
  · exact Or.inl (List.mem_takeWhile_imp hc)
  · exact h c hc

lemma isNumeralChar_of_readExponent? {e : Int} (h : readExponent? s = some e) :
    ∀ c ∈ s, IsNumeralChar c := by
  cases s with
  | nil => simp
  | cons c s =>
      simp only [readExponent?] at h
      split at h
      · rename_i hc
        simp only [Bool.and_eq_true, Bool.or_eq_true, beq_iff_eq, List.all_eq_true] at hc
        obtain ⟨⟨hc, -⟩, hdigits⟩ := hc
        refine List.forall_mem_cons.2 ⟨Or.inr ?_, ?_⟩
        · rcases hc with rfl | rfl <;> simp
        · exact isNumeralChar_of_splitSign fun d hd => Or.inl (hdigits d hd)
      · simp at h

/-- A numeral is made of nothing else. -/
lemma isNumeralChar_of_read? {n : Numeral} (h : read? s = some n) : ∀ c ∈ s, IsNumeralChar c := by
  refine isNumeralChar_of_splitSign (isNumeralChar_of_dropWhile ?_)
  simp only [read?] at h
  split at h
  · rename_i r hr
    split at h
    · simp at h
    · obtain ⟨e, he, -⟩ := Option.map_eq_some_iff.1 h
      rw [hr]
      exact List.forall_mem_cons.2
        ⟨Or.inr (by simp), isNumeralChar_of_dropWhile (isNumeralChar_of_readExponent? he)⟩
  · split at h
    · simp at h
    · obtain ⟨e, he, -⟩ := Option.map_eq_some_iff.1 h
      exact isNumeralChar_of_readExponent? he

end Numeral

/-! ## Numbers hold no blanks -/

lemma isBlank_of_readNumber? {x : Binary64} (h : readNumber? s = some x) :
    ∀ c ∈ s, isBlank c = false := by
  obtain ⟨hmap, -⟩ := Option.filter_eq_some_iff.1 h
  obtain ⟨n, hn, -⟩ := Option.map_eq_some_iff.1 hmap
  exact fun c hc => (Numeral.isNumeralChar_of_read? hn c hc).isBlank_eq_false

namespace Field

lemma isBlank_of_beforeEnding? {ending n : Text} (hs : beforeEnding? ending s = some n)
    (he : ∀ c ∈ ending, isBlank c = false) (hn : ∀ c ∈ n, isBlank c = false) :
    ∀ c ∈ s, isBlank c = false := by
  rw [beforeEnding?] at hs
  split at hs
  · rename_i hsuf
    obtain ⟨p, rfl⟩ := List.isSuffixOf_iff_suffix.1 hsuf
    obtain rfl : p = n := by simpa using hs
    exact List.forall_mem_append.2 ⟨hn, he⟩
  · simp at hs

lemma isBlank_of_readDuration? {x : Binary64} (h : readDuration? s = some x) :
    ∀ c ∈ s, isBlank c = false := by
  rw [readDuration?] at h
  split at h
  · rename_i hs
    exact isBlank_of_beforeEnding? hs (by simp; decide) (isBlank_of_readNumber? h)
  · split at h
    · rename_i hs
      obtain ⟨y, hy, -⟩ := Option.map_eq_some_iff.1 h
      exact isBlank_of_beforeEnding? hs (by simp; decide) (isBlank_of_readNumber? hy)
    · exact isBlank_of_readNumber? h

/-- **Rejected values.**  A field that rejects any value at all rejects every value with a
blank. -/
theorem coerce?_eq_none_of_isBlank {fld : Field} {t : Text} (h : fld.coerce? s = none)
    (hc : c ∈ t) (hb : isBlank c) : fld.coerce? t = none := by
  by_contra hn
  obtain ⟨v, hv⟩ := Option.ne_none_iff_exists'.1 hn
  have ht : isBlank c = false := by
    cases fld with
    | cost =>
        obtain ⟨x, hx, -⟩ := Option.map_eq_some_iff.1 hv
        exact isBlank_of_readNumber? hx c hc
    | duration =>
        obtain ⟨x, hx, -⟩ := Option.map_eq_some_iff.1 hv
        exact isBlank_of_readDuration? hx c hc
    | _ => simp [coerce?] at h
  rw [hb] at ht
  exact Bool.noConfusion ht

end Field

/-! ## Quoted values -/

/-- What is between the quotes is the value. -/
lemma unquote_quoted (s : Text) : unquote (quoted s) = s := by
  simp [quoted, unquote]

/-- A filter with a quoted value is read from what stands between the quotes. -/
lemma Filter.read?_quoted (key : Text) (op : Option Operator) (s : Text) :
    Filter.read? key (Operator.textOf op ++ quoted s)
      = (Field.ofName? key).bind fun fld => (fld.coerce? s).map fun v =>
          ⟨key, op.getD .eq, v, Operator.textOf op ++ quoted s⟩ := by
  have hsplit : Operator.split (Operator.textOf op ++ quoted s) = (op.getD .eq, quoted s) :=
    Operator.split_textOf_append op _
  simp only [Filter.read?, hsplit, unquote_quoted]
  cases Field.ofName? key with
  | none => rfl
  | some fld => cases hv : fld.coerce? s <;> simp [hv]

end LogSearch
