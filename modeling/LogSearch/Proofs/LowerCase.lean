import LogSearch.Completion.Engine
import LogSearch.Proofs.Words
import Mathlib.Data.List.Infix
import Mathlib.Data.List.TakeWhile

/-!
# Lower case of a part of a text

Texts are compared in lower case, and a part of a text is lower-cased by itself.  For nearly all
characters that makes no difference.  A capital sigma is the exception: it becomes one of two small
letters, depending on the letters around it, and at the edge of a part some of these are missing.

* `contains_iff` — the search for a part finds it wherever it is.
* `lowerWithin` — the lower-case form of a part where it stands, so that `lower` of the whole is put
  together from the forms of its parts (`lower_append`).
* `SameEnds` — a part in which each sigma ends a word exactly if it does where the part stands.
* `HasOpenSigma` — a text with a sigma of which that cannot be told from the text alone.
* `forall_infix_lower_iff` — a text can be found in lower case wherever it stands if and only if it
  has no open sigma.
-/

namespace LogSearch

variable {a b before after part s t : Text} {c : CodePoint}

/-! ## Parts -/

lemma contains_iff : contains part s ↔ part <:+: s := by
  induction s with
  | nil => simp [contains]
  | cons c s ih => simp [contains, ih, List.infix_cons_iff, List.isPrefixOf_iff_prefix]

/-! ## The letters around a sigma -/

/-- Whether the nearest character that is not case-ignorable is a cased letter. -/
def seesCased (s : Text) : Bool :=
  (s.dropWhile isCaseIgnorable).head?.any isCased

/-- A sigma ends a word if a cased letter is seen before it and none after it. -/
lemma endsWord_eq (before after : Text) :
    endsWord before after = (seesCased before && !seesCased after) :=
  rfl

lemma seesCased_eq_false (h : s.all isCaseIgnorable) : seesCased s = false := by
  rw [seesCased, List.dropWhile_eq_nil_iff.2 (List.all_eq_true.1 h)]
  rfl

/-- Characters further out are seen only behind ones that are case-ignorable. -/
lemma seesCased_append (s t : Text) :
    seesCased (s ++ t) = if s.all isCaseIgnorable then seesCased t else seesCased s := by
  have hnil : ((s.dropWhile isCaseIgnorable).isEmpty = true) ↔ s.all isCaseIgnorable := by
    rw [List.isEmpty_iff, List.dropWhile_eq_nil_iff, List.all_eq_true]
  rw [seesCased, List.dropWhile_append]
  by_cases h : s.all isCaseIgnorable
  · rw [if_pos (hnil.2 h), if_pos h, seesCased]
  · rw [if_neg (mt hnil.1 h), if_neg h, seesCased, List.head?_append_of_ne_nil]
    exact fun hempty => h (hnil.1 (List.isEmpty_iff.2 hempty))

/-- A place in a text at which it is open whether a sigma ends a word: nothing is known before it
and no letter is seen after it, or a letter is seen before it and nothing is known after it. -/
def IsOpenPlace (before after : Text) : Prop :=
  (before.all isCaseIgnorable ∧ seesCased after = false) ∨
    (after.all isCaseIgnorable ∧ seesCased before)

instance (before after : Text) : Decidable (IsOpenPlace before after) :=
  inferInstanceAs (Decidable (_ ∨ _))

/-- Elsewhere the characters further out do not matter. -/
lemma endsWord_append (h : ¬ IsOpenPlace before after) (a b : Text) :
    endsWord (before ++ a) (after ++ b) = endsWord before after := by
  simp only [IsOpenPlace, not_or, not_and, Bool.not_eq_false, Bool.not_eq_true] at h
  simp only [endsWord_eq, seesCased_append]
  by_cases hbefore : before.all isCaseIgnorable <;> by_cases hafter : after.all isCaseIgnorable
  · have hnone := h.1 hbefore
    rw [seesCased_eq_false hafter] at hnone
    exact Bool.noConfusion hnone
  · simp [hbefore, hafter, h.1 hbefore]
  · simp [hbefore, hafter, h.2 hafter]
  · simp [hbefore, hafter]

/-- At an open place a letter on one side or on the other makes a difference. -/
lemma endsWord_append_ne (h : IsOpenPlace before after) (ht : seesCased t) :
    endsWord (before ++ t) after ≠ endsWord before after ∨
      endsWord before (after ++ t) ≠ endsWord before after := by
  simp only [endsWord_eq, seesCased_append]
  rcases h with ⟨hall, hsees⟩ | ⟨hall, hsees⟩
  · exact Or.inl (by simp [hall, hsees, ht, seesCased_eq_false hall])
  · exact Or.inr (by simp [hall, hsees, ht, seesCased_eq_false hall])

/-! ## Lower case where a part stands -/

/-- The lower-case form of a text that stands before `after` and behind `before`, which is given
backwards. -/
def lowerWithin (before : Text) : Text → Text → Text
  | [], _ => []
  | c :: s, after => lowerBetween before c (s ++ after) ++ lowerWithin (c :: before) s after

lemma lowerAfter_append (before s t : Text) :
    lowerAfter before (s ++ t) = lowerWithin before s t ++ lowerAfter (s.reverse ++ before) t := by
  induction s generalizing before with
  | nil => rfl
  | cons c s ih => simp [lowerAfter, lowerWithin, ih]

/-- **Lower case is put together from the forms of the parts where they stand.** -/
lemma lower_append (a s b : Text) : lower (a ++ s ++ b)
    = lowerWithin [] a (s ++ b) ++ lowerWithin a.reverse s b
      ++ lowerAfter (s.reverse ++ a.reverse) b := by
  rw [lower, List.append_assoc, lowerAfter_append, lowerAfter_append]
  simp

lemma lower_eq_lowerWithin (s : Text) : lower s = lowerWithin [] s [] := by
  have h := lower_append [] s []
  simpa [lowerAfter, lowerWithin] using h

lemma toNat_eq_sigma_iff : c.toNat = 0x3A3 ↔ c = chr 'Σ' :=
  ⟨fun h => CodePoint.toNat_inj.1 h, fun h => h ▸ rfl⟩

/-- The form of a character takes the same room everywhere. -/
lemma length_lowerBetween (a a' b b' : Text) (c : CodePoint) :
    (lowerBetween a c b).length = (lowerBetween a' c b').length := by
  simp only [lowerBetween]
  split
  · rfl
  · split <;> rfl

/-- The form of a character depends on where it stands only if it is a sigma. -/
lemma lowerBetween_eq_iff {a' b' : Text} : lowerBetween a c b = lowerBetween a' c b' ↔
    (c = chr 'Σ' → endsWord a b = endsWord a' b') := by
  by_cases hc : c = chr 'Σ'
  · subst hc
    simp only [lowerBetween]
    cases endsWord a b <;> cases endsWord a' b' <;> simp
  · have hsigma : c.toNat ≠ 0x3A3 := fun h => hc (toNat_eq_sigma_iff.1 h)
    simp [lowerBetween, hc, hsigma]

lemma length_lowerWithin (a a' b b' s : Text) :
    (lowerWithin a s b).length = (lowerWithin a' s b').length := by
  induction s generalizing a a' with
  | nil => rfl
  | cons c s ih =>
      rw [lowerWithin, lowerWithin, List.length_append, List.length_append, ih (c :: a) (c :: a'),
        length_lowerBetween]

lemma length_lowerWithin_eq_lower (a b s : Text) :
    (lowerWithin a s b).length = (lower s).length := by
  rw [lower_eq_lowerWithin, length_lowerWithin]

/-- **The form of a text depends on where it stands only through its sigmas.** -/
lemma lowerWithin_eq_iff {a' b' : Text} : lowerWithin a s b = lowerWithin a' s b' ↔
    ∀ u v, s = u ++ chr 'Σ' :: v →
      endsWord (u.reverse ++ a) (v ++ b) = endsWord (u.reverse ++ a') (v ++ b') := by
  induction s generalizing a a' with
  | nil => simp [lowerWithin]
  | cons c s ih =>
      have hsplit : lowerWithin a (c :: s) b = lowerWithin a' (c :: s) b' ↔
          lowerBetween a c (s ++ b) = lowerBetween a' c (s ++ b') ∧
            lowerWithin (c :: a) s b = lowerWithin (c :: a') s b' := by
        rw [lowerWithin, lowerWithin]
        exact ⟨fun h => List.append_inj h (length_lowerBetween ..),
          fun h => by rw [h.1, h.2]⟩
      rw [hsplit, lowerBetween_eq_iff, ih]
      constructor
      · rintro ⟨hhead, htail⟩ u v hs
        cases u with
        | nil =>
            obtain ⟨rfl, rfl⟩ := List.cons.inj hs
            exact hhead rfl
        | cons d u =>
            obtain ⟨rfl, rfl⟩ := List.cons.inj hs
            simpa using htail u v rfl
      · intro h
        refine ⟨fun hc => by simpa using h [] s (by rw [hc]; rfl), fun u v hs => ?_⟩
        simpa using h (c :: u) v (by rw [hs]; rfl)

/-! ## Finding a part -/

/-- Each sigma of a text ends a word between `a` and `b` if and only if it does when the text stands
alone. -/
def SameEnds (a s b : Text) : Prop :=
  ∀ u v, s = u ++ chr 'Σ' :: v → endsWord (u.reverse ++ a.reverse) (v ++ b) = endsWord u.reverse v

/-- A text of which it is open whether some sigma in it ends a word. -/
def HasOpenSigma (s : Text) : Prop :=
  ∃ u v, s = u ++ chr 'Σ' :: v ∧ IsOpenPlace u.reverse v

lemma hasOpenSigma_iff : HasOpenSigma s ↔ ∃ i ∈ List.range s.length, s[i]? = some (chr 'Σ') ∧
    IsOpenPlace (s.take i).reverse (s.drop (i + 1)) := by
  constructor
  · rintro ⟨u, v, rfl, hopen⟩
    exact ⟨u.length, by simp, by simp, by simpa using hopen⟩
  · rintro ⟨i, -, hi, hopen⟩
    obtain ⟨hlt, hsigma⟩ := List.getElem?_eq_some_iff.1 hi
    refine ⟨s.take i, s.drop (i + 1), ?_, hopen⟩
    rw [← hsigma, ← List.drop_eq_getElem_cons hlt, List.take_append_drop]

instance (s : Text) : Decidable (HasOpenSigma s) :=
  decidable_of_iff _ hasOpenSigma_iff.symm

lemma lowerWithin_eq_lower_iff : lowerWithin a.reverse s b = lower s ↔ SameEnds a s b := by
  rw [lower_eq_lowerWithin, lowerWithin_eq_iff]
  simp [SameEnds]

lemma sameEnds_of_not_hasOpenSigma (h : ¬ HasOpenSigma s) (a b : Text) : SameEnds a s b :=
  fun u v hs => endsWord_append (fun hopen => h ⟨u, v, hs, hopen⟩) _ _

/-- A part whose sigmas end the same words is found in lower case. -/
lemma infix_lower_of_sameEnds (h : SameEnds a s b) : lower s <:+: lower (a ++ s ++ b) := by
  rw [lower_append, lowerWithin_eq_lower_iff.2 h]
  exact ⟨_, _, rfl⟩

/-! ## Texts with an open sigma -/

/-- A letter in front of a text or behind it makes a difference to an open sigma. -/
lemma not_sameEnds_of_hasOpenSigma {x : CodePoint} (h : HasOpenSigma s) (hx : seesCased [x]) :
    ¬ SameEnds [x] s [] ∨ ¬ SameEnds [] s [x] := by
  obtain ⟨u, v, hs, hopen⟩ := h
  refine (endsWord_append_ne hopen hx).imp (fun hne hsame => hne ?_) fun hne hsame => hne ?_
  · simpa using hsame u v hs
  · simpa using hsame u v hs

/-- A letter that keeps its form in lower case, other than the characters at the ends of a text. -/
lemma exists_letter (s : Text) : ∃ x, seesCased [x] ∧ (∀ a b, lowerBetween a x b = [x]) ∧
    s.head? ≠ some x ∧ s.getLast? ≠ some x := by
  by_cases ha : s.head? ≠ some (chr 'a') ∧ s.getLast? ≠ some (chr 'a')
  · exact ⟨chr 'a', by decide, fun _ _ => rfl, ha⟩
  by_cases hb : s.head? ≠ some (chr 'b') ∧ s.getLast? ≠ some (chr 'b')
  · exact ⟨chr 'b', by decide, fun _ _ => rfl, hb⟩
  -- the two ends are an a and a b
  exact ⟨chr 'c', by decide, fun _ _ => rfl, by grind⟩

/-- In front of a text a letter that keeps its form changes only the form of the text behind it. -/
lemma lower_cons_of_keeps {x : CodePoint} (hx : ∀ a b, lowerBetween a x b = [x]) (s : Text) :
    lower (x :: s) = x :: lowerWithin [x].reverse s [] := by
  have happ := lower_append [x] s []
  simpa [lowerWithin, lowerAfter, hx] using happ

lemma lower_concat_of_keeps {x : CodePoint} (hx : ∀ a b, lowerBetween a x b = [x]) (s : Text) :
    lower (s ++ [x]) = lowerWithin [].reverse s [x] ++ [x] := by
  have happ := lower_append [] s [x]
  simpa [lowerWithin, lowerAfter, hx] using happ

/-- One more character in front makes no room for another text of the same length. -/
lemma eq_of_infix_cons (h : s <:+: c :: t) (hc : s.head? ≠ some c) (hlen : t.length = s.length) :
    t = s := by
  rcases List.infix_cons_iff.1 h with hfront | hbehind
  · cases s with
    | nil => exact List.length_eq_zero_iff.1 hlen
    | cons d s => exact absurd (congrArg some (List.cons_prefix_cons.1 hfront).1) hc
  · exact (hbehind.eq_of_length hlen.symm).symm

lemma eq_of_infix_concat (h : s <:+: t ++ [c]) (hc : s.getLast? ≠ some c)
    (hlen : t.length = s.length) : t = s := by
  refine List.reverse_injective (eq_of_infix_cons (c := c) ?_ ?_ (by simpa using hlen))
  · rw [← List.reverse_concat, List.reverse_infix]
    simpa using h
  · rwa [List.head?_reverse]

/-- **A text is found in lower case wherever it stands if and only if it has no open sigma.** -/
theorem forall_infix_lower_iff :
    (∀ name, s <:+: name → lower s <:+: lower name) ↔ ¬ HasOpenSigma s := by
  constructor
  · intro h hopen
    obtain ⟨x, hx, hlower, hhead, hlast⟩ := exists_letter (lower s)
    rcases not_sameEnds_of_hasOpenSigma hopen hx with hne | hne
    · have hfound := h (x :: s) (List.suffix_cons x s).isInfix
      rw [lower_cons_of_keeps hlower] at hfound
      exact hne (lowerWithin_eq_lower_iff.1
        (eq_of_infix_cons hfound hhead (length_lowerWithin_eq_lower ..)))
    · have hfound := h (s ++ [x]) (List.prefix_append s [x]).isInfix
      rw [lower_concat_of_keeps hlower] at hfound
      exact hne (lowerWithin_eq_lower_iff.1
        (eq_of_infix_concat hfound hlast (length_lowerWithin_eq_lower ..)))
  · rintro h name ⟨a, b, rfl⟩
    exact infix_lower_of_sameEnds (sameEnds_of_not_hasOpenSigma h a b)

/-- A sigma with letters on one side only is open, one between letters is not. -/
example : HasOpenSigma "ΟΔΟΣ".text ∧ ¬ HasOpenSigma "ΔΟΣΟ".text := by
  decide +kernel

end LogSearch
