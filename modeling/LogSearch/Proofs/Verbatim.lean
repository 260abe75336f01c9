import LogSearch.Proofs.Parse

/-!
# When free text is kept as it was typed

If a query has no accepted filter, its free text should be its words, as they were typed.  It is not
always: what looks like a filter may start or end within a word, as in `(http://x)`, and then the
word falls apart, because the text before a rejected filter and the filter itself are cut into words
separately.

* `Span.Occurs` — the scan finds a filter-like part at a place of the query.
* `freeText_eq_unwords_words_iff` — the words are kept exactly if each such part stands apart from
  the text on both sides.  The proof counts words: cutting a word in two makes one word more, and
  nothing ever makes one less.
-/

namespace LogSearch

/-- The scan of a text finds a filter-like part `f` between the texts `before` and `after`. -/
inductive Span.Occurs (f : Span) : Text → Text → Text → Prop
  | first {s before after : Text} (h : Span.first? s = some (before, f, after)) :
      Span.Occurs f s before after
  | later {s before rest gap after : Text} {g : Span}
      (h : Span.first? s = some (before, g, rest)) (hf : Span.Occurs f rest gap after) :
      Span.Occurs f s (before ++ g.text ++ gap) after

variable {s t before after rest gap : Text} {f g : Span}

namespace Span

lemma Occurs.append_eq (h : f.Occurs s before after) : before ++ f.text ++ after = s := by
  induction h with
  | first h => exact append_of_first? h
  | later h _ ih =>
      rw [← append_of_first? h, ← ih]
      simp

lemma Occurs.fits (h : f.Occurs s before after) : f.Fits after := by
  induction h with
  | first h => exact (fits_of_first? h).1
  | later _ _ ih => exact ih

lemma not_occurs_of_none (h : first? s = none) : ¬ f.Occurs s before after := by
  intro hf
  cases hf with
  | first h' => simp [h] at h'
  | later h' _ => simp [h] at h'

lemma occurs_iff_of_some (h : first? s = some (gap, g, rest)) :
    f.Occurs s before after ↔ (before = gap ∧ f = g ∧ after = rest) ∨
      ∃ gap', before = gap ++ g.text ++ gap' ∧ f.Occurs rest gap' after := by
  constructor
  · intro hf
    cases hf with
    | first h' =>
        rw [h] at h'
        simp only [Option.some.injEq, Prod.mk.injEq] at h'
        obtain ⟨rfl, rfl, rfl⟩ := h'
        exact Or.inl ⟨rfl, rfl, rfl⟩
    | later h' hf =>
        rw [h] at h'
        simp only [Option.some.injEq, Prod.mk.injEq] at h'
        obtain ⟨rfl, rfl, rfl⟩ := h'
        exact Or.inr ⟨_, rfl, hf⟩
  · rintro (⟨rfl, rfl, rfl⟩ | ⟨gap', rfl, hf⟩)
    · exact .first h
    · exact .later h hf

/-- What is found in a text that goes on without keys is found before them. -/
lemma Occurs.of_append (ht : first? t = none) (ha : Apart s t) (hq : KeepsQuotes s t)
    (h : f.Occurs (s ++ t) before after) :
    ∃ gap, f.Occurs s before gap ∧ after = gap ++ t := by
  induction s using scan_induction generalizing before with
  | done s hs =>
      have hnone := first?_append_of_none hs ha
      rw [ht, Option.map_none] at hnone
      exact absurd h (not_occurs_of_none hnone)
  | found s gap g rest hs ih =>
      obtain ⟨hqg, hqr⟩ := (keepsQuotes_iff hs).1 hq
      have hsome := first?_append_of_some hs ha hqg
      rcases (occurs_iff_of_some hsome).1 h with ⟨rfl, rfl, rfl⟩ | ⟨gap', rfl, hf⟩
      · exact ⟨rest, .first hs, rfl⟩
      · obtain ⟨gap'', hf', rfl⟩ := ih (apart_of_first? hs ha) hqr hf
        exact ⟨gap'', .later hs hf', rfl⟩

end Span

/-- Every filter-like part of a query has a blank or an end of the query on each side. -/
def StandApart (s : Text) : Prop :=
  ∀ f before after, Span.Occurs f s before after →
    (before = [] ∨ endsBlank before) ∧ startsBlank after

lemma standApart_of_none (h : Span.first? s = none) : StandApart s :=
  fun _ _ _ hf => absurd hf (Span.not_occurs_of_none h)

lemma standApart_iff_of_some (h : Span.first? s = some (before, f, rest)) :
    StandApart s ↔ ((before = [] ∨ endsBlank before) ∧ startsBlank rest) ∧ StandApart rest := by
  -- a part found later stands in `rest`, which starts with a blank, so some text is before it
  have hlater : ∀ g gap after, startsBlank rest → Span.Occurs g rest gap after →
      gap ≠ [] ∧ endsBlank (before ++ f.text ++ gap) = endsBlank gap := by
    intro g gap after hb hg
    have hgap : gap ≠ [] := by
      rintro rfl
      rw [← hg.append_eq, List.nil_append, hg.fits.startsBlank_text] at hb
      exact Bool.noConfusion hb
    exact ⟨hgap, endsBlank_append hgap⟩
  constructor
  · intro hs
    have hfirst := hs f before rest (.first h)
    refine ⟨hfirst, fun g gap after hg => ?_⟩
    obtain ⟨hgap, hends⟩ := hlater g gap after hfirst.2 hg
    obtain ⟨hbefore, hafter⟩ := hs g _ after (.later h hg)
    rw [hends] at hbefore
    exact ⟨Or.inr (hbefore.resolve_left (by simp [hgap])), hafter⟩
  · rintro ⟨hfirst, hrest⟩ g pre after hg
    rcases (Span.occurs_iff_of_some h).1 hg with ⟨rfl, rfl, rfl⟩ | ⟨gap, rfl, hg'⟩
    · exact hfirst
    · obtain ⟨hgap, hends⟩ := hlater g gap after hfirst.2 hg'
      obtain ⟨hbefore, hafter⟩ := hrest g gap after hg'
      rw [hends]
      exact ⟨Or.inr (hbefore.resolve_left hgap), hafter⟩

/-! ## Counting words -/

namespace Query

lemma rejected_of_some (h : Span.first? s = some (before, f, rest))
    (hn : (parse s).filters = []) : f.filter? = none ∧ (parse rest).filters = [] := by
  rw [filters_of_some h, List.append_eq_nil_iff] at hn
  exact ⟨by simpa using hn.1, hn.2⟩

lemma freeWords_of_rejected (h : Span.first? s = some (before, f, rest))
    (hf : f.filter? = none) : freeWords s = words before ++ (words f.text ++ freeWords rest) := by
  rw [freeWords_of_some h, Span.freeWords_of_rejected hf]

lemma length_words_of_some (h : Span.first? s = some (before, f, rest)) :
    (words s).length + (if Apart before (f.text ++ rest) then 0 else 1)
        + (if Apart f.text rest then 0 else 1)
      = (words before).length + (words f.text).length + (words rest).length := by
  have h₁ := length_words_append before (f.text ++ rest)
  have h₂ := length_words_append f.text rest
  rw [← List.append_assoc, Span.append_of_first? h] at h₁
  omega

lemma length_words_le (hn : (parse s).filters = []) :
    (words s).length ≤ (freeWords s).length := by
  induction s using scan_induction with
  | done s hs => rw [freeWords_of_none hs]
  | found s before f rest hs ih =>
      obtain ⟨hf, hrest⟩ := rejected_of_some hs hn
      have hlen := length_words_of_some hs
      have := ih hrest
      rw [freeWords_of_rejected hs hf, List.length_append, List.length_append]
      omega

lemma freeWords_eq_words (hn : (parse s).filters = []) (ha : StandApart s) :
    freeWords s = words s := by
  induction s using scan_induction with
  | done s hs => rw [freeWords_of_none hs]
  | found s before f rest hs ih =>
      obtain ⟨hf, hrest⟩ := rejected_of_some hs hn
      obtain ⟨⟨hbefore, hafter⟩, ha⟩ := (standApart_iff_of_some hs).1 ha
      have h₁ : Apart before (f.text ++ rest) := hbefore.imp_right Or.inl
      have h₂ : Apart f.text rest := Or.inr (Or.inr hafter)
      rw [freeWords_of_rejected hs hf, ih hrest ha, ← words_append h₂, ← words_append h₁,
        ← List.append_assoc, Span.append_of_first? hs]

lemma standApart_of_length_le (hn : (parse s).filters = [])
    (hl : (freeWords s).length ≤ (words s).length) : StandApart s := by
  induction s using scan_induction with
  | done s hs => exact standApart_of_none hs
  | found s before f rest hs ih =>
      obtain ⟨hf, hrest⟩ := rejected_of_some hs hn
      have hlen := length_words_of_some hs
      have hle := length_words_le hrest
      rw [freeWords_of_rejected hs hf, List.length_append, List.length_append] at hl
      -- no border of this part costs a word, and neither does the rest
      have h₁ : Apart before (f.text ++ rest) := by
        by_contra hna
        rw [if_neg hna] at hlen
        omega
      have h₂ : Apart f.text rest := by
        by_contra hna
        rw [if_neg hna] at hlen
        omega
      have hrest_le : (freeWords rest).length ≤ (words rest).length := by
        rw [if_pos h₁, if_pos h₂] at hlen
        omega
      obtain ⟨hfits, -⟩ := Span.fits_of_first? hs
      refine (standApart_iff_of_some hs).2 ⟨⟨?_, ?_⟩, ih hrest hrest_le⟩
      · rcases h₁ with h | h | h
        · exact Or.inl h
        · exact Or.inr h
        · rw [hfits.startsBlank_text] at h
          exact Bool.noConfusion h
      · rcases h₂ with h | h | h
        · simp [Span.text] at h
        · rw [hfits.endsBlank_text] at h
          exact Bool.noConfusion h
        · exact h

end Query

/-- **Free text as it was typed.**  A query without accepted filters keeps its words if and only if
every filter-like part in it has a blank or an end of the query on each side. -/
theorem freeText_eq_unwords_words_iff (s : Text) (hn : (Query.parse s).filters = []) :
    (Query.parse s).freeText = unwords (words s) ↔
      ∀ f before after, Span.Occurs f s before after →
        (before = [] ∨ endsBlank before) ∧ startsBlank after := by
  constructor
  · intro h
    refine Query.standApart_of_length_le hn (le_of_eq ?_)
    rw [← Query.words_freeText, h, words_unwords fun _ hw => mem_words hw]
  · intro h
    exact congrArg unwords (Query.freeWords_eq_words hn h)

/-- A rejected filter between a word of its own and a blank stays as it is. -/
theorem freeText_eq_unwords_words_refund :
    (Query.parse "cost:abc refund".text).filters = [] ∧
      ((Query.parse "cost:abc refund".text).freeText
          = unwords (words "cost:abc refund".text) ↔
        ∀ f before after, Span.Occurs f "cost:abc refund".text before after →
          (before = [] ∨ endsBlank before) ∧ startsBlank after) :=
  ⟨by decide +kernel, freeText_eq_unwords_words_iff _ (by decide +kernel)⟩

/-- **A word that falls apart.**  The part `http://x)` is found within a word and rejected, and a
space comes to stand before it. -/
theorem freeText_splits_word :
    (Query.parse "(http://x)".text).filters = [] ∧
      words "(http://x)".text = ["(http://x)".text] ∧
      (Query.parse "(http://x)".text).freeText = "( http://x)".text := by
  decide +kernel

end LogSearch
