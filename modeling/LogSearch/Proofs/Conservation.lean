import LogSearch.Proofs.Parse

/-!
# Nothing of a query is lost

A query is cut into the texts of its accepted filters and the text around them.  The first are read
as filters, and the second becomes free text, with other blanks and nothing else changed.

* `Cut` — a text with some of its parts marked.
* `parse_conserves` — the texts of the filters can be marked in the query, in order, and what is
  not marked is the free text.

The cut follows the scan.  An accepted filter is a marked part; a rejected one joins the text in
front of the next marked part.
-/

namespace LogSearch

variable {f : Span} {g : Filter}

/-! ## Cuts -/

/-- A text cut into marked parts, each after the text that precedes it, and the text after the
last. -/
structure Cut where
  parts : List (Text × Text)
  tail : Text

namespace Cut

/-- The text that was cut. -/
def whole (k : Cut) : Text :=
  k.parts.flatMap (fun p => p.1 ++ p.2) ++ k.tail

/-- The marked parts, in order. -/
def marked (k : Cut) : List Text :=
  k.parts.map (·.2)

/-- What is left when the marked parts are deleted. -/
def unmarked (k : Cut) : Text :=
  k.parts.flatMap (·.1) ++ k.tail

/-- The cut of a longer text, with nothing marked in front. -/
def prepend (u : Text) : Cut → Cut
  | ⟨[], tail⟩ => ⟨[], u ++ tail⟩
  | ⟨(before, m) :: parts, tail⟩ => ⟨(u ++ before, m) :: parts, tail⟩

@[simp] lemma whole_prepend (u : Text) (k : Cut) : (k.prepend u).whole = u ++ k.whole := by
  rcases k with ⟨_ | ⟨p, parts⟩, tail⟩ <;> simp [prepend, whole]

@[simp] lemma marked_prepend (u : Text) (k : Cut) : (k.prepend u).marked = k.marked := by
  rcases k with ⟨_ | ⟨p, parts⟩, tail⟩ <;> simp [prepend, marked]

@[simp] lemma unmarked_prepend (u : Text) (k : Cut) :
    (k.prepend u).unmarked = u ++ k.unmarked := by
  rcases k with ⟨_ | ⟨p, parts⟩, tail⟩ <;> simp [prepend, unmarked]

end Cut

/-! ## Conservation -/

/-- The text that a filter was read from. -/
def Filter.text (g : Filter) : Text :=
  g.field ++ chr ':' :: g.typed

lemma Filter.text_of_filter? (h : f.filter? = some g) : g.text = f.text := by
  obtain ⟨hfield, htyped⟩ := Filter.of_read? h
  rw [Filter.text, hfield, htyped]
  rfl

/-- The free words are cut from what the accepted filters leave over. -/
lemma exists_cut (s : Text) :
    ∃ k : Cut, k.whole = s ∧ k.marked = (Query.parse s).filters.map Filter.text ∧
      k.unmarked.filter (!isBlank ·) = (Query.freeWords s).flatten := by
  induction s using scan_induction with
  | done s hs =>
      refine ⟨⟨[], s⟩, rfl, ?_, ?_⟩
      · rw [Query.filters_of_none hs]
        rfl
      · rw [Query.freeWords_of_none hs, flatten_words]
        rfl
  | found s before f rest hs ih =>
      obtain ⟨k, hwhole, hmarked, hrest⟩ := ih
      have happ := Span.append_of_first? hs
      rw [Query.filters_of_some hs, Query.freeWords_of_some hs, List.flatten_append,
        List.flatten_append, flatten_words, ← hrest]
      cases hf : f.filter? with
      | some g =>
          refine ⟨⟨(before, f.text) :: k.parts, k.tail⟩, ?_, ?_, ?_⟩
          · rw [← happ, ← hwhole]
            simp [Cut.whole]
          · simpa [Cut.marked, Filter.text_of_filter? hf] using hmarked
          · simp [Cut.unmarked, Span.freeWords, hf]
      | none =>
          refine ⟨k.prepend (before ++ f.text), ?_, ?_, ?_⟩
          · rw [Cut.whole_prepend, hwhole, happ]
          · simpa using hmarked
          · simp [Span.freeWords, hf, flatten_words]

/-- **Conservation of the query text.**  The texts of the filters stand in the query one after
another, without overlap.  If they are deleted from it, the characters that are not blank are those
of the free text, in the same order. -/
theorem parse_conserves (s : Text) :
    ∃ k : Cut, k.whole = s ∧ k.marked = (Query.parse s).filters.map Filter.text ∧
      k.unmarked.filter (!isBlank ·) = (Query.parse s).freeText.filter (· ≠ chr ' ') := by
  obtain ⟨k, hwhole, hmarked, hrest⟩ := exists_cut s
  refine ⟨k, hwhole, hmarked, ?_⟩
  have hspace : ∀ w ∈ Query.freeWords s, chr ' ' ∉ w := by
    intro w hw hs
    have := (Query.mem_freeWords hw).2.1 (chr ' ') hs
    exact absurd this (by decide)
  rw [hrest, Query.parse, filter_unwords hspace]

end LogSearch
