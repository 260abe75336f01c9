import LogSearch.Proofs.Coercion
import LogSearch.Proofs.Parse

/-!
# Free text is settled

What parsing leaves as free text contains no filter: when it is parsed again it stays as it is
(`parse_freeText`).  Two things could go wrong when filters are taken out and the rest is set out
with single spaces.

* A key could come to stand before a value.  It cannot, because no key stands in the text between
  filters (`HasNoKey`), and words are never joined.
* A rejected filter could be cut differently or be accepted.  Its quotes cannot pair up otherwise,
  because nothing after an open quote is one, and squeezing its blanks leaves a blank in it, which
  no number has (`exists_squeezed`).

`Settled` is the invariant: words that stay free words when they are set out and parsed.
-/

namespace LogSearch

variable {s t rest : Text} {f : Span} {vs ws : List Text}

namespace Query

/-- Words that stay free words when they are set out and parsed again. -/
structure Settled (ws : List Text) : Prop where
  filters : (parse (unwords ws)).filters = []
  words : freeWords (unwords ws) = ws

lemma settled_nil : Settled [] :=
  ⟨filters_of_none Span.first?_nil, freeWords_of_none Span.first?_nil⟩

/-! ## Putting settled words together -/

/-- Words that are settled one by one are settled together, if quotes of the second ones close
nothing. -/
lemma Settled.append (hv : Settled vs) (hw : Settled ws)
    (hq : KeepsQuotes (unwords vs) (unwords ws)) : Settled (vs ++ ws) := by
  by_cases hvn : vs = []
  · rwa [hvn, List.nil_append]
  by_cases hwn : ws = []
  · rwa [hwn, List.append_nil]
  have hjoin : unwords (vs ++ ws) = unwords vs ++ [chr ' '] ++ unwords ws := by
    rw [unwords_append hvn hwn, List.append_assoc, List.singleton_append]
  obtain ⟨hfilters, hwords⟩ :=
    append_blanks (List.cons_ne_nil (chr ' ') []) (List.all_eq_true.1 (by decide)) hq
  refine ⟨?_, ?_⟩
  · rw [hjoin, hfilters, hv.filters, hw.filters, List.nil_append]
  · rw [hjoin, hwords, hv.words, hw.words]

/-! ## The text between filters -/

/-- The words of a text without keys are settled in front of all others. -/
lemma settled_words_append (h : HasNoKey s) (hw : Settled ws) : Settled (words s ++ ws) := by
  have hword : ∀ w ∈ words s, w ≠ [] ∧ (∀ c ∈ w, isBlank c = false) ∧ HasNoKey w :=
    fun w hw => ⟨(mem_words hw).1, (mem_words hw).2, h.of_isInfix (isInfix_of_mem_words hw)⟩
  generalize words s = us at hword ⊢
  induction us with
  | nil => exact hw
  | cons w vs ih =>
      obtain ⟨hne, hb, hkey⟩ := hword w List.mem_cons_self
      have hnone : Span.first? w = none := Span.first?_eq_none_iff.2 hkey
      have hset : unwords [w] = w := by simp [unwords]
      have hsettled : Settled [w] := by
        refine ⟨?_, ?_⟩
        · rw [hset, filters_of_none hnone]
        · rw [hset, freeWords_of_none hnone, words_of_forall hne hb]
      refine hsettled.append (ih fun v hv => hword v (List.mem_cons_of_mem _ hv)) fun p hp => ?_
      simp [hset, spans_of_none hnone] at hp

/-! ## Rejected filters -/

/-- Squeezing leaves the ends of a filter with a quoted value alone: the key up to the first quote,
and the last quote. -/
lemma exists_squeezed_text {key inner : Text} (op : Option Operator)
    (hkey : ∀ c ∈ key, isBlank c = false) (hin : chr '"' ∉ inner) :
    ∃ y, unwords (LogSearch.words (Span.text ⟨key, Operator.textOf op ++ quoted inner⟩))
        = Span.text ⟨key, Operator.textOf op ++ quoted y⟩ ∧ chr '"' ∉ y ∧
          (y = inner ∨ chr ' ' ∈ y) := by
  have htext : ∀ x, Span.text ⟨key, Operator.textOf op ++ quoted x⟩
      = (key ++ chr ':' :: Operator.textOf op ++ [chr '"']) ++ x ++ [chr '"'] := by
    simp [Span.text, quoted]
  have hquote : ∀ c ∈ [chr '"'], isBlank c = false := by simp; decide
  have hfront : ∀ c ∈ key ++ chr ':' :: Operator.textOf op ++ [chr '"'], isBlank c = false := by
    simp only [List.append_assoc, List.cons_append, List.forall_mem_append, List.forall_mem_cons]
    exact ⟨hkey, by decide, fun _ => Operator.isBlank_of_mem_textOf, by decide, by simp⟩
  obtain ⟨y, hy, hmem, hblank⟩ := exists_unwords_words (by simp) hfront (by simp) hquote inner
  refine ⟨y, ?_, fun hq => (hmem _ hq).elim (by decide) hin, hblank⟩
  rw [htext, htext, hy]

/-- A quoted value that is rejected is rejected with any other text that holds a space. -/
lemma filter?_quoted_eq_none {key inner y : Text} {op : Option Operator}
    (hr : Span.filter? ⟨key, Operator.textOf op ++ quoted inner⟩ = none) (hspace : chr ' ' ∈ y) :
    Span.filter? ⟨key, Operator.textOf op ++ quoted y⟩ = none := by
  rw [Span.filter?, Filter.read?_quoted] at hr ⊢
  cases hfld : Field.ofName? key with
  | none => rfl
  | some fld =>
      rw [hfld, Option.bind_some, Option.map_eq_none_iff] at hr
      rw [Option.bind_some, Option.map_eq_none_iff]
      exact Field.coerce?_eq_none_of_isBlank hr hspace (by decide)

/-- **A rejected filter with its blanks squeezed** is a filter with the same key, and it is rejected
again. -/
lemma exists_squeezed (hf : f.Fits rest) (hr : f.filter? = none) :
    ∃ g : Span, g.text = unwords (LogSearch.words f.text) ∧ g.Fits [] ∧ g.filter? = none ∧
      (isUnclosed g.value → isUnclosed f.value) := by
  obtain ⟨key, value⟩ := f
  have hkey : ∀ c ∈ key, isBlank c = false := fun c hc =>
    isBlank_eq_false_of_isWord (hf.key_word c hc)
  rcases hf.value with ⟨op, inner, rfl, hin⟩ | hv
  · obtain ⟨y, htext, hyq, hblank⟩ := exists_squeezed_text op hkey hin
    have hquoted : IsQuotedValue (Operator.textOf op ++ quoted y) := ⟨op, y, rfl, hyq⟩
    refine ⟨⟨key, Operator.textOf op ++ quoted y⟩, htext.symm, ?_, ?_, ?_⟩
    · exact ⟨hf.key_ne_nil, hf.key_word, Or.inl hquoted⟩
    · rcases hblank with rfl | hspace
      · exact hr
      · exact filter?_quoted_eq_none hr hspace
    · intro hu
      rw [hquoted.isUnclosed_eq_false] at hu
      exact Bool.noConfusion hu
  · -- a bare value: the filter is one word
    have hblank : ∀ c ∈ Span.text ⟨key, value⟩, isBlank c = false := by
      simp only [Span.text, List.forall_mem_append, List.forall_mem_cons]
      exact ⟨hkey, by decide, hv.no_blank⟩
    refine ⟨⟨key, value⟩, ?_, ?_, hr, id⟩
    · rw [words_of_forall (by simp [Span.text]) hblank]
      simp [unwords]
    · refine ⟨hf.key_ne_nil, hf.key_word, Or.inr ⟨hv.ne_nil, hv.no_blank, rfl, fun r hr => ?_⟩⟩
      have := hv.unclosed r hr
      rw [List.append_nil]
      exact fun h => this (List.mem_append_left _ h)

/-- The words of a rejected filter are settled in front of those of the text behind it. -/
lemma settled_rejected_append (hf : f.Fits rest) (hr : f.filter? = none) (hw : Settled ws)
    (hmem : ∀ w ∈ ws, ∀ c ∈ w, c ∈ rest) : Settled (LogSearch.words f.text ++ ws) := by
  obtain ⟨g, hg, hfits, hrej, hopen⟩ := exists_squeezed hf hr
  have hfirst := Span.first?_text hfits
  have hwords : LogSearch.words g.text = LogSearch.words f.text := by
    rw [hg, words_unwords fun _ h => mem_words h]
  have hsettled : Settled (LogSearch.words f.text) := by
    refine ⟨?_, ?_⟩
    · rw [← hg, filters_text hfits, hrej, Option.toList_none]
    · rw [← hg, freeWords_text hfits, Span.freeWords_of_rejected hrej, hwords]
  refine hsettled.append hw fun p hp hu hq => ?_
  -- an open quote of the filter was open to the end of the query, so no quote follows
  have hp : p = ([], g) := by
    have hspans := spans_of_some hfirst
    rw [← hg, hspans, spans_of_none Span.first?_nil] at hp
    simpa using hp
  have hrest : chr '"' ∉ rest := hf.not_mem_of_isUnclosed (hopen (by simpa [hp] using hu))
  rcases mem_unwords hq with hc | ⟨w, hw, hc⟩
  · exact absurd hc (by decide)
  · exact hrest (hmem w hw _ hc)

/-! ## Parsing again -/

/-- The free words of every query are settled. -/
theorem settled_freeWords (s : Text) : Settled (freeWords s) := by
  induction s using scan_induction with
  | done s hs =>
      rw [freeWords_of_none hs, ← List.append_nil (LogSearch.words s)]
      exact settled_words_append (Span.first?_eq_none_iff.1 hs) settled_nil
  | found s before f rest hs ih =>
      obtain ⟨hf, hkey⟩ := Span.fits_of_first? hs
      rw [freeWords_of_some hs]
      refine settled_words_append hkey ?_
      cases hfilter : f.filter? with
      | some g => rwa [Span.freeWords_of_accepted hfilter, List.nil_append]
      | none =>
          rw [Span.freeWords_of_rejected hfilter]
          exact settled_rejected_append hf hfilter ih fun w hw => (mem_freeWords hw).2.2

end Query

/-- **Free text is a fixed point of parsing.**  It holds no filter, and it is its own free
text. -/
theorem parse_freeText (s : Text) :
    Query.parse (Query.parse s).freeText = ⟨[], (Query.parse s).freeText⟩ := by
  have h := Query.settled_freeWords s
  have hfree : (Query.parse s).freeText = unwords (Query.freeWords s) := rfl
  rw [hfree, Query.parse]
  exact congrArg₂ Query.mk h.filters (congrArg unwords h.words)

end LogSearch
