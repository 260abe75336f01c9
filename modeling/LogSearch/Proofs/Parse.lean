import LogSearch.Proofs.Scan
import LogSearch.Query.Parse

/-!
# Parsing joined texts

The scan of a query is a chain of `Span.first?` steps, and `scan_induction` is the induction along
that chain.  Everything about `Query.parse` is proved with it, one case for the end of the scan and
one for a filter-like part with the text before it.

The main result is that **parsing distributes over joining** two texts (`filters_append`,
`freeWords_append`).  It needs two conditions:

* `Apart` — no word runs across the border;
* `KeepsQuotes` — no value that the first text leaves open is closed by a double quote of the
  second one.

Blanks between two texts see to the first condition, and the second one holds if one of the texts
has no double quotes: `parse_append_blanks`.
-/

namespace LogSearch

variable {s t w before rest : Text} {f : Span} {p : Text × Span} {c : CodePoint}

/-! ## Along the scan -/

lemma spans_of_none (h : Span.first? s = none) : spans s = ([], s) := by
  rw [spans]
  split
  · rfl
  · rename_i h'
    rw [h] at h'
    simp at h'

lemma spans_of_some (h : Span.first? s = some (before, f, rest)) :
    spans s = ((before, f) :: (spans rest).1, (spans rest).2) := by
  rw [spans]
  split
  · rename_i h'
    rw [h] at h'
    simp at h'
  · rename_i h'
    rw [h] at h'
    simp only [Option.some.injEq, Prod.mk.injEq] at h'
    obtain ⟨rfl, rfl, rfl⟩ := h'
    rfl

/-- **Induction along the scan.** -/
@[elab_as_elim]
theorem scan_induction {motive : Text → Prop}
    (done : ∀ s, Span.first? s = none → motive s)
    (found : ∀ s before f rest, Span.first? s = some (before, f, rest) → motive rest → motive s)
    (s : Text) : motive s := by
  fun_induction spans s with
  | case1 s h => exact done s h
  | case2 s before f rest h _ _ _ ih => exact found s before f rest h ih

lemma mem_of_mem_spans (hp : p ∈ (spans s).1) (hc : c ∈ p.2.value) : c ∈ s := by
  rw [← spans_append s]
  refine List.mem_append_left _ (List.mem_flatMap.2 ⟨p, hp, ?_⟩)
  simp [Span.text, hc]

/-- An accepted filter names the field and keeps the value as they were typed. -/
lemma Filter.of_read? {key typed : Text} {g : Filter} (h : Filter.read? key typed = some g) :
    g.field = key ∧ g.typed = typed := by
  simp only [Filter.read?, Option.bind_eq_bind, Option.bind_eq_some_iff, Option.some.injEq] at h
  obtain ⟨_, _, _, _, rfl⟩ := h
  exact ⟨rfl, rfl⟩

lemma Span.freeWords_of_accepted {g : Filter} (h : f.filter? = some g) : f.freeWords = [] := by
  simp [Span.freeWords, h]

lemma Span.freeWords_of_rejected (h : f.filter? = none) : f.freeWords = words f.text := by
  simp [Span.freeWords, h]

namespace Query

lemma filters_of_none (h : Span.first? s = none) : (parse s).filters = [] := by
  simp [parse, spans_of_none h]

lemma filters_of_some (h : Span.first? s = some (before, f, rest)) :
    (parse s).filters = f.filter?.toList ++ (parse rest).filters := by
  cases hf : f.filter? <;> simp [parse, spans_of_some h, hf]

lemma freeWords_of_none (h : Span.first? s = none) : freeWords s = words s := by
  simp [freeWords, spans_of_none h]

lemma freeWords_of_some (h : Span.first? s = some (before, f, rest)) :
    freeWords s = words before ++ (f.freeWords ++ freeWords rest) := by
  simp [freeWords, spans_of_some h]

lemma parse_nil : parse [] = empty := by
  simp [parse, freeWords, spans_of_none Span.first?_nil, words, unwords, empty]

/-- Free words are words, wherever they come from. -/
lemma mem_freeWords {w : Text} (h : w ∈ freeWords s) :
    w ≠ [] ∧ (∀ c ∈ w, isBlank c = false) ∧ ∀ c ∈ w, c ∈ s := by
  induction s using scan_induction with
  | done s hs =>
      rw [freeWords_of_none hs] at h
      exact ⟨(mem_words h).1, (mem_words h).2, fun c hc => (isInfix_of_mem_words h).subset hc⟩
  | found s before f rest hs ih =>
      rw [freeWords_of_some hs, List.mem_append, List.mem_append] at h
      have happ := Span.append_of_first? hs
      rcases h with h | h | h
      · refine ⟨(mem_words h).1, (mem_words h).2, fun c hc => ?_⟩
        have := (isInfix_of_mem_words h).subset hc
        simp [← happ, this]
      · rw [Span.freeWords] at h
        split at h
        · simp at h
        · refine ⟨(mem_words h).1, (mem_words h).2, fun c hc => ?_⟩
          have := (isInfix_of_mem_words h).subset hc
          simp [← happ, this]
      · refine ⟨(ih h).1, (ih h).2.1, fun c hc => ?_⟩
        have := (ih h).2.2 c hc
        simp [← happ, this]

lemma words_freeText (s : Text) : words (parse s).freeText = freeWords s :=
  words_unwords fun _ hw => ⟨(mem_freeWords hw).1, (mem_freeWords hw).2.1⟩

end Query

/-! ## Joining texts -/

/-- A value that the first text leaves open is not closed by a double quote of the second one. -/
def KeepsQuotes (s t : Text) : Prop :=
  ∀ p ∈ (spans s).1, isUnclosed p.2.value → chr '"' ∉ t

lemma keepsQuotes_of_not_mem (h : chr '"' ∉ t) : KeepsQuotes s t :=
  fun _ _ _ => h

/-- A text without double quotes leaves no value open. -/
lemma keepsQuotes_of_not_mem_left (h : chr '"' ∉ s) : KeepsQuotes s t :=
  fun _ hp hu => absurd (mem_of_mem_spans hp (mem_of_isUnclosed hu)) h

lemma keepsQuotes_iff (h : Span.first? s = some (before, f, rest)) :
    KeepsQuotes s t ↔ (isUnclosed f.value → chr '"' ∉ t) ∧ KeepsQuotes rest t := by
  simp [KeepsQuotes, spans_of_some h]

lemma apart_of_first? (h : Span.first? s = some (before, f, rest)) (ha : Apart s t) :
    Apart rest t := by
  rw [← Span.append_of_first? h] at ha
  exact ha.of_append_left

namespace Query

/-- **Filters of joined texts.** -/
theorem filters_append (ha : Apart s t) (hq : KeepsQuotes s t) :
    (parse (s ++ t)).filters = (parse s).filters ++ (parse t).filters := by
  induction s using scan_induction with
  | done s hs =>
      rw [filters_of_none hs, List.nil_append]
      have happ := Span.first?_append_of_none hs ha
      cases ht : Span.first? t with
      | none =>
          rw [ht] at happ
          rw [filters_of_none happ, filters_of_none ht]
      | some p =>
          rw [ht] at happ
          rw [filters_of_some happ, filters_of_some ht]
  | found s before f rest hs ih =>
      obtain ⟨hqf, hqr⟩ := (keepsQuotes_iff hs).1 hq
      rw [filters_of_some (Span.first?_append_of_some hs ha hqf), filters_of_some hs,
        ih (apart_of_first? hs ha) hqr, List.append_assoc]

/-- **Free words of joined texts.** -/
theorem freeWords_append (ha : Apart s t) (hq : KeepsQuotes s t) :
    freeWords (s ++ t) = freeWords s ++ freeWords t := by
  induction s using scan_induction with
  | done s hs =>
      rw [freeWords_of_none hs]
      have happ := Span.first?_append_of_none hs ha
      cases ht : Span.first? t with
      | none =>
          rw [ht] at happ
          rw [freeWords_of_none happ, freeWords_of_none ht, words_append ha]
      | some p =>
          obtain ⟨gap, g, r⟩ := p
          rw [ht] at happ
          -- the text up to the first filter is a beginning of `t`, so it is apart from `s` as well
          have hgap : Apart s gap := by
            rw [← Span.append_of_first? ht, List.append_assoc] at ha
            exact ha.of_append_right
          rw [freeWords_of_some happ, freeWords_of_some ht, words_append hgap, List.append_assoc]
  | found s before f rest hs ih =>
      obtain ⟨hqf, hqr⟩ := (keepsQuotes_iff hs).1 hq
      rw [freeWords_of_some (Span.first?_append_of_some hs ha hqf), freeWords_of_some hs,
        ih (apart_of_first? hs ha) hqr, List.append_assoc, List.append_assoc]

lemma filters_text (h : f.Fits []) : (parse f.text).filters = f.filter?.toList := by
  rw [filters_of_some (Span.first?_text h), filters_of_none Span.first?_nil, List.append_nil]

lemma freeWords_text (h : f.Fits []) : freeWords f.text = f.freeWords := by
  rw [freeWords_of_some (Span.first?_text h), freeWords_of_none Span.first?_nil]
  simp [words]

/-- **A filter-like part at the end of a text** adds itself to the filters if it is accepted, and
otherwise its words to the free text. -/
theorem parse_append_span (hf : f.Fits []) (ha : s = [] ∨ endsBlank s)
    (hq : KeepsQuotes s f.text) :
    parse (s ++ f.text)
      = ⟨(parse s).filters ++ f.filter?.toList, unwords (freeWords s ++ f.freeWords)⟩ := by
  have hapart : Apart s f.text := ha.imp_right Or.inl
  have hparse : parse (s ++ f.text)
      = ⟨(parse (s ++ f.text)).filters, unwords (freeWords (s ++ f.text))⟩ := rfl
  rw [hparse, filters_append hapart hq, filters_text hf, freeWords_append hapart hq,
    freeWords_text hf]

/-- **A filter at the end of a text** adds itself to the filters and nothing to the free text. -/
theorem parse_append_filter {g : Filter} (hf : f.Fits []) (hg : f.filter? = some g)
    (ha : s = [] ∨ endsBlank s) (hq : KeepsQuotes s f.text) :
    parse (s ++ f.text) = ⟨(parse s).filters ++ [g], (parse s).freeText⟩ := by
  rw [parse_append_span hf ha hq, Span.freeWords_of_accepted hg, hg, List.append_nil]
  rfl

end Query

/-! ## Texts with blanks between them -/

lemma not_mem_of_forall_isBlank (h : ∀ c ∈ w, isBlank c) (hc : isBlank c = false) : c ∉ w := by
  intro hm
  rw [h c hm] at hc
  exact Bool.noConfusion hc

/-- Blanks hold no keys. -/
lemma Span.first?_of_forall_isBlank (h : ∀ c ∈ w, isBlank c) : Span.first? w = none := by
  refine Span.first?_eq_none_iff.2 fun x y hx _ hin => ?_
  exact not_mem_of_forall_isBlank h (isBlank_eq_false_of_isWord hx) (hin.subset (by simp))

namespace Query

/-- Blanks between two texts take no part in parsing them. -/
lemma append_blanks (hw : w ≠ []) (hb : ∀ c ∈ w, isBlank c) (hq : KeepsQuotes s t) :
    (parse (s ++ w ++ t)).filters = (parse s).filters ++ (parse t).filters ∧
      freeWords (s ++ w ++ t) = freeWords s ++ freeWords t := by
  obtain ⟨hs, ht⟩ := apart_of_forall_isBlank hw hb s t
  have hblank := Span.first?_of_forall_isBlank hb
  have hquote : chr '"' ∉ w := not_mem_of_forall_isBlank hb (by decide)
  have hqs : KeepsQuotes s (w ++ t) := by
    intro p hp hu
    simp [hquote, hq p hp hu]
  have hqt : KeepsQuotes w t := keepsQuotes_of_not_mem_left hquote
  rw [List.append_assoc]
  constructor
  · rw [filters_append hs hqs, filters_append ht hqt, filters_of_none hblank, List.nil_append]
  · rw [freeWords_append hs hqs, freeWords_append ht hqt, freeWords_of_none hblank,
      words_of_forall_isBlank hb, List.nil_append]

/-- **Parsing distributes over blanks.**  Let two texts have blanks between them, and let one of
them have no double quotes.  The whole has the filters of the first text and then those of the
second one, and the words of its free text are those of the two free texts, in that order. -/
theorem parse_append_blanks (s w t : Text) (hw : w ≠ []) (hb : ∀ c ∈ w, isBlank c)
    (hq : chr '"' ∉ s ∨ chr '"' ∉ t) :
    (parse (s ++ w ++ t)).filters = (parse s).filters ++ (parse t).filters ∧
      words (parse (s ++ w ++ t)).freeText
        = words (parse s).freeText ++ words (parse t).freeText := by
  have hkeep : KeepsQuotes s t := hq.elim keepsQuotes_of_not_mem_left keepsQuotes_of_not_mem
  simp only [words_freeText]
  exact append_blanks hw hb hkeep

/-- An open quote and an operator without a value, in front of two blanks and a text that would
continue them, and a key without a value at its end. -/
theorem parse_append_blanks_open :
    let s := "level:error workflow:\"Daily cost:>".text
    let w := [chr ' ', chr '\n']
    let t := "0.5 trigger:api date:".text
    w ≠ [] ∧ (∀ c ∈ w, isBlank c) ∧ chr '"' ∉ t ∧
      (parse (s ++ w ++ t)).filters.map (·.typed)
        = ["error".text, "\"Daily".text, "api".text] ∧
      words (parse (s ++ w ++ t)).freeText
        = ["cost:>".text, "0.5".text, "date:".text] := by
  intro s w t
  have hw : w ≠ [] := by decide
  have hb : ∀ c ∈ w, isBlank c := List.all_eq_true.1 (by decide)
  have hq : chr '"' ∉ t := by decide +kernel
  obtain ⟨hfilters, hfree⟩ := parse_append_blanks s w t hw hb (Or.inr hq)
  have hs : (parse s).filters.map (·.typed) = ["error".text, "\"Daily".text] ∧
      words (parse s).freeText = ["cost:>".text] := by
    decide +kernel
  have ht : (parse t).filters.map (·.typed) = ["api".text] ∧
      words (parse t).freeText = ["0.5".text, "date:".text] := by
    decide +kernel
  refine ⟨hw, hb, hq, ?_, ?_⟩
  · rw [hfilters, List.map_append, hs.1, ht.1]
    rfl
  · rw [hfree, hs.2, ht.2]
    rfl

end Query

end LogSearch
