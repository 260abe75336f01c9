import LogSearch.Proofs.ClosedNames

/-!
# Values as they are typed

While a value is being typed, completion looks at its token alone, from the cursor backwards, and
the parser reads the whole text from its start.  This module compares what they take for the value.

* `parse_complete_iff` — a value that completion takes for complete is read whole, as one filter, if
  and only if no double quote stands between its quotes.
* `parse_value_context` — a value that is being typed without double quotes is the one that the
  parser reads last, whatever stands before it: as a filter if its field takes it, and as one more
  word otherwise.
-/

namespace LogSearch

variable {f : Span} {g : Filter} {before key name typed value : Text} {start stop : Nat}

/-! ## Complete values -/

/-- A text that is one filter. -/
lemma Query.parse_text (hf : f.Fits []) (hg : f.filter? = some g) : parse f.text = ⟨[g], []⟩ := by
  have hparse : parse f.text = ⟨(parse f.text).filters, unwords (freeWords f.text)⟩ := rfl
  rw [hparse, filters_text hf, freeWords_text hf, Span.freeWords_of_accepted hg, hg]
  rfl

/-- Only what starts with a double quote loses its quotes. -/
lemma unquote_eq_self (h : chr '"' ∉ value) : unquote value = value := by
  rw [unquote.eq_def]
  split
  · simp at h
  · rfl

/-- Of a name with a double quote in it only a part is read as the value. -/
lemma typed_ne_of_mem (hk : (nameKey? key).isSome) (hq : chr '"' ∈ name)
    (hparse : (Query.parse (Span.text ⟨key, quoted name⟩)).filters = [g]) :
    g.typed ≠ quoted name := by
  obtain ⟨a, b, rfl, hfilters⟩ :=
    Query.exists_filters_append_name hk hq (Or.inl rfl) List.not_mem_nil
  rw [List.nil_append, hparse, Query.parse_nil] at hfilters
  obtain ⟨rfl, -⟩ := List.cons.inj hfilters
  intro htyped
  have hlen := congrArg List.length htyped
  simp [Filter.ofName, quoted] at hlen

/-- **Complete values are read whole.**  Let a value of a key need no further completion.  The key
and the value are read as exactly one filter, with that key and that value as it was typed, and no
free text, if and only if no double quote is in the value, its surrounding ones aside. -/
theorem parse_complete_iff (key value : Text) (hc : isComplete key value) :
    (∃ g : Filter, g.field = key ∧ g.typed = value ∧
        Query.parse (Span.text ⟨key, value⟩) = ⟨[g], []⟩) ↔ chr '"' ∉ unquote value := by
  rcases cases_of_isComplete hc with ⟨d, hd, rfl, c, hmem, rfl⟩ | ⟨hk, name, -, rfl⟩
  · obtain ⟨hplain, g, hread⟩ := plain_choice hd hmem
    obtain ⟨hfield, htyped⟩ := Filter.of_read? hread
    have hq : chr '"' ∉ unquote c.value := by
      rw [unquote_eq_self hplain.no_quote]
      exact hplain.no_quote
    exact iff_of_true ⟨g, hfield, htyped, Query.parse_text hplain.fits hread⟩ hq
  · rw [unquote_quoted]
    constructor
    · rintro ⟨g, -, htyped, hparse⟩ hq
      exact typed_ne_of_mem hk hq (by rw [hparse]) htyped
    · intro hq
      exact ⟨Filter.ofName key name, rfl, rfl,
        Query.parse_text (fits_name hk hq []) (filter?_name hk name)⟩

/-- A name with blanks, a key and an operator in it. -/
theorem parse_complete_iff_nightly :
    let value := "\"Nightly run: cost:>= 3\"".text
    isComplete "workflow".text value ∧ chr '"' ∉ unquote value ∧
      ∃ g : Filter, g.field = "workflow".text ∧ g.typed = value ∧
        Query.parse "workflow:\"Nightly run: cost:>= 3\"".text = ⟨[g], []⟩ := by
  intro value
  have hc : isComplete "workflow".text value := by decide +kernel
  have hq : chr '"' ∉ unquote value := by decide +kernel
  exact ⟨hc, hq, (parse_complete_iff "workflow".text value hc).2 hq⟩

/-- **A complete value that falls apart.**  A name with two double quotes in it counts as complete,
and the query as finished, but the value ends at the first of them. -/
theorem parse_complete_with_quotes :
    let value := "\"Ops\"\"old\"".text
    let query := Span.text ⟨"folder".text, value⟩
    isComplete "folder".text value ∧ isFinished query ∧
      Query.parse query
        = ⟨[⟨"folder".text, .eq, .text "Ops".text, "\"Ops\"".text⟩], "\"old\"".text⟩ ∧
      ¬ ∃ g : Filter, g.field = "folder".text ∧ g.typed = value ∧
        Query.parse query = ⟨[g], []⟩ := by
  intro value query
  have hparse : Query.parse query
      = ⟨[⟨"folder".text, .eq, .text "Ops".text, "\"Ops\"".text⟩], "\"old\"".text⟩ := by
    decide +kernel
  refine ⟨by decide +kernel, by decide +kernel, hparse, ?_⟩
  rintro ⟨g, -, -, hg⟩
  rw [hparse] at hg
  simp at hg

/-! ## A value that is being typed -/

/-- Where a value is being typed, a key and a plain value are the last token. -/
lemma plain_of_value (hc : Context.ofBefore before = .value key typed start stop)
    (hq : chr '"' ∉ typed) : lastToken before = Span.text ⟨key, typed⟩ ∧ Plain key typed := by
  obtain ⟨hk, htyped, -⟩ := Context.ofBefore_eq_value hc
  obtain ⟨happ, hkey, hword⟩ := keyAndRest?_eq_some_iff.1 hk
  refine ⟨happ, hkey, hword, htyped, fun c hc => ?_, hq⟩
  refine isBlank_of_mem_lastToken (s := before) ?_
  simp [happ, hc]

/-- **The filter that is being completed is the filter that is parsed.**  Let a value be typed at
the cursor, with no double quote in what is typed so far.  The text before the cursor is some text,
the key, a colon and what is typed, which starts at the reported place.  It is parsed to the filters
of the text before the key and the one of key and value, if there is one; otherwise key and value
are one more word of the free text. -/
theorem parse_value_context (text : Text) (cursor : Option Int) (key typed : Text)
    (start stop : Nat) (hc : Context.atCursor text cursor = .value key typed start stop)
    (hq : chr '"' ∉ typed) :
    let before := beforeCursor text cursor
    let pre := beforeToken before
    before = pre ++ Span.text ⟨key, typed⟩ ∧ start = (pre ++ key ++ [chr ':']).length ∧
      Query.parse before = match Filter.read? key typed with
        | some g => ⟨(Query.parse pre).filters ++ [g], (Query.parse pre).freeText⟩
        | none => ⟨(Query.parse pre).filters,
            unwords (words (Query.parse pre).freeText ++ [Span.text ⟨key, typed⟩])⟩ := by
  intro before pre
  have hbefore : Context.ofBefore before = .value key typed start stop := hc
  obtain ⟨htoken, hplain⟩ := plain_of_value hbefore hq
  obtain ⟨-, -, hstart, -⟩ := Context.ofBefore_eq_value hbefore
  have happ : before = pre ++ Span.text ⟨key, typed⟩ := by
    rw [← htoken, beforeToken_append_lastToken]
  refine ⟨happ, ?_, ?_⟩
  · rw [hstart, happ]
    simp [Span.text]
    omega
  · have hparse := Query.parse_append_span hplain.fits (beforeToken_eq_nil_or before)
      (keepsQuotes_of_not_mem hplain.not_mem_text)
    have hfilter : Filter.read? key typed = Span.filter? ⟨key, typed⟩ := rfl
    rw [happ, hparse, hfilter]
    cases hread : Span.filter? ⟨key, typed⟩ with
    | some g =>
        rw [Span.freeWords_of_accepted hread, List.append_nil]
        rfl
    | none =>
        have hword : words (Span.text ⟨key, typed⟩) = [Span.text ⟨key, typed⟩] :=
          words_of_forall (by simp [Span.text]) hplain.isBlank_text
        rw [Span.freeWords_of_rejected hread, hword, Query.words_freeText, Option.toList_none,
          List.append_nil]

/-- A part of a cost that is no number yet, with a colon and an operator in it, in the middle of a
text; and a part of a name behind an open quote. -/
theorem parse_value_context_cost :
    let text := "say level:error cost:>0.0:1 later".text
    let named := "note:\"a workflow:Daily".text
    Context.atCursor text (some 27) = .value "cost".text ">0.0:1".text 21 27 ∧
      chr '"' ∉ ">0.0:1".text ∧
      Query.parse "say level:error cost:>0.0:1".text
        = ⟨(Query.parse "say level:error ".text).filters, "say cost:>0.0:1".text⟩ ∧
      Context.atCursor named none = .value "workflow".text "Daily".text 17 22 ∧
      chr '"' ∉ "Daily".text ∧
      ∃ g, Filter.read? "workflow".text "Daily".text = some g ∧
        Query.parse named = ⟨[g], "note:\"a".text⟩ := by
  intro text named
  have hc : Context.atCursor text (some 27) = .value "cost".text ">0.0:1".text 21 27 := by
    decide +kernel
  have hq : chr '"' ∉ ">0.0:1".text := by decide +kernel
  obtain ⟨-, -, hparse⟩ := parse_value_context text (some 27) _ _ 21 27 hc hq
  have hbefore : beforeCursor text (some 27) = "say level:error cost:>0.0:1".text := by
    decide +kernel
  have hpre : beforeToken "say level:error cost:>0.0:1".text = "say level:error ".text := by
    decide +kernel
  have hread : Filter.read? "cost".text ">0.0:1".text = none := by decide +kernel
  have hfree : (Query.parse "say level:error ".text).freeText = "say".text := by decide +kernel
  rw [hbefore, hpre, hread, hfree] at hparse
  have hc' : Context.atCursor named none = .value "workflow".text "Daily".text 17 22 := by
    decide +kernel
  have hq' : chr '"' ∉ "Daily".text := by decide +kernel
  obtain ⟨-, -, hparse'⟩ := parse_value_context named none _ _ 17 22 hc' hq'
  have hbefore' : beforeCursor named none = named := by decide +kernel
  have hpre' : Query.parse (beforeToken named) = ⟨[], "note:\"a".text⟩ := by decide +kernel
  obtain ⟨g, hread'⟩ := Option.isSome_iff_exists.1
    (by decide +kernel : (Filter.read? "workflow".text "Daily".text).isSome)
  rw [hbefore', hpre', hread'] at hparse'
  exact ⟨hc, hq, hparse.trans (by decide +kernel), hc', hq', g, hread', hparse'⟩

end LogSearch
