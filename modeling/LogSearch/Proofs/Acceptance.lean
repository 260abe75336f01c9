import LogSearch.Completion.Preview
import LogSearch.Proofs.Offers
import LogSearch.Proofs.Parse

/-!
# Accepting a value

Completion, preview, parser and the check for unfinished queries each find keys and values in a text
in their own way.  This module shows that they agree on a value that is offered and accepted.

* `completed` — the text before the cursor with a filter in place of its last token.
* `preview_eq_completed` — on every route accepting a value sets this filter and leaves the text
  after the cursor alone.
* `preview_choice` — accepting an enumerated value adds its filter to those of the text before the
  key, and nothing else.
-/

namespace LogSearch

variable {text before key typed value : Text} {cursor : Option Int} {s : Suggestion}
  {d : Definition} {c : Choice}

/-! ## The text after accepting -/

/-- The text before the cursor. -/
def beforeCursor (text : Text) (cursor : Option Int) : Text :=
  text.take (clampCursor text.length cursor)

/-- The text after the cursor. -/
def afterCursor (text : Text) (cursor : Option Int) : Text :=
  text.drop (clampCursor text.length cursor)

lemma beforeCursor_append_afterCursor (text : Text) (cursor : Option Int) :
    beforeCursor text cursor ++ afterCursor text cursor = text :=
  List.take_append_drop _ _

lemma drop_length_beforeCursor (text : Text) (cursor : Option Int) :
    text.drop (beforeCursor text cursor).length = afterCursor text cursor := by
  have htext := (beforeCursor_append_afterCursor text cursor).symm
  exact (congrArg (List.drop _) htext).trans List.drop_left

/-- A text with a filter in place of its last token. -/
def completed (before key value : Text) : Text :=
  beforeToken before ++ Span.text ⟨key, value⟩

lemma ValueRoute.lastToken_ne_nil (h : ValueRoute before key typed) : lastToken before ≠ [] := by
  cases h with
  | bareKey ht _ => simp [ht]
  | partialValue ht _ => simp [ht]
  | onlyField ht _ _ => exact ht

lemma isBlankText_eq_false (h : lastToken (beforeCursor text cursor) ≠ []) :
    isBlankText text = false := by
  obtain ⟨c, hc⟩ := List.exists_mem_of_ne_nil _ h
  have hmem : c ∈ text := by
    refine List.mem_of_mem_take (i := clampCursor text.length cursor) ?_
    rw [← beforeCursor, ← beforeToken_append_lastToken (beforeCursor text cursor)]
    exact List.mem_append_right _ hc
  rw [isBlankText, List.all_eq_false]
  exact ⟨c, hmem, by simp [isBlank_of_mem_lastToken hc]⟩

lemma preview_eq (h : isBlankText text = false) : preview s text cursor =
    match Context.ofBefore (beforeCursor text cursor) with
    | .key _ start stop => text.take start ++ s.inPlaceOfWord ++ text.drop stop
    | .value _ _ start stop => text.take start ++ s.value ++ text.drop stop
    | .initial | .free => beforeCursor text cursor ++ separator (beforeCursor text cursor)
        ++ s.value ++ afterCursor text cursor := by
  rw [preview, if_neg (by simp [h])]
  rfl

/-- Counting back from the cursor finds where a token starts. -/
lemma take_length_sub {a b : Text} (h : a ++ b = before) (t : Text) :
    (before ++ t).take (before.length - b.length) = a := by
  rw [← h, List.length_append, Nat.add_sub_cancel, List.append_assoc, List.take_left]

lemma take_of_append_eq_beforeCursor {a b : Text} (h : a ++ b = beforeCursor text cursor) :
    text.take ((beforeCursor text cursor).length - b.length) = a := by
  rw [← take_length_sub h (afterCursor text cursor), beforeCursor_append_afterCursor]

/-- **Accepting a value** sets its filter in place of the last token before the cursor, on whatever
route it was offered, and leaves the text after the cursor as it is. -/
theorem preview_eq_completed (hroute : ValueRoute (beforeCursor text cursor) key typed)
    (hcat : s.category = key) :
    preview s text cursor
      = completed (beforeCursor text cursor) key s.value ++ afterCursor text cursor := by
  have hblank := isBlankText_eq_false hroute.lastToken_ne_nil
  have htoken := beforeToken_append_lastToken (beforeCursor text cursor)
  have htext := beforeCursor_append_afterCursor text cursor
  rw [preview_eq hblank]
  generalize beforeCursor text cursor = before at *
  generalize afterCursor text cursor = after at *
  rw [← htext]
  cases hroute with
  | bareKey ht hc =>
      rw [ht] at htoken
      have hsep : separator before = [] := by
        rw [← htoken, ← List.append_assoc]
        simp [separator]
      simp only [hc, hsep]
      nth_rewrite 1 [← htoken]
      simp [completed, Span.text]
  | partialValue ht hc =>
      have hstart : (before ++ after).take (before.length - typed.length)
          = beforeToken before ++ (key ++ [chr ':']) := by
        refine take_length_sub ?_ after
        rw [ht] at htoken
        simpa using htoken
      simp only [hc, hstart, List.drop_left]
      simp [completed, Span.text]
  | onlyField ht hd hc =>
      have hstart : (before ++ after).take (before.length - (lastToken before).length)
          = beforeToken before :=
        take_length_sub htoken after
      have hplace : s.inPlaceOfWord = key ++ chr ':' :: s.value := by
        rw [Suggestion.inPlaceOfWord, hcat, if_pos hd]
      simp only [hc, hstart, hplace, List.drop_left]
      simp [completed, Span.text]

/-! ## Values that need no quotes -/

/-- What a value that is typed without quotes must be like. -/
structure Plain (key value : Text) : Prop where
  key_ne_nil : key ≠ []
  key_word : ∀ x ∈ key, isWord x
  value_ne_nil : value ≠ []
  no_blank : ∀ x ∈ value, isBlank x = false
  no_quote : chr '"' ∉ value

namespace Plain

lemma fits (h : Plain key value) : Span.Fits ⟨key, value⟩ [] := by
  refine ⟨h.key_ne_nil, h.key_word, Or.inr ⟨h.value_ne_nil, h.no_blank, rfl, ?_⟩⟩
  intro r hr
  obtain ⟨op, hop, -⟩ := splitValue?_eq (startsBlank_eq_false h.value_ne_nil h.no_blank)
  have hmem : chr '"' ∈ value := by
    rw [← hop, hr]
    simp
  exact absurd hmem h.no_quote

lemma isBlank_text (h : Plain key value) : ∀ x ∈ Span.text ⟨key, value⟩, isBlank x = false := by
  intro x hx
  rcases List.mem_append.1 hx with hx | hx
  · exact isBlank_eq_false_of_isWord (h.key_word x hx)
  · rcases List.mem_cons.1 hx with rfl | hx
    · decide
    · exact h.no_blank x hx

lemma not_mem_text (h : Plain key value) : chr '"' ∉ Span.text ⟨key, value⟩ := by
  intro hx
  rcases List.mem_append.1 hx with hx | hx
  · exact not_mem_of_forall_isWord h.key_word (by decide) hx
  · rcases List.mem_cons.1 hx with hx | hx
    · exact absurd hx (by decide)
    · exact h.no_quote hx

lemma endsInKey_completed (h : Plain key value) (before : Text) :
    endsInKey (completed before key value) = false := by
  have htoken : lastToken (completed before key value) = key ++ chr ':' :: value :=
    lastToken_append (beforeToken_eq_nil_or before) h.isBlank_text
  have hends : endsBlank (completed before key value) = false := by
    rw [completed, endsBlank_append (by simp [Span.text])]
    exact h.fits.endsBlank_text
  rw [endsInKey, dropBlanks_of_endsBlank_eq_false hends, htoken,
    keyAndRest?_eq_some_iff.2 ⟨rfl, h.key_ne_nil, h.key_word⟩]
  cases value with
  | nil => exact absurd rfl h.value_ne_nil
  | cons x value => rfl

lemma isFinished_completed (h : Plain key value)
    (heven : (beforeToken before).count (chr '"') % 2 = 0) :
    isFinished (completed before key value) := by
  have hcount : (completed before key value).count (chr '"')
      = (beforeToken before).count (chr '"') := by
    rw [completed, List.count_append, List.count_eq_zero.2 h.not_mem_text, Nat.add_zero]
  simp [isFinished, hcount, heven, h.endsInKey_completed]

end Plain

/-! ## Enumerated values -/

/-- Enumerated values need no quotes, and their fields take them. -/
lemma plain_choice (hd : d ∈ catalog) (hc : c ∈ d.choices) :
    Plain d.key c.value ∧ ∃ g, Filter.read? d.key c.value = some g := by
  have hkeys : ∀ d ∈ catalog, d.key ≠ [] ∧ d.key.all isWord := by decide +kernel
  have hvalues : ∀ d ∈ catalog, ∀ c ∈ d.choices, c.value ≠ [] ∧
      c.value.all (!isBlank ·) ∧ chr '"' ∉ c.value ∧ (Filter.read? d.key c.value).isSome := by
    decide +kernel
  obtain ⟨hk, hw⟩ := hkeys d hd
  obtain ⟨hv, hb, hq, hread⟩ := hvalues d hd c hc
  refine ⟨⟨hk, List.all_eq_true.1 hw, hv, ?_, hq⟩, Option.isSome_iff_exists.1 hread⟩
  intro x hx
  simpa using List.all_eq_true.1 hb x hx

/-- **Accepting an enumerated value adds exactly its filter.**  Let the text before the cursor not
end in a blank, and let values of a catalog field be offered there.  Accepting one of them sets it
after its key, where the last token was.  The text up to there then has the filters of the text
before the key and the one of the value, and no other free text; and it is finished if the double
quotes before the key pair up. -/
theorem preview_choice (e : Engine) (text : Text) (cursor : Option Int) (key : Text)
    (suggestions : List Suggestion) (s : Suggestion)
    (hb : endsBlank (beforeCursor text cursor) = false)
    (hg : e.suggest? text cursor = some (.values key suggestions))
    (hk : (definition? key).isSome) (hs : s ∈ suggestions) :
    let before := beforeCursor text cursor
    let pre := beforeToken before
    let head := completed before key s.value
    preview s text cursor = head ++ afterCursor text cursor ∧
      (∃ g, Filter.read? key s.value = some g ∧
        Query.parse head = ⟨(Query.parse pre).filters ++ [g], (Query.parse pre).freeText⟩) ∧
      (pre.count (chr '"') % 2 = 0 → isFinished head) := by
  intro before pre head
  obtain ⟨typed, hroute, hgroup⟩ := valueRoute_of_suggestAfter? hb hg
  obtain ⟨d, hd⟩ := Option.isSome_iff_exists.1 hk
  obtain ⟨hmem, rfl⟩ := definition?_eq_some hd
  have hcat := (valueGroup?_eq_some hgroup).2 s hs
  -- the suggestions are choices of the field
  have hchoices : suggestions = Engine.choiceSuggestions d typed := by
    simpa [Engine.valueGroup?, hd] using hgroup.symm
  rw [hchoices] at hs
  obtain ⟨c, hc, rfl⟩ := mem_choiceSuggestions hs
  obtain ⟨hplain, g, hread⟩ := plain_choice hmem hc
  refine ⟨preview_eq_completed hroute hcat, ⟨g, hread, ?_⟩, hplain.isFinished_completed⟩
  exact Query.parse_append_filter hplain.fits hread (beforeToken_eq_nil_or before)
    (keepsQuotes_of_not_mem hplain.not_mem_text)

/-- A part of a cost, after two filters that are rejected and before more text. -/
theorem preview_choice_cost :
    let text := "note:\"a b\" http://x cost:>0. or so".text
    let offered := Engine.choiceSuggestions costDefinition ">0.".text
    let s := Suggestion.ofChoice "cost".text
      (choice ">0.05" "Over $0.05" "Executions costing more than $0.05")
    let head := "note:\"a b\" http://x cost:>0.05".text
    endsBlank (beforeCursor text (some 28)) = false ∧
      Engine.empty.suggest? text (some 28) = some (.values "cost".text offered) ∧
      (definition? "cost".text).isSome ∧ s ∈ offered ∧
      preview s text (some 28) = head ++ " or so".text ∧
      (∃ g, Filter.read? "cost".text ">0.05".text = some g ∧
        Query.parse head = ⟨[g], "note:\"a b\" http://x".text⟩) ∧
      isFinished head := by
  intro text offered s head
  have hb : endsBlank (beforeCursor text (some 28)) = false := by decide +kernel
  have hg : Engine.empty.suggest? text (some 28) = some (.values "cost".text offered) := by
    decide +kernel
  have hk : (definition? "cost".text).isSome := by decide +kernel
  have hs : s ∈ offered := by decide +kernel
  obtain ⟨hpreview, ⟨g, hread, hparse⟩, hfinished⟩ :=
    preview_choice Engine.empty text (some 28) "cost".text offered s hb hg hk hs
  have hhead : completed (beforeCursor text (some 28)) "cost".text s.value = head := by
    decide +kernel
  have hafter : afterCursor text (some 28) = " or so".text := by decide +kernel
  have hpre : Query.parse (beforeToken (beforeCursor text (some 28)))
      = ⟨[], "note:\"a b\" http://x".text⟩ := by
    decide +kernel
  rw [hhead, hafter] at hpreview
  rw [hhead, hpre] at hparse
  rw [hhead] at hfinished
  exact ⟨hb, hg, hk, hs, hpreview, ⟨g, hread, hparse⟩, hfinished (by decide +kernel)⟩

end LogSearch
