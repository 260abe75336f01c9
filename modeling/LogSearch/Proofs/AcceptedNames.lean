import LogSearch.Proofs.Acceptance
import LogSearch.Proofs.Coercion

/-!
# Accepting a name

The names of workflows and folders come from the host and may hold any characters.  A name is
offered in double quotes, and a quoted value has no way to write a double quote.

* `parse_append_quoted` — a quoted value ends at the first double quote of its text, and what
  follows is parsed by itself.
* `preview_name_iff` — so accepting a name adds exactly its filter if and only if no double quote
  is in it.  Blanks, colons, operators and line breaks do no harm.
-/

namespace LogSearch

variable {s before key name inner : Text} {offer : Suggestion}

/-! ## Keys of names -/

lemma exists_mem_nameKeys (h : (nameKey? key).isSome) : ∃ k ∈ nameKeys, k.key = key := by
  obtain ⟨k, hk⟩ := Option.isSome_iff_exists.1 h
  exact ⟨k, List.mem_of_find?_eq_some hk, nameKey?_eq_some hk⟩

/-- The keys of names are words, and their fields take every text. -/
lemma nameKey_spec (h : (nameKey? key).isSome) :
    key ≠ [] ∧ (∀ x ∈ key, isWord x) ∧
      ∃ fld, Field.ofName? key = some fld ∧ ∀ t, fld.coerce? t = some (.text t) := by
  obtain ⟨k, hmem, rfl⟩ := exists_mem_nameKeys h
  have hkeys : ∀ k ∈ nameKeys, k.key ≠ [] ∧ k.key.all isWord ∧
      (Field.ofName? k.key = some .workflow ∨ Field.ofName? k.key = some .folder) := by
    decide +kernel
  obtain ⟨hne, hword, hfld⟩ := hkeys k hmem
  refine ⟨hne, List.all_eq_true.1 hword, ?_⟩
  rcases hfld with hfld | hfld
  · exact ⟨.workflow, hfld, fun _ => rfl⟩
  · exact ⟨.folder, hfld, fun _ => rfl⟩

lemma definition?_eq_none_of_nameKey (h : (nameKey? key).isSome) : definition? key = none := by
  obtain ⟨k, hmem, rfl⟩ := exists_mem_nameKeys h
  have hkeys : ∀ k ∈ nameKeys, definition? k.key = none := by decide +kernel
  exact hkeys k hmem

/-- A key of names offers names, each in double quotes. -/
lemma value_of_mem_valueGroup? {e : Engine} {typed : Text} {suggestions : List Suggestion}
    (hg : e.valueGroup? key typed = some (.values key suggestions))
    (hk : (nameKey? key).isSome) (ho : offer ∈ suggestions) :
    offer.value = quoted offer.label := by
  obtain ⟨k, hkey⟩ := Option.isSome_iff_exists.1 hk
  simp only [Engine.valueGroup?, definition?_eq_none_of_nameKey hk, hkey, Option.some.injEq,
    Group.values.injEq, true_and] at hg
  rw [← hg] at ho
  obtain ⟨name, -, rfl⟩ := List.mem_map.1 ho
  rfl

/-! ## Quoted values in a text -/

/-- The filter of a name. -/
def Filter.ofName (key name : Text) : Filter where
  field := key
  operator := .eq
  value := .text name
  typed := quoted name

lemma filter?_name (h : (nameKey? key).isSome) (name : Text) :
    Span.filter? ⟨key, quoted name⟩ = some (Filter.ofName key name) := by
  obtain ⟨-, -, fld, hfld, hcoerce⟩ := nameKey_spec h
  have hread := Filter.read?_quoted key none name
  rw [hfld, Option.bind_some, hcoerce] at hread
  exact hread

lemma fits_name (h : (nameKey? key).isSome) (hq : chr '"' ∉ name) (rest : Text) :
    Span.Fits ⟨key, quoted name⟩ rest := by
  obtain ⟨hne, hword, -⟩ := nameKey_spec h
  exact ⟨hne, hword, Or.inl ⟨none, name, rfl, hq⟩⟩

/-- **A quoted value ends at its first double quote.**  The text behind it is parsed by itself. -/
theorem Query.parse_append_quoted (h : (nameKey? key).isSome) (hq : chr '"' ∉ inner)
    (ha : s = [] ∨ endsBlank s) (hs : chr '"' ∉ s) (rest : Text) :
    (parse (s ++ (Span.text ⟨key, quoted inner⟩ ++ rest))).filters
      = (parse s).filters ++ Filter.ofName key inner :: (parse rest).filters := by
  have hfits := fits_name h hq rest
  have hfirst : Span.first? (Span.text ⟨key, quoted inner⟩ ++ rest)
      = some ([], ⟨key, quoted inner⟩, rest) :=
    Span.first?_of_atStart? (Span.atStart?_eq_some_iff.2 ⟨rfl, hfits⟩)
  rw [filters_append (ha.imp_right Or.inl) (keepsQuotes_of_not_mem_left hs),
    filters_of_some hfirst, filter?_name h]
  rfl

/-- A quoted name with a double quote in it is cut there. -/
lemma Query.exists_filters_append_name (h : (nameKey? key).isSome) (hq : chr '"' ∈ name)
    (ha : s = [] ∨ endsBlank s) (hs : chr '"' ∉ s) :
    ∃ a b, name = a ++ chr '"' :: b ∧ (parse (s ++ Span.text ⟨key, quoted name⟩)).filters
      = (parse s).filters ++ Filter.ofName key a :: (parse (b ++ [chr '"'])).filters := by
  obtain ⟨a, b, rfl, hna⟩ := List.eq_append_cons_of_mem hq
  refine ⟨a, b, rfl, ?_⟩
  have hcut : Span.text ⟨key, quoted (a ++ chr '"' :: b)⟩
      = Span.text ⟨key, quoted a⟩ ++ (b ++ [chr '"']) := by
    simp [Span.text, quoted]
  rw [hcut, Query.parse_append_quoted h hna ha hs]

/-! ## Accepting -/

lemma parse_completed_name (h : (nameKey? key).isSome) (hs : chr '"' ∉ beforeToken before)
    (hq : chr '"' ∉ name) :
    Query.parse (completed before key (quoted name))
      = ⟨(Query.parse (beforeToken before)).filters ++ [Filter.ofName key name],
          (Query.parse (beforeToken before)).freeText⟩ :=
  Query.parse_append_filter (fits_name h hq []) (filter?_name h name)
    (beforeToken_eq_nil_or before) (keepsQuotes_of_not_mem_left hs)

/-- If a name holds a double quote, the value of its filter ends there. -/
lemma filters_completed_name_ne (h : (nameKey? key).isSome) (hs : chr '"' ∉ beforeToken before)
    (hq : chr '"' ∈ name) {g : Filter} (hg : g.value = .text name) :
    (Query.parse (completed before key (quoted name))).filters
      ≠ (Query.parse (beforeToken before)).filters ++ [g] := by
  obtain ⟨a, b, rfl, hfilters⟩ :=
    Query.exists_filters_append_name h hq (beforeToken_eq_nil_or before) hs
  rw [completed, hfilters]
  intro heq
  have hfilter : Filter.ofName key a = g := (List.cons.inj (List.append_cancel_left heq)).1
  rw [← hfilter] at hg
  simp [Filter.ofName] at hg

/-- **Accepting a name adds exactly its filter if and only if it holds no double quote.**  Let the
text before the cursor not end in a blank, let names of workflows or folders be offered there, and
let no double quote stand before the key.  Accepting a name sets it after its key, in quotes, where
the last token was.  The text up to there has the filters of the text before the key, then one
filter for equality with the name, and no other free text — unless a double quote is in the name. -/
theorem preview_name_iff (e : Engine) (text : Text) (cursor : Option Int) (key : Text)
    (suggestions : List Suggestion) (offer : Suggestion)
    (hb : endsBlank (beforeCursor text cursor) = false)
    (hs : chr '"' ∉ beforeToken (beforeCursor text cursor))
    (hg : e.suggest? text cursor = some (.values key suggestions))
    (hk : (nameKey? key).isSome) (ho : offer ∈ suggestions) :
    let before := beforeCursor text cursor
    let pre := beforeToken before
    let head := completed before key offer.value
    preview offer text cursor = head ++ afterCursor text cursor ∧
      ((∃ g : Filter, g.field = key ∧ g.operator = .eq ∧ g.value = .text offer.label ∧
          Query.parse head = ⟨(Query.parse pre).filters ++ [g], (Query.parse pre).freeText⟩) ↔
        chr '"' ∉ offer.label) := by
  intro before pre head
  obtain ⟨typed, hroute, hgroup⟩ := valueRoute_of_suggestAfter? hb hg
  have hcat := (valueGroup?_eq_some hgroup).2 offer ho
  have hhead : head = completed before key (quoted offer.label) := by
    rw [← value_of_mem_valueGroup? hgroup hk ho]
  refine ⟨preview_eq_completed hroute hcat, ?_, ?_⟩
  · rintro ⟨g, -, -, hvalue, hparse⟩ hq
    refine filters_completed_name_ne hk hs hq hvalue ?_
    rw [← hhead, hparse]
  · intro hq
    exact ⟨Filter.ofName key offer.label, rfl, rfl, rfl,
      hhead ▸ parse_completed_name hk hs hq⟩

/-- A part of a name, after a filter and before more text.  The name holds a blank, a colon and an
operator. -/
theorem preview_name_iff_daily :
    let e : Engine := ⟨["Daily run: >= 3".text, "Weekly".text], []⟩
    let text := "level:error workflow:\"dai now".text
    let offer := Suggestion.ofName (keyInfo "workflow" "Workflow" "Filter by workflow name")
      "Daily run: >= 3".text
    let head := "level:error workflow:\"Daily run: >= 3\"".text
    endsBlank (beforeCursor text (some 25)) = false ∧
      chr '"' ∉ beforeToken (beforeCursor text (some 25)) ∧
      e.suggest? text (some 25) = some (.values "workflow".text [offer]) ∧
      preview offer text (some 25) = head ++ " now".text ∧
      ∃ g : Filter, g.field = "workflow".text ∧ g.operator = .eq ∧
        g.value = .text "Daily run: >= 3".text ∧
        Query.parse head = ⟨(Query.parse "level:error ".text).filters ++ [g], []⟩ := by
  intro e text offer head
  have hb : endsBlank (beforeCursor text (some 25)) = false := by decide +kernel
  have hs : chr '"' ∉ beforeToken (beforeCursor text (some 25)) := by decide +kernel
  have hg : e.suggest? text (some 25) = some (.values "workflow".text [offer]) := by
    decide +kernel
  have hk : (nameKey? "workflow".text).isSome := by decide +kernel
  obtain ⟨hpreview, hiff⟩ := preview_name_iff e text (some 25) "workflow".text [offer] offer
    hb hs hg hk List.mem_cons_self
  have hhead : completed (beforeCursor text (some 25)) "workflow".text offer.value = head := by
    decide +kernel
  have hafter : afterCursor text (some 25) = " now".text := by decide +kernel
  have hpre : beforeToken (beforeCursor text (some 25)) = "level:error ".text := by
    decide +kernel
  have hfree : (Query.parse "level:error ".text).freeText = [] := by decide +kernel
  rw [hhead, hafter] at hpreview
  rw [hhead, hpre, hfree] at hiff
  exact ⟨hb, hs, hg, hpreview, hiff.2 (by decide +kernel)⟩

/-- **A name with a double quote.**  Accepting the only name on offer filters for the part of it up
to the quote, and what follows becomes free text. -/
theorem preview_name_with_quote :
    let e : Engine := ⟨["Sync \"prod\" daily".text], []⟩
    let offer := Suggestion.ofName (keyInfo "workflow" "Workflow" "Filter by workflow name")
      "Sync \"prod\" daily".text
    let head := "workflow:\"Sync \"prod\" daily\"".text
    e.suggest? "workflow:".text none = some (.values "workflow".text [offer]) ∧
      preview offer "workflow:".text none = head ∧
      Query.parse head
        = ⟨[⟨"workflow".text, .eq, .text "Sync ".text, "\"Sync \"".text⟩],
            "prod\" daily\"".text⟩ ∧
      ¬ ∃ g : Filter, g.field = "workflow".text ∧ g.operator = .eq ∧
        g.value = .text offer.label ∧ Query.parse head = ⟨[g], []⟩ := by
  intro e offer head
  have hparse : Query.parse head
      = ⟨[⟨"workflow".text, .eq, .text "Sync ".text, "\"Sync \"".text⟩],
          "prod\" daily\"".text⟩ := by
    decide +kernel
  refine ⟨by decide +kernel, by decide +kernel, hparse, ?_⟩
  rintro ⟨g, -, -, -, hg⟩
  rw [hparse] at hg
  simp at hg

end LogSearch
