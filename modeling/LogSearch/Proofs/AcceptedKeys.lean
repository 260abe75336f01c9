import LogSearch.Proofs.DecisionList

/-!
# Accepting a key

A suggested key brings its colon along, so that its values are offered next.  For this the key must
come to stand at the start of a token, wherever the cursor was.

* `KeyRoute` — the two ways in which keys come to be offered: for a new token, or for a word.
* `exists_preview_key` — on both of them an accepted key starts a token.
* `preview_key` — so at the cursor behind it the values of the key are offered.
-/

namespace LogSearch

variable {e : Engine} {before text key typed value : Text} {cursor : Option Int}
  {suggestions : List Suggestion} {s : Suggestion}

/-! ## Keys on offer -/

lemma exists_valueGroup?
    (h : (definition? key).isSome ∨ (nameKey? key).isSome ∨ (idKey? key).isSome) :
    ∃ offered, e.valueGroup? key [] = some (.values key offered) := by
  rw [Engine.valueGroup?]
  split
  · exact ⟨_, rfl⟩
  · exact ⟨_, rfl⟩
  · exact ⟨_, rfl⟩
  · simp_all

/-- The keys that are ever offered. -/
def offeredKeys : List Text :=
  catalog.map (·.key) ++ nameKeys.map (·.key) ++ idKeys.map (·.key)

/-- Every key that is offered is a word and has values. -/
lemma offeredKey_spec (e : Engine) (h : key ∈ offeredKeys) :
    IsKey key ∧ ∃ offered, e.valueGroup? key [] = some (.values key offered) := by
  have hkeys : ∀ key ∈ offeredKeys, key ≠ [] ∧ key.all isWord ∧
      ((definition? key).isSome ∨ (nameKey? key).isSome ∨ (idKey? key).isSome) := by
    decide +kernel
  obtain ⟨hne, hword, hknown⟩ := hkeys key h
  exact ⟨⟨hne, List.all_eq_true.1 hword⟩, exists_valueGroup? hknown⟩

lemma exists_ofKey_eq (hs : s ∈ (e.keyGroup typed).suggestions) :
    ∃ key ∈ offeredKeys, ∃ label description, Suggestion.ofKey key label description = s := by
  simp only [Engine.keyGroup, Group.suggestions, List.mem_append, List.mem_map] at hs
  simp only [offeredKeys, List.mem_append, List.mem_map]
  rcases hs with (⟨d, hd, hs⟩ | ⟨k, hk, hs⟩) | ⟨k, hk, hs⟩
  · exact ⟨d.key, Or.inl (Or.inl ⟨d, (mem_matchingDefinitions.1 hd).1, rfl⟩), _, _, hs⟩
  · exact ⟨k.key, Or.inl (Or.inr ⟨k, (List.mem_filter.1 hk).1, rfl⟩), _, _, hs⟩
  · exact ⟨k.key, Or.inr ⟨k, (List.mem_filter.1 hk).1, rfl⟩, _, _, hs⟩

/-! ## Routes to keys -/

/-- How keys that start with a typed text come to be offered after a text. -/
inductive KeyRoute (before : Text) : Text → Prop
  /-- A new token is expected. -/
  | newToken (hbare : Engine.bareKey? before = none) (hc : Context.ofBefore before = .initial) :
      KeyRoute before []
  /-- A word is there. -/
  | word (hc : Context.ofBefore before = .key (lastToken before)
      (before.length - (lastToken before).length) before.length) :
      KeyRoute before (lastToken before)

lemma suggestWord_eq_keys (h : e.suggestWord typed = some (.keys suggestions)) :
    e.keyGroup typed = .keys suggestions := by
  rw [Engine.suggestWord.eq_def] at h
  split at h
  · exact absurd h valueGroup?_ne_keys
  · exact Option.some.inj h

/-- **The routes to keys.** -/
theorem keyRoute_of_suggestAfter? (h : e.suggestAfter? before = some (.keys suggestions)) :
    ∃ typed, KeyRoute before typed ∧ e.keyGroup typed = .keys suggestions := by
  cases hbare : Engine.bareKey? before with
  | some key =>
      rw [Engine.suggestAfter?, hbare] at h
      exact absurd h valueGroup?_ne_keys
  | none =>
      rw [suggestAfter?_of_bareKey?_eq_none hbare] at h
      split at h
      · rename_i hc
        exact ⟨[], .newToken hbare hc, Option.some.inj h⟩
      · rename_i word start stop hc
        obtain ⟨rfl, -, rfl, rfl⟩ := Context.ofBefore_eq_key hc
        exact ⟨_, .word hc, suggestWord_eq_keys h⟩
      · exact absurd h valueGroup?_ne_keys
      · simp at h

/-! ## Where an accepted key stands -/

lemma getLast?_ne_of_isComplete (h : isComplete key value) : value.getLast? ≠ some (chr ':') := by
  have hchoices : ∀ d ∈ catalog, ∀ c ∈ d.choices, c.value.getLast? ≠ some (chr ':') := by
    decide +kernel
  rcases cases_of_isComplete h with ⟨d, hd, -, c, hc, rfl⟩ | ⟨-, name, -, rfl⟩
  · exact hchoices d hd c hc
  · rw [getLast?_quoted]
    decide

/-- Where a new token is expected, no colon stands right before the cursor: neither a complete value
nor a closed name ends in one. -/
lemma getLast?_ne_of_newToken (hbare : Engine.bareKey? before = none)
    (hc : Context.ofBefore before = .initial) : before.getLast? ≠ some (chr ':') := by
  intro hlast
  have hblank : endsBlank before = false := (endsBlank_of_getLast? hlast).trans (by decide)
  have htoken := lastToken_ne_nil_of_getLast? hlast (by decide)
  have hbefore := beforeToken_append_lastToken before
  cases hk : keyAndRest? (lastToken before) with
  | some p =>
      obtain ⟨name, rest⟩ := p
      have hrest : rest ≠ [] := by
        rintro rfl
        rw [(bareKey?_eq_some_iff hblank).2 hk] at hbare
        simp at hbare
      have hcomplete : isComplete name rest := by
        by_contra hn
        simp [Context.ofBefore, hk, hrest, hn] at hc
      have happ : before = (beforeToken before ++ name ++ [chr ':']) ++ rest := by
        rw [(keyAndRest?_eq_some_iff.1 hk).1] at hbefore
        simpa using hbefore.symm
      rw [happ, List.getLast?_append_of_ne_nil _ hrest] at hlast
      exact getLast?_ne_of_isComplete hcomplete hlast
  | none =>
      have hclosed : endsInClosedName before := by
        simp only [Context.ofBefore, hk] at hc
        split at hc
        · rename_i h
          simpa [htoken] using h
        · split at hc <;> simp at hc
      obtain ⟨key, name, ⟨-, -, -, pre, rfl, -⟩, -⟩ := endsInClosedName_iff.1 hclosed
      rw [getLast?_closedName] at hlast
      simp at hlast

/-- A suggestion that is inserted starts a token, unless a colon stands before it. -/
lemma append_separator (h : before.getLast? ≠ some (chr ':')) :
    before ++ separator before = [] ∨ endsBlank (before ++ separator before) := by
  rcases List.eq_nil_or_concat before with rfl | ⟨before, c, rfl⟩
  · exact Or.inl rfl
  · rw [List.concat_eq_append] at h ⊢
    have hcolon : c ≠ chr ':' := by simpa using h
    cases hc : isBlank c with
    | true => simp [separator, endsBlank, hc]
    | false =>
        have hsep : separator (before ++ [c]) = [chr ' '] := by simp [separator, hcolon, hc]
        rw [hsep, endsBlank_concat]
        exact Or.inr (by decide)

/-- The text after the cursor, which a blank text loses when a suggestion is accepted. -/
def keptAfter (text : Text) (cursor : Option Int) : Text :=
  if isBlankText text then [] else afterCursor text cursor

/-- On both routes an accepted key starts a token. -/
lemma exists_preview_key (hroute : KeyRoute (beforeCursor text cursor) typed)
    (hcat : s.category = keyCategory) :
    ∃ pre, (pre = [] ∨ endsBlank pre) ∧
      preview s text cursor = pre ++ s.value ++ keptAfter text cursor := by
  cases hblank : isBlankText text with
  | true => exact ⟨[], Or.inl rfl, by simp [preview, keptAfter, hblank]⟩
  | false =>
      rw [preview_eq hblank, keptAfter, hblank]
      cases hroute with
      | newToken hbare hc =>
          refine ⟨_, append_separator (getLast?_ne_of_newToken hbare hc), ?_⟩
          simp [hc]
      | word hc =>
          have hplace : s.inPlaceOfWord = s.value := by
            have hkey : definition? keyCategory = none := by decide +kernel
            simp [Suggestion.inPlaceOfWord, hcat, hkey]
          have htake := take_of_append_eq_beforeCursor
            (beforeToken_append_lastToken (beforeCursor text cursor))
          refine ⟨_, beforeToken_eq_nil_or (beforeCursor text cursor), ?_⟩
          simp [hc, htake, hplace, drop_length_beforeCursor]

/-! ## Asking again -/

lemma beforeCursor_append (a b : Text) : beforeCursor (a ++ b) (some a.length) = a := by
  simp [beforeCursor, clampCursor]

/-- **Accepting a key leads to its values.**  Let keys be offered at a cursor, and let one of them
be accepted.  It is inserted in front of the text after the cursor, if the text was not blank; and
at the cursor right behind the inserted key and colon, the group of all values of that key is
offered. -/
theorem preview_key (e : Engine) (text : Text) (cursor : Option Int)
    (suggestions : List Suggestion) (s : Suggestion)
    (hg : e.suggest? text cursor = some (.keys suggestions)) (hs : s ∈ suggestions) :
    ∃ key pre offered, s.value = key ++ [chr ':'] ∧
      preview s text cursor = pre ++ s.value ++ keptAfter text cursor ∧
      e.valueGroup? key [] = some (.values key offered) ∧
      e.suggest? (preview s text cursor) (some (pre ++ s.value).length)
        = some (.values key offered) := by
  have hafter : e.suggestAfter? (beforeCursor text cursor) = some (.keys suggestions) := hg
  obtain ⟨typed, hroute, hgroup⟩ := keyRoute_of_suggestAfter? hafter
  have hmem : s ∈ (e.keyGroup typed).suggestions := by
    rw [hgroup]
    exact hs
  obtain ⟨key, hknown, label, description, hofKey⟩ := exists_ofKey_eq hmem
  obtain ⟨hkey, offered, hoffered⟩ := offeredKey_spec e hknown
  have hcat : s.category = keyCategory := hofKey ▸ rfl
  have hvalue : s.value = key ++ [chr ':'] := hofKey ▸ rfl
  obtain ⟨pre, hpre, hpreview⟩ := exists_preview_key hroute hcat
  refine ⟨key, pre, offered, hvalue, hpreview, hoffered, ?_⟩
  have hbefore : beforeCursor (preview s text cursor) (some (pre ++ s.value).length)
      = pre ++ key ++ [chr ':'] := by
    rw [hpreview, beforeCursor_append, hvalue, List.append_assoc]
  have hblank : endsBlank (pre ++ key ++ [chr ':']) = false := by
    rw [endsBlank_concat]
    decide
  have htoken := keyAndRest?_lastToken_iff.2 ⟨pre, rfl, hpre, hkey⟩
  rw [Engine.suggest?, ← beforeCursor, hbefore, suggestAfter?_of_key hblank htoken, hoffered]

/-- A key that is accepted right behind a closed name, in front of other text. -/
theorem preview_key_folder :
    let e : Engine := ⟨["Daily report".text], ["Ops".text, "Marketing".text]⟩
    let text := "workflow:\"Daily report\"timeout".text
    let suggestions := (e.keyGroup []).suggestions
    let s := Suggestion.ofKey "folder".text "Folder".text "Filter by folder name".text
    let after := "workflow:\"Daily report\" folder:timeout".text
    e.suggest? text (some 23) = some (.keys suggestions) ∧ s ∈ suggestions ∧
      preview s text (some 23) = after ∧
      e.suggest? after (some 31) = e.valueGroup? "folder".text [] ∧
      (e.suggest? after (some 31)).map (·.suggestions.map (·.value))
        = some ["\"Ops\"".text, "\"Marketing\"".text] := by
  intro e text suggestions s after
  have hg : e.suggest? text (some 23) = some (.keys suggestions) := by decide +kernel
  have hs : s ∈ suggestions := by decide +kernel
  have hafter : preview s text (some 23) = after := by decide +kernel
  obtain ⟨key, pre, offered, hvalue, hpreview, hoffered, hagain⟩ :=
    preview_key e text (some 23) suggestions s hg hs
  have hkey : key = "folder".text := List.append_cancel_right hvalue.symm
  have hpre : pre = "workflow:\"Daily report\" ".text := by
    have hkept : s.value ++ keptAfter text (some 23) = "folder:timeout".text := by decide +kernel
    rw [hafter, List.append_assoc, hkept] at hpreview
    exact List.append_cancel_right hpreview.symm
  rw [hafter, hpre] at hagain
  rw [hkey] at hoffered hagain
  refine ⟨hg, hs, hafter, ?_, by decide +kernel⟩
  rw [hoffered]
  exact hagain

end LogSearch
