import LogSearch.Completion.Engine
import LogSearch.Proofs.Tokens

/-!
# Values on offer

The engine offers values of a key for more than one reason.  This module says which values they are
and why they are offered.

* `valueGroup?_eq_some` — the values of a group belong to the key that was asked for.
* `ValueRoute` — the three ways in which values of a key come to be offered, with what the last
  token is in each.
* `valueRoute_of_suggestAfter?` — there are no others, unless the text ends in a blank.
-/

namespace LogSearch

variable {e : Engine} {before key typed : Text} {suggestions : List Suggestion} {s : Suggestion}
  {d : Definition}

/-! ## Groups of values -/

lemma definition?_eq_some (h : definition? key = some d) : d ∈ catalog ∧ d.key = key := by
  refine ⟨List.mem_of_find?_eq_some h, ?_⟩
  simpa using List.find?_some h

lemma isSome_definition? (h : d ∈ catalog) : (definition? d.key).isSome := by
  rw [definition?, List.find?_isSome]
  exact ⟨d, h, by simp⟩

lemma nameKey?_eq_some {k : KeyInfo} (h : nameKey? key = some k) : k.key = key := by
  simpa using List.find?_some h

lemma idKey?_eq_some {k : KeyInfo} (h : idKey? key = some k) : k.key = key := by
  simpa using List.find?_some h

lemma mem_choiceSuggestions (h : s ∈ Engine.choiceSuggestions d typed) :
    ∃ c ∈ d.choices, Suggestion.ofChoice d.key c = s := by
  obtain ⟨c, hc, hs⟩ := List.mem_map.1 h
  exact ⟨c, (List.mem_filter.1 hc).1, hs⟩

/-- A group of values is for the key that was asked for, and each value has it as category. -/
lemma valueGroup?_eq_some {key' : Text}
    (h : e.valueGroup? key typed = some (.values key' suggestions)) :
    key' = key ∧ ∀ s ∈ suggestions, s.category = key := by
  have hgroup : ∀ offered : List Suggestion, (∀ s ∈ offered, s.category = key) →
      some (Group.values key offered) = some (.values key' suggestions) →
      key' = key ∧ ∀ s ∈ suggestions, s.category = key := by
    intro offered hcat heq
    simp only [Option.some.injEq, Group.values.injEq] at heq
    obtain ⟨rfl, rfl⟩ := heq
    exact ⟨rfl, hcat⟩
  rw [Engine.valueGroup?] at h
  split at h
  · rename_i d _ _ hd
    refine hgroup _ (fun s hs => ?_) h
    obtain ⟨c, -, rfl⟩ := mem_choiceSuggestions hs
    exact (definition?_eq_some hd).2
  · rename_i k _ _ hk
    refine hgroup _ (fun s hs => ?_) h
    obtain ⟨name, -, rfl⟩ := List.mem_map.1 hs
    exact nameKey?_eq_some hk
  · rename_i k _ _ hk
    refine hgroup _ (fun s hs => ?_) h
    obtain rfl := List.mem_singleton.1 hs
    exact idKey?_eq_some hk
  · simp at h

/-! ## Routes to values -/

/-- How values of a key that contain a typed text come to be offered after a text. -/
inductive ValueRoute (before key : Text) : Text → Prop
  /-- The key and its colon are there, and no value yet. -/
  | bareKey (ht : lastToken before = key ++ [chr ':'])
      (hc : Context.ofBefore before = .initial) : ValueRoute before key []
  /-- A part of a value is there. -/
  | partialValue {typed : Text} (ht : lastToken before = key ++ chr ':' :: typed)
      (hc : Context.ofBefore before
        = .value key typed (before.length - typed.length) before.length) :
      ValueRoute before key typed
  /-- A word is there, and the key is the only field that it can become. -/
  | onlyField (ht : lastToken before ≠ []) (hd : (definition? key).isSome)
      (hc : Context.ofBefore before = .key (lastToken before)
        (before.length - (lastToken before).length) before.length) :
      ValueRoute before key []

/-- A key without a value is the last token, one line break at the end of the text aside. -/
lemma bareKey?_eq_some : Engine.bareKey? before = some key ↔ keyAndRest? (lastToken
    (if before.getLast? = some (chr '\n') then before.dropLast else before)) = some (key, []) := by
  rw [Engine.bareKey?]
  split <;> simp_all

/-- A line break is a blank, so a text that does not end in one keeps its last line. -/
lemma bareKey?_eq_some_iff (h : endsBlank before = false) :
    Engine.bareKey? before = some key ↔ keyAndRest? (lastToken before) = some (key, []) := by
  have hline : before.getLast? ≠ some (chr '\n') := by
    intro hlast
    rw [endsBlank_of_getLast? hlast] at h
    exact absurd h (by decide)
  rw [bareKey?_eq_some, if_neg hline]

namespace Context

lemma ofBefore_of_bareKey (h : keyAndRest? (lastToken before) = some (key, [])) :
    ofBefore before = .initial := by
  simp [ofBefore, h]

lemma ofBefore_eq_value {start stop : Nat} (h : ofBefore before = .value key typed start stop) :
    keyAndRest? (lastToken before) = some (key, typed) ∧ typed ≠ [] ∧
      start = before.length - typed.length ∧ stop = before.length := by
  simp only [ofBefore] at h
  split at h
  · rename_i name rest hk
    split at h
    · simp at h
    · rename_i hready
      simp only [value.injEq] at h
      obtain ⟨rfl, rfl, rfl, rfl⟩ := h
      exact ⟨hk, fun hnil => hready (by simp [hnil]), rfl, rfl⟩
  · split at h
    · simp at h
    · split at h <;> simp at h

lemma ofBefore_eq_key {start stop : Nat} (h : ofBefore before = .key typed start stop) :
    typed = lastToken before ∧ typed ≠ [] ∧ start = before.length - typed.length ∧
      stop = before.length := by
  simp only [ofBefore] at h
  split at h
  · split at h <;> simp at h
  · split at h
    · simp at h
    · rename_i hne
      split at h
      · simp only [key.injEq] at h
        obtain ⟨rfl, rfl, rfl⟩ := h
        refine ⟨rfl, fun hnil => hne ?_, rfl, rfl⟩
        simp [hnil]
      · simp at h

end Context

/-- A word is offered values only if exactly one field can be meant. -/
lemma suggestWord_eq_values (h : e.suggestWord typed = some (.values key suggestions)) :
    (definition? key).isSome ∧ e.valueGroup? key [] = some (.values key suggestions) := by
  rw [Engine.suggestWord.eq_def] at h
  split at h
  · rename_i d hd
    have hmem : d ∈ matchingDefinitions _ := hd ▸ List.mem_singleton_self d
    obtain rfl := (valueGroup?_eq_some h).1
    exact ⟨isSome_definition? (List.mem_filter.1 hmem).1, h⟩
  · simp [Engine.keyGroup] at h

/-- **The routes to values.**  If the text before the cursor does not end in a blank, values are
offered on one of the three routes. -/
theorem valueRoute_of_suggestAfter? (hb : endsBlank before = false)
    (h : e.suggestAfter? before = some (.values key suggestions)) :
    ∃ typed, ValueRoute before key typed ∧
      e.valueGroup? key typed = some (.values key suggestions) := by
  rw [Engine.suggestAfter?] at h
  split at h
  · rename_i name hbare
    have hk := (bareKey?_eq_some_iff hb).1 hbare
    obtain rfl := (valueGroup?_eq_some h).1
    exact ⟨[], .bareKey (keyAndRest?_eq_some_iff.1 hk).1 (Context.ofBefore_of_bareKey hk), h⟩
  · split at h
    · simp [Engine.suggestWord, Engine.keyGroup] at h
    · rename_i word start stop hc
      obtain ⟨rfl, hne, rfl, rfl⟩ := Context.ofBefore_eq_key hc
      obtain ⟨hd, hg⟩ := suggestWord_eq_values h
      exact ⟨[], .onlyField hne hd hc, hg⟩
    · rename_i name typed start stop hc
      obtain ⟨hk, -, rfl, rfl⟩ := Context.ofBefore_eq_value hc
      obtain rfl := (valueGroup?_eq_some h).1
      exact ⟨typed, .partialValue (keyAndRest?_eq_some_iff.1 hk).1 hc, h⟩
    · simp at h

end LogSearch
