import LogSearch.Proofs.EditedSpan
import LogSearch.Proofs.Encoding

/-!
# Surrogates in completion

What completion offers is made of its tables, of the names that it holds and of what is typed at the
cursor.  So a surrogate in an offer comes from a name or from the query.  A preview also repeats
what stands outside the span that is edited, which an offer does not.

* `Engine.isEncodable_of_suggest?`, `Context.isEncodable_atCursor` — for a well-formed query an
  engine with well-formed names offers nothing but well-formed texts.
* `isWellFormed_preview_iff` — a preview of what could be offered is well-formed if and only if the
  query is.
-/

namespace LogSearch

variable {e : Engine} {before text key typed : Text} {cursor : Option Int} {g : Group}

/-! ## Candidates -/

lemma isWellFormed_catalog : ∀ d ∈ catalog, (isWellFormed d.key ∧ isWellFormed d.label ∧
    isWellFormed d.description) ∧ ∀ c ∈ d.choices, isWellFormed c.value ∧ isWellFormed c.label ∧
      isWellFormed c.description := by
  simp [catalog, levelDefinition, triggerDefinition, costDefinition, dateDefinition,
    durationDefinition, choice]

lemma isWellFormed_keyInfo : ∀ k ∈ nameKeys ++ idKeys,
    isWellFormed k.key ∧ isWellFormed k.label ∧ isWellFormed (lower k.label) ∧
      isWellFormed k.description := by
  decide

namespace Suggestion

lemma isEncodable_ofKey {key label description : Text} (hkey : isWellFormed key)
    (hlabel : isWellFormed label) (hdescription : isWellFormed description) :
    (ofKey key label description).toJson.isEncodable := by
  simp [isEncodable_toJson_iff, texts, ofKey, keyCategory, CodePoint.isSurrogate, *]

lemma isEncodable_ofChoice {c : Choice} (hkey : isWellFormed key)
    (h : isWellFormed c.value ∧ isWellFormed c.label ∧ isWellFormed c.description) :
    (ofChoice key c).toJson.isEncodable := by
  simp [isEncodable_toJson_iff, texts, ofChoice, valueId, CodePoint.isSurrogate, *]

lemma isEncodable_ofName {k : KeyInfo} {name : Text} (hk : k ∈ nameKeys ++ idKeys)
    (hname : isWellFormed name) : (ofName k name).toJson.isEncodable := by
  obtain ⟨hkey, hlabel, -, -⟩ := isWellFormed_keyInfo k hk
  simp [isEncodable_toJson_iff, texts, ofName, valueId, quoted, CodePoint.isSurrogate, *]

lemma isEncodable_idHint {k : KeyInfo} (hk : k ∈ nameKeys ++ idKeys)
    (htyped : isWellFormed typed) : (idHint k typed).toJson.isEncodable := by
  obtain ⟨hkey, -, hlabel, -⟩ := isWellFormed_keyInfo k hk
  simp [isEncodable_toJson_iff, texts, idHint, valueId, CodePoint.isSurrogate, *]

end Suggestion

/-! ## Groups -/

namespace Engine

/-- Keys are offered from tables. -/
lemma isEncodable_keyGroup (e : Engine) (typed : Text) : (e.keyGroup typed).toJson.isEncodable := by
  have hinfo : ∀ k ∈ nameKeys ++ idKeys,
      (Suggestion.ofKey k.key k.label k.description).toJson.isEncodable := by
    intro k hk
    obtain ⟨hkey, hlabel, -, hdescription⟩ := isWellFormed_keyInfo k hk
    exact Suggestion.isEncodable_ofKey hkey hlabel hdescription
  rw [keyGroup, Group.isEncodable_keys_iff]
  intro x hx
  simp only [List.mem_append, List.mem_map, List.mem_filter] at hx
  rcases hx with (⟨d, hd, rfl⟩ | ⟨k, ⟨hk, -⟩, rfl⟩) | ⟨k, ⟨hk, -⟩, rfl⟩
  · obtain ⟨hkey, hlabel, hdescription⟩ := (isWellFormed_catalog d (List.mem_filter.1 hd).1).1
    exact Suggestion.isEncodable_ofKey hkey hlabel hdescription
  · exact hinfo k (List.mem_append_left _ hk)
  · exact hinfo k (List.mem_append_right _ hk)

/-- Values are offered from tables, from the names that are held, or as they are typed. -/
lemma isEncodable_of_valueGroup? (he : e.IsWellFormed) (htyped : isWellFormed typed)
    (h : e.valueGroup? key typed = some g) : g.toJson.isEncodable := by
  rw [valueGroup?] at h
  split at h
  · rename_i d hd
    obtain ⟨hmem, rfl⟩ := definition?_eq_some hd
    obtain ⟨⟨hkey, -, -⟩, hchoices⟩ := isWellFormed_catalog d hmem
    obtain rfl := Option.some.inj h
    refine Group.isEncodable_values_iff.2 ⟨hkey, fun x hx => ?_⟩
    obtain ⟨c, hc, rfl⟩ := mem_choiceSuggestions hx
    exact Suggestion.isEncodable_ofChoice hkey (hchoices c hc)
  · rename_i k _ hk
    have hmem : k ∈ nameKeys ++ idKeys := List.mem_append_left _ (List.mem_of_find?_eq_some hk)
    obtain rfl := nameKey?_eq_some hk
    obtain rfl := Option.some.inj h
    refine Group.isEncodable_values_iff.2 ⟨(isWellFormed_keyInfo k hmem).1, fun x hx => ?_⟩
    obtain ⟨name, hname, rfl⟩ := List.mem_map.1 hx
    refine Suggestion.isEncodable_ofName hmem (he name ?_)
    have hheld : name ∈ e.names k.key := (List.mem_filter.1 (List.mem_of_mem_take hname)).1
    rw [names] at hheld
    split at hheld <;> simp [hheld]
  · rename_i k _ _ hk
    have hmem : k ∈ nameKeys ++ idKeys := List.mem_append_right _ (List.mem_of_find?_eq_some hk)
    obtain rfl := idKey?_eq_some hk
    obtain rfl := Option.some.inj h
    refine Group.isEncodable_values_iff.2 ⟨(isWellFormed_keyInfo k hmem).1, fun x hx => ?_⟩
    obtain rfl := List.mem_singleton.1 hx
    exact Suggestion.isEncodable_idHint hmem htyped
  · simp at h

lemma isEncodable_of_suggestWord (he : e.IsWellFormed) (h : e.suggestWord typed = some g) :
    g.toJson.isEncodable := by
  rw [suggestWord.eq_def] at h
  split at h
  · exact isEncodable_of_valueGroup? he isWellFormed_nil h
  · obtain rfl := Option.some.inj h
    exact isEncodable_keyGroup _ _

end Engine

/-! ## Contexts -/

/-- What a context repeats stands in the text. -/
lemma Context.infix_of_mem_texts {t : Text} (h : t ∈ (ofBefore before).texts) :
    t <:+: before := by
  have htoken : lastToken before <:+: before :=
    List.IsSuffix.isInfix ⟨_, beforeToken_append_lastToken before⟩
  refine List.IsInfix.trans ?_ htoken
  cases hc : ofBefore before with
  | initial | free => simp [hc, texts] at h
  | key typed start stop =>
      obtain ⟨rfl, -⟩ := ofBefore_eq_key hc
      obtain rfl : t = lastToken before := by simpa [hc, texts] using h
      exact List.infix_refl _
  | value name typed start stop =>
      obtain ⟨hkey, -⟩ := ofBefore_eq_value hc
      obtain ⟨htoken, -⟩ := keyAndRest?_eq_some_iff.1 hkey
      rw [htoken]
      obtain rfl | rfl : t = name ∨ t = typed := by simpa [hc, texts] using h
      · exact (List.prefix_append _ _).isInfix
      · exact List.IsSuffix.isInfix ⟨name ++ [chr ':'], by simp⟩

lemma isWellFormed_beforeCursor (h : isWellFormed text) : isWellFormed (beforeCursor text cursor) :=
  isWellFormed_of_infix (List.take_prefix _ _).isInfix h

/-- The context at a cursor in a well-formed text can be encoded. -/
lemma Context.isEncodable_atCursor (h : isWellFormed text) :
    (atCursor text cursor).toJson.isEncodable :=
  isEncodable_toJson_iff.2 fun _ ht =>
    isWellFormed_of_infix (infix_of_mem_texts ht) (isWellFormed_beforeCursor h)

/-- Well-formed names and a well-formed text make for a group that can be encoded. -/
lemma Engine.isEncodable_of_suggest? (he : e.IsWellFormed) (htext : isWellFormed text)
    (h : e.suggest? text cursor = some g) : g.toJson.isEncodable := by
  rw [suggest?, suggestAfter?] at h
  split at h
  · exact isEncodable_of_valueGroup? he isWellFormed_nil h
  · split at h
    · exact isEncodable_of_suggestWord he h
    · exact isEncodable_of_suggestWord he h
    · rename_i key typed start stop hc
      refine isEncodable_of_valueGroup? he ?_ h
      have hmem : typed ∈ (Context.ofBefore (beforeCursor text cursor)).texts := by
        rw [beforeCursor, hc, Context.texts]
        simp
      exact isWellFormed_of_infix (Context.infix_of_mem_texts hmem)
        (isWellFormed_beforeCursor htext)
    · simp at h

/-! ## Previews -/

lemma isWellFormed_of_isBlankText (h : isBlankText text) : isWellFormed text :=
  List.all_eq_true.2 fun c hc => by rw [isSurrogate_of_isBlank (List.all_eq_true.1 h c hc)]; rfl

/-- A text is well-formed if it is outside a span that a well-formed context is about. -/
lemma isWellFormed_iff_of_edits {a b : Nat} (hab : a ≤ b) {c : Context}
    (hc : c.toJson.isEncodable) (hspan : c.Edits text a b) :
    isWellFormed text ↔ isWellFormed (text.take a) ∧ isWellFormed (text.drop b) := by
  have hsplit : text = text.take a ++ (text.take b).drop a ++ text.drop b := by
    have htake : (text.take b).take a = text.take a := by rw [List.take_take, min_eq_left hab]
    rw [← htake, List.take_append_drop, List.take_append_drop]
  have hinner : isWellFormed ((text.take b).drop a) := by
    have htexts := Context.isEncodable_toJson_iff.1 hc
    cases c with
    | initial | free =>
        obtain rfl : a = b := hspan
        simp
    | key typed start stop | value name typed start stop =>
        obtain ⟨-, -, htyped, -⟩ := hspan
        rw [htyped.eq]
        exact htexts typed (by simp [Context.texts])
  conv_lhs => rw [hsplit]
  simp [hinner]

/-- **A preview is well-formed if and only if the query is**, for a suggestion and a context that
can be encoded. -/
theorem isWellFormed_preview_iff {x : Suggestion} (hx : x.toJson.isEncodable)
    (hcontext : (Context.atCursor text cursor).toJson.isEncodable) :
    isWellFormed (preview x text cursor) ↔ isWellFormed text := by
  have htexts := Suggestion.isEncodable_toJson_iff.1 hx
  have hvalue : isWellFormed x.value := htexts _ (by simp [Suggestion.texts])
  have hcategory : isWellFormed x.category := htexts _ (by simp [Suggestion.texts])
  by_cases hblank : isBlankText text
  · simp [preview, hblank, hvalue, isWellFormed_of_isBlankText]
  · rw [Bool.not_eq_true] at hblank
    obtain ⟨a, hle, hspan⟩ := Context.edits_atCursor text cursor
    obtain ⟨front, hpreview, hfront⟩ := preview_of_edits (s := x) hblank hspan
    have hwell : isWellFormed front := by
      rcases hfront with rfl | rfl | rfl <;> simp [hcategory, CodePoint.isSurrogate]
    rw [hpreview, isWellFormed_iff_of_edits hle hcontext hspan]
    simp [hwell, hvalue]

end LogSearch
