import LogSearch.Proofs.Acceptance

/-!
# The span that a preview edits

Accepting a suggestion replaces what is being typed at the cursor and touches nothing else.  The
context counts places in the text from its start, whereas the token is found from the cursor
backwards; both speak of the same span.

* `Typed` — a token between two places of a text.
* `Context.Edits` — the span that a context stands for: in a key or a value that token, set off from
  the text before it, and otherwise nothing.
* `Context.edits_atCursor` — the context at a cursor has such a span, which ends at the cursor.
* `preview_edits` — a preview is the text with that span replaced by something that ends in the
  suggested value.
-/

namespace LogSearch

variable {text typed front : Text} {cursor : Option Int} {s : Suggestion} {start stop : Nat}

/-! ## Spans -/

/-- What is typed between two places of a text: not nothing, and no blanks. -/
structure Typed (text : Text) (start stop : Nat) (typed : Text) : Prop where
  eq : (text.take stop).drop start = typed
  ne_nil : typed ≠ []
  not_blank : ∀ c ∈ typed, isBlank c = false

/-- The span of a text that a context is about.  A key stands at the start or after a blank; a value
stands behind a key, which does, and a colon; elsewhere the span is empty. -/
def Context.Edits (text : Text) (a b : Nat) : Context → Prop
  | .key typed start stop => start = a ∧ stop = b ∧ Typed text a b typed ∧
      (text.take a = [] ∨ endsBlank (text.take a))
  | .value name typed start stop => start = a ∧ stop = b ∧ Typed text a b typed ∧
      ∃ front, text.take a = front ++ name ++ [chr ':'] ∧ (front = [] ∨ endsBlank front) ∧
        IsKey name
  | .initial | .free => a = b

lemma clampCursor_le (length : Nat) (cursor : Option Int) : clampCursor length cursor ≤ length := by
  cases cursor with
  | none => exact Nat.le_refl _
  | some i => exact Nat.min_le_right _ _

lemma length_beforeCursor (text : Text) (cursor : Option Int) :
    (beforeCursor text cursor).length = clampCursor text.length cursor :=
  List.length_take_of_le (clampCursor_le _ _)

/-- A token at the end of the text before the cursor is found by counting back from the cursor. -/
lemma typed_of_append (h : front ++ typed = beforeCursor text cursor) (hne : typed ≠ [])
    (hblank : ∀ c ∈ typed, isBlank c = false) :
    text.take (clampCursor text.length cursor - typed.length) = front ∧
      Typed text (clampCursor text.length cursor - typed.length) (clampCursor text.length cursor)
        typed := by
  have hfront := take_of_append_eq_beforeCursor h
  rw [length_beforeCursor] at hfront
  refine ⟨hfront, ?_, hne, hblank⟩
  have hlength : clampCursor text.length cursor - typed.length = front.length := by
    rw [← length_beforeCursor, ← h, List.length_append, Nat.add_sub_cancel]
  rw [hlength, ← beforeCursor, ← h, List.drop_left]

namespace Context

/-- **The context at a cursor is about a span that ends there.** -/
theorem edits_atCursor (text : Text) (cursor : Option Int) :
    ∃ a ≤ clampCursor text.length cursor,
      (atCursor text cursor).Edits text a (clampCursor text.length cursor) := by
  have hlength := length_beforeCursor text cursor
  have htoken := beforeToken_append_lastToken (beforeCursor text cursor)
  have hapart := beforeToken_eq_nil_or (beforeCursor text cursor)
  have hblank : ∀ c ∈ lastToken (beforeCursor text cursor), isBlank c = false :=
    fun c hc => isBlank_of_mem_lastToken hc
  rw [atCursor, ← beforeCursor]
  cases hc : ofBefore (beforeCursor text cursor) with
  | initial => exact ⟨_, Nat.le_refl _, rfl⟩
  | free => exact ⟨_, Nat.le_refl _, rfl⟩
  | key typed start stop =>
      obtain ⟨rfl, hne, rfl, rfl⟩ := ofBefore_eq_key hc
      obtain ⟨hfront, htyped⟩ := typed_of_append htoken hne hblank
      rw [hlength]
      exact ⟨_, Nat.sub_le _ _, rfl, rfl, htyped, by rwa [hfront]⟩
  | value key typed start stop =>
      obtain ⟨hkey, hne, rfl, rfl⟩ := ofBefore_eq_value hc
      obtain ⟨heq, hkey⟩ := keyAndRest?_eq_some_iff.1 hkey
      rw [heq] at htoken hblank
      have hsplit : beforeToken (beforeCursor text cursor) ++ key ++ [chr ':'] ++ typed
          = beforeCursor text cursor := by
        simpa using htoken
      obtain ⟨hfront, htyped⟩ := typed_of_append hsplit hne fun c hc => hblank c (by simp [hc])
      rw [hlength]
      exact ⟨_, Nat.sub_le _ _, rfl, rfl, htyped, _, hfront, hapart, hkey⟩

end Context

/-! ## Previews -/

/-- What stands in place of a word is the suggested value, perhaps behind its category. -/
lemma Suggestion.inPlaceOfWord_eq (s : Suggestion) :
    ∃ front, s.inPlaceOfWord = front ++ s.value ∧
      (front = [] ∨ front = s.category ++ [chr ':']) := by
  rw [inPlaceOfWord]
  split
  · exact ⟨s.category ++ [chr ':'], by simp, Or.inr rfl⟩
  · exact ⟨[], rfl, Or.inl rfl⟩

/-- A preview replaces the span that the context at the cursor is about by the suggested value.  In
front of the value there may be a space or its category. -/
lemma preview_of_edits (h : isBlankText text = false) {a : Nat}
    (hspan : (Context.atCursor text cursor).Edits text a (clampCursor text.length cursor)) :
    ∃ front, preview s text cursor
        = text.take a ++ (front ++ s.value) ++ text.drop (clampCursor text.length cursor) ∧
      (front = [] ∨ front = [chr ' '] ∨ front = s.category ++ [chr ':']) := by
  rw [Context.atCursor, ← beforeCursor] at hspan
  rw [preview_eq h]
  cases hc : Context.ofBefore (beforeCursor text cursor) with
  | key typed start stop =>
      rw [hc] at hspan
      obtain ⟨rfl, rfl, -, -⟩ := hspan
      obtain ⟨front, hfront, hkinds⟩ := s.inPlaceOfWord_eq
      exact ⟨front, by rw [← hfront], hkinds.imp_right Or.inr⟩
  | value key typed start stop =>
      rw [hc] at hspan
      obtain ⟨rfl, rfl, -, -⟩ := hspan
      exact ⟨[], rfl, Or.inl rfl⟩
  | initial | free =>
      rw [hc] at hspan
      obtain rfl : a = clampCursor text.length cursor := hspan
      refine ⟨separator (beforeCursor text cursor), ?_, ?_⟩
      · simp [beforeCursor, afterCursor]
      · rw [separator]
        split
        · exact Or.inl rfl
        · split
          · exact Or.inl rfl
          · exact Or.inr (Or.inl rfl)

/-- **A preview edits only the span being typed.**  Take any suggestion, any text that is not blank
and any cursor, which is moved into the text.  The preview is the text with a span replaced that
ends at the cursor, and what replaces it ends in the suggested value.  The span is the one that the
context at the cursor is about: while a key or a value is being typed, all of what was typed, and
nothing otherwise. -/
theorem preview_edits (h : isBlankText text = false) (s : Suggestion) (cursor : Option Int) :
    ∃ a x, a ≤ clampCursor text.length cursor ∧
      preview s text cursor = text.take a ++ x ++ text.drop (clampCursor text.length cursor) ∧
      s.value <:+ x ∧
      (Context.atCursor text cursor).Edits text a (clampCursor text.length cursor) := by
  obtain ⟨a, hle, hspan⟩ := Context.edits_atCursor text cursor
  obtain ⟨front, hpreview, -⟩ := preview_of_edits (s := s) h hspan
  exact ⟨a, front ++ s.value, hle, hpreview, List.suffix_append _ _, hspan⟩

/-- A status in the middle of a word, behind a word that is not ASCII: the two letters before the
cursor are replaced, and those after it stay. -/
theorem preview_edits_mid_word :
    let text := "größe level:errx".text
    let s : Suggestion := ⟨"level-error".text, "error".text, "Error".text, none,
      "level".text⟩
    isBlankText text = false ∧
      Context.atCursor text (some 14) = .value "level".text "er".text 12 14 ∧
      Typed text 12 14 "er".text ∧
      (∃ x, preview s text (some 14) = text.take 12 ++ x ++ text.drop 14 ∧ s.value <:+ x) ∧
      preview s text (some 14) = "größe level:errorrx".text := by
  intro text s
  have hblank : isBlankText text = false := by decide +kernel
  have hcontext : Context.atCursor text (some 14) = .value "level".text "er".text 12 14 := by
    decide +kernel
  obtain ⟨a, x, -, hpreview, hsuffix, hspan⟩ := preview_edits hblank s (some 14)
  rw [hcontext] at hspan
  obtain ⟨rfl, -, htyped, -⟩ := hspan
  exact ⟨hblank, hcontext, htyped, ⟨x, hpreview, hsuffix⟩, by decide +kernel⟩

end LogSearch
