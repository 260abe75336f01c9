import LogSearch.Proofs.AcceptedNames

/-!
# Closed names

A name in double quotes may hold blanks, so its last token says little about it.  Completion finds a
closed name by going back from its last quote to the one before, but only if the last token does not
look like a key with a part of a value.

* `endsInClosedName_iff` — the texts that are found to end in a closed name.
* `HidesValue` — a name whose last word, after a blank, looks like a key with a value.
* `atCursor_closedName_iff` — behind a closed name a new token is expected, and a suggestion is
  appended, if and only if the name does not hide a value.
-/

namespace LogSearch

variable {a s t before back pre key name value word rest text : Text} {cursor : Option Int}

/-! ## Keys -/

lemma isKey_of_nameKey (h : (nameKey? key).isSome) : IsKey key :=
  ⟨(nameKey_spec h).1, (nameKey_spec h).2.1⟩

lemma startsBlank_reverse : startsBlank s.reverse ↔ s = [] ∨ endsBlank s := by
  rcases List.eq_nil_or_concat s with rfl | ⟨s', c, rfl⟩
  · simp [startsBlank]
  · simp [List.concat_eq_append, endsBlank_concat, startsBlank]

/-! ## Closed names at the end of a text -/

/-- Read backwards, a closed name is a quoted text, a colon and a run of word characters. -/
lemma closedNameKey?_eq_some_iff : closedNameKey? back = some key ↔
    ∃ name pre, back = quoted name ++ chr ':' :: (key.reverse ++ pre) ∧ startsBlank pre ∧
      IsKey key ∧
      name ≠ [] ∧ chr '"' ∉ name := by
  constructor
  · intro h
    rw [closedNameKey?.eq_def] at h
    split at h
    · rename_i back
      split at h
      · rename_i before hb
        simp only [Bool.and_eq_true, Bool.not_eq_true', List.isEmpty_eq_false_iff,
          Option.ite_none_right_eq_some, Option.some.injEq] at h
        obtain ⟨⟨⟨hname, hkey⟩, hpre⟩, rfl⟩ := h
        refine ⟨_, before.dropWhile isWord, ?_, hpre, ⟨?_, ?_⟩, hname, ?_⟩
        · rw [List.reverse_reverse, List.takeWhile_append_dropWhile, quoted, List.append_assoc]
          simp [← hb, List.takeWhile_append_dropWhile]
        · simpa using hkey
        · intro c hc
          exact List.mem_takeWhile_imp (List.mem_reverse.1 hc)
        · intro hm
          simpa using List.mem_takeWhile_imp hm
      · simp at h
    · simp at h
  · rintro ⟨name, pre, rfl, hpre, ⟨hne, hword⟩, hname, hq⟩
    obtain ⟨htake, hdrop⟩ := takeWhile_dropWhile_append (s := name)
      (t := chr '"' :: chr ':' :: (key.reverse ++ pre)) (p := (· ≠ chr '"'))
      (fun c hc => decide_eq_true fun e => hq (e ▸ hc)) (by simp)
    have hstop : ∀ c ∈ pre.head?, isWord c = false := by
      intro c hc
      obtain ⟨r, rfl⟩ := List.head?_eq_some_iff.1 hc
      exact isWord_eq_false_of_isBlank hpre
    obtain ⟨htake', hdrop'⟩ := takeWhile_dropWhile_append (s := key.reverse)
      (fun c hc => hword c (List.mem_reverse.1 hc)) hstop
    have hback : quoted name ++ chr ':' :: (key.reverse ++ pre)
        = chr '"' :: (name ++ chr '"' :: chr ':' :: (key.reverse ++ pre)) := by
      simp [quoted]
    rw [hback, closedNameKey?]
    simp only [htake, hdrop, htake', hdrop']
    simp [hname, hne, hpre]

/-- A text ends in `key:"name"`, with the key at the start of a token and no other quotes. -/
structure EndsInQuoted (before key name : Text) : Prop where
  isKey : IsKey key
  ne_nil : name ≠ []
  no_quote : chr '"' ∉ name
  append : ∃ pre, before = pre ++ Span.text ⟨key, quoted name⟩ ∧ (pre = [] ∨ endsBlank pre)

lemma getLast?_closedName (pre key name : Text) :
    (pre ++ Span.text ⟨key, quoted name⟩).getLast? = some (chr '"') := by
  have hsplit : pre ++ Span.text ⟨key, quoted name⟩
      = (pre ++ key ++ chr ':' :: chr '"' :: name) ++ [chr '"'] := by
    simp [Span.text, quoted]
  rw [hsplit]
  exact List.getLast?_concat ..

lemma endsInClosedName_iff : endsInClosedName before ↔
    ∃ key name, EndsInQuoted before key name ∧ (nameKey? key).isSome := by
  rw [endsInClosedName, Option.any_eq_true]
  constructor
  · rintro ⟨key, hk, hsome⟩
    obtain ⟨name, pre, hback, hpre, hkey, hne, hq⟩ := closedNameKey?_eq_some_iff.1 hk
    refine ⟨key, name.reverse, ⟨hkey, by simpa, by simpa, pre.reverse, ?_, ?_⟩, hsome⟩
    · rw [← List.reverse_reverse before, hback]
      simp [Span.text, quoted]
    · rw [← startsBlank_reverse, List.reverse_reverse]
      exact hpre
  · rintro ⟨key, name, ⟨hkey, hne, hq, pre, rfl, hpre⟩, hsome⟩
    refine ⟨key, closedNameKey?_eq_some_iff.2
      ⟨name.reverse, pre.reverse, ?_, startsBlank_reverse.2 hpre, hkey, by simpa, by simpa⟩, hsome⟩
    simp [Span.text, quoted]

lemma head?_quoted (s : Text) : (quoted s).head? = some (chr '"') :=
  rfl

lemma getLast?_quoted (s : Text) : (quoted s).getLast? = some (chr '"') :=
  List.getLast?_concat ..

lemma exists_choice_of_isChoice (h : isChoice key value) :
    ∃ d ∈ catalog, d.key = key ∧ ∃ c ∈ d.choices, c.value = value := by
  rw [isChoice, Option.any_eq_true] at h
  obtain ⟨d, hd, h⟩ := h
  obtain ⟨hmem, hkey⟩ := definition?_eq_some hd
  obtain ⟨c, hc, heq⟩ := List.any_eq_true.1 h
  exact ⟨d, hmem, hkey, c, hc, beq_iff_eq.1 heq⟩

/-- No enumerated value holds a quote. -/
lemma isChoice_eq_false (hv : chr '"' ∈ value) : isChoice key value = false := by
  by_contra h
  obtain ⟨d, hd, -, c, hc, rfl⟩ := exists_choice_of_isChoice (by simpa using h)
  exact (plain_choice hd hc).1.no_quote hv

/-- What starts and ends with a double quote, and not with the same one, is a quoted text. -/
lemma exists_eq_quoted (hlen : 2 < value.length) (hhead : value.head? = some (chr '"'))
    (hlast : value.getLast? = some (chr '"')) : ∃ name, name ≠ [] ∧ value = quoted name := by
  obtain ⟨rest, rfl⟩ := List.head?_eq_some_iff.1 hhead
  have hrest : rest ≠ [] := by
    rintro rfl
    simp at hlen
  rw [List.getLast?_cons_of_ne_nil hrest] at hlast
  obtain ⟨name, rfl⟩ := List.getLast?_eq_some_iff.1 hlast
  refine ⟨name, ?_, rfl⟩
  rintro rfl
  simp at hlen

/-- **Complete values** are the enumerated values of a field, and the names in quotes for a key of
names. -/
lemma cases_of_isComplete (h : isComplete key value) :
    (∃ d ∈ catalog, d.key = key ∧ ∃ c ∈ d.choices, c.value = value) ∨
      ((nameKey? key).isSome ∧ ∃ name, name ≠ [] ∧ value = quoted name) := by
  rw [isComplete, Bool.or_eq_true] at h
  refine h.imp exists_choice_of_isChoice fun h => ?_
  simp only [Bool.and_eq_true, decide_eq_true_eq, beq_iff_eq] at h
  exact ⟨h.1.1.1, exists_eq_quoted h.1.1.2 h.1.2 h.2⟩

/-- A quoted name is complete exactly for the keys of names. -/
lemma isComplete_quoted (hne : name ≠ []) :
    isComplete key (quoted name) = (nameKey? key).isSome := by
  have hlen : 2 < (quoted name).length := by
    have := List.length_pos_iff.2 hne
    simp [quoted]
    omega
  have hchoice : isChoice key (quoted name) = false := isChoice_eq_false (by simp [quoted])
  simp [isComplete, hchoice, hlen, head?_quoted, getLast?_quoted]

/-- What ends with its only quote is not complete. -/
lemma isComplete_concat_quote (hq : chr '"' ∉ rest) :
    isComplete key (rest ++ [chr '"']) = false := by
  rw [isComplete, isChoice_eq_false (by simp), Bool.false_or]
  cases rest with
  | nil => simp
  | cons c rest =>
      have hc : c ≠ chr '"' := fun e => hq (e ▸ List.mem_cons_self)
      simp [hc]

/-! ## What is typed behind a closed name -/

/-- A name that hides a value: its last word, after a blank, looks like a key with a value. -/
def HidesValue (name : Text) : Prop :=
  ∃ a word rest, name = a ++ word ++ chr ':' :: rest ∧ endsBlank a ∧ IsKey word ∧
    ∀ c ∈ rest, isBlank c = false

lemma hidesValue_iff : HidesValue name ↔
    endsBlank (beforeToken name) ∧ (keyAndRest? (lastToken name)).isSome := by
  have hname := beforeToken_append_lastToken name
  constructor
  · rintro ⟨a, word, rest, happ, ha, hword, hrest⟩
    rw [List.append_assoc] at happ
    have htoken : lastToken name = word ++ chr ':' :: rest := by
      rw [happ]
      exact lastToken_append (Or.inr ha) (isBlank_of_key_colon hword hrest)
    have hbefore : beforeToken name = a := by
      rw [htoken] at hname
      exact List.append_cancel_right (hname.trans happ)
    rw [hbefore, htoken, keyAndRest?_eq_some_iff.2 ⟨rfl, hword⟩]
    exact ⟨ha, rfl⟩
  · rintro ⟨hblank, hsome⟩
    obtain ⟨⟨word, rest⟩, hk⟩ := Option.isSome_iff_exists.1 hsome
    obtain ⟨happ, hword⟩ := keyAndRest?_eq_some_iff.1 hk
    refine ⟨beforeToken name, word, rest, ?_, hblank, hword, fun c hc => ?_⟩
    · rw [List.append_assoc, ← happ, hname]
    · refine isBlank_of_mem_lastToken (s := name) ?_
      simp [happ, hc]

instance (name : Text) : Decidable (HidesValue name) :=
  decidable_of_iff _ hidesValue_iff.symm

/-- A quote behind a token does not make it a key with a value. -/
lemma keyAndRest?_concat_quote (h : keyAndRest? s = none) :
    keyAndRest? (s ++ [chr '"']) = none := by
  by_contra hn
  obtain ⟨⟨word, rest⟩, hk⟩ := Option.ne_none_iff_exists'.1 hn
  obtain ⟨happ, hne, hword⟩ := keyAndRest?_eq_some_iff.1 hk
  rcases List.eq_nil_or_concat rest with rfl | ⟨rest', c, rfl⟩
  · have hlast := congrArg List.getLast? happ
    simp at hlast
  · rw [List.concat_eq_append, ← List.cons_append, ← List.append_assoc] at happ
    have hs := (List.append_inj' happ rfl).1
    rw [keyAndRest?_eq_some_iff.2 ⟨hs, hne, hword⟩] at h
    simp at h

/-- The last word of a name with blanks, together with the closing quote, is a token. -/
lemma lastToken_closedName (pre key : Text) (ha : endsBlank a)
    (ht : ∀ c ∈ t, isBlank c = false) :
    lastToken (pre ++ Span.text ⟨key, quoted (a ++ t)⟩) = t ++ [chr '"'] := by
  have hsplit : pre ++ Span.text ⟨key, quoted (a ++ t)⟩
      = (pre ++ key ++ [chr ':', chr '"'] ++ a) ++ (t ++ [chr '"']) := by
    simp [Span.text, quoted]
  have hne : a ≠ [] := by
    rintro rfl
    exact Bool.noConfusion ha
  rw [hsplit]
  refine lastToken_append (Or.inr ?_) ?_
  · rwa [endsBlank_append hne]
  · simp only [List.mem_append, List.mem_singleton]
    rintro c (hc | rfl)
    · exact ht c hc
    · decide

namespace Context

/-- Behind a closed name a new token is expected if the name hides no value. -/
lemma ofBefore_closedName (hpre : pre = [] ∨ endsBlank pre) (hk : (nameKey? key).isSome)
    (hne : name ≠ []) (hq : chr '"' ∉ name) (hh : ¬ HidesValue name) :
    ofBefore (pre ++ Span.text ⟨key, quoted name⟩) = .initial := by
  have hkey := isKey_of_nameKey hk
  have hname := beforeToken_append_lastToken name
  rcases beforeToken_eq_nil_or name with hnil | hblank
  · -- a name without blanks belongs to the last token, which is a key with a complete value
    rw [hnil, List.nil_append] at hname
    have hb : ∀ c ∈ quoted name, isBlank c = false := by
      intro c hc
      rw [← hname] at hc
      simp only [quoted, List.mem_append, List.mem_cons, List.not_mem_nil, or_false] at hc
      rcases hc with (rfl | hc) | rfl
      · decide
      · exact isBlank_of_mem_lastToken hc
      · decide
    have htoken : lastToken (pre ++ Span.text ⟨key, quoted name⟩) = key ++ chr ':' :: quoted name :=
      lastToken_append hpre (isBlank_of_key_colon hkey hb)
    simp [ofBefore, htoken, keyAndRest?_eq_some_iff.2 ⟨rfl, hkey⟩, isComplete_quoted hne, hk]
  · -- otherwise the last token is the last word of the name, with the quote
    have htoken := lastToken_closedName pre key hblank
      fun c hc => isBlank_of_mem_lastToken (s := name) hc
    rw [hname] at htoken
    have hnone : keyAndRest? (lastToken name) = none := by
      rw [hidesValue_iff] at hh
      simpa [hblank] using hh
    have hclosed : endsInClosedName (pre ++ Span.text ⟨key, quoted name⟩) :=
      endsInClosedName_iff.2 ⟨key, name, ⟨hkey, hne, hq, pre, rfl, hpre⟩, hk⟩
    simp [ofBefore, htoken, keyAndRest?_concat_quote hnone, hclosed]

/-- If the name hides a value, that value is being typed, together with the closing quote. -/
lemma ofBefore_hidden (ha : endsBlank a) (hword : IsKey word)
    (hrest : ∀ c ∈ rest, isBlank c = false) (hq : chr '"' ∉ rest)
    (hbefore : before = pre ++ Span.text ⟨key, quoted (a ++ (word ++ chr ':' :: rest))⟩) :
    ofBefore before
      = .value word (rest ++ [chr '"']) (before.length - (rest ++ [chr '"']).length)
          before.length := by
  have htoken : lastToken before = word ++ chr ':' :: (rest ++ [chr '"']) := by
    rw [hbefore, lastToken_closedName pre key ha (isBlank_of_key_colon hword hrest),
      List.append_assoc, List.cons_append]
  simp [ofBefore, htoken, keyAndRest?_eq_some_iff.2 ⟨rfl, hword⟩, isComplete_concat_quote hq]

end Context

/-- A suggestion that is accepted for a hidden value takes its place and that of the quote. -/
lemma preview_hidden (ha : endsBlank a) (hword : IsKey word)
    (hrest : ∀ c ∈ rest, isBlank c = false) (hq : chr '"' ∉ rest)
    (hb : beforeCursor text cursor
      = pre ++ Span.text ⟨key, quoted (a ++ (word ++ chr ':' :: rest))⟩) (o : Suggestion) :
    preview o text cursor
      = pre ++ key ++ chr ':' :: chr '"' :: a ++ word ++ chr ':' :: o.value
          ++ afterCursor text cursor := by
  have hc := Context.ofBefore_hidden ha hword hrest hq hb
  have hsplit : (pre ++ key ++ chr ':' :: chr '"' :: a ++ word ++ [chr ':']) ++ (rest ++ [chr '"'])
      = beforeCursor text cursor := by
    rw [hb]
    simp [Span.text, quoted]
  have htake := take_of_append_eq_beforeCursor hsplit
  have htoken : lastToken (beforeCursor text cursor) ≠ [] := by
    obtain ⟨happ, -⟩ := keyAndRest?_eq_some_iff.1 (Context.ofBefore_eq_value hc).1
    simp [happ]
  rw [preview_eq (isBlankText_eq_false htoken), hc]
  simp only [htake, drop_length_beforeCursor]
  simp

/-- **Behind a closed name.**  Let the text before the cursor end in a closed name of a workflow or
a folder, whose key starts a token.  A new token is expected there, and accepting a suggestion
appends it after a space, if and only if the name hides no value. -/
theorem atCursor_closedName_iff (pre key name text : Text) (cursor : Option Int)
    (hpre : pre = [] ∨ endsBlank pre) (hk : (nameKey? key).isSome) (hne : name ≠ [])
    (hq : chr '"' ∉ name) (hb : beforeCursor text cursor = pre ++ Span.text ⟨key, quoted name⟩) :
    (Context.atCursor text cursor = .initial ↔ ¬ HidesValue name) ∧
      ∀ o : Suggestion, preview o text cursor
          = beforeCursor text cursor ++ chr ' ' :: o.value ++ afterCursor text cursor ↔
        ¬ HidesValue name := by
  have hat : Context.atCursor text cursor = Context.ofBefore (beforeCursor text cursor) := rfl
  by_cases hh : HidesValue name
  · obtain ⟨a, word, rest, rfl, ha, hword, hrest⟩ := id hh
    rw [List.append_assoc] at hb hq
    have hqr : chr '"' ∉ rest := fun hm => hq (by simp [hm])
    refine ⟨iff_of_false ?_ (not_not_intro hh), fun o => iff_of_false ?_ (not_not_intro hh)⟩
    · rw [hat, Context.ofBefore_hidden ha hword hrest hqr hb]
      simp
    · -- the two texts differ in length by the hidden value, the quote and the space
      intro heq
      have hlen := congrArg List.length heq
      rw [preview_hidden ha hword hrest hqr hb, hb] at hlen
      simp [Span.text, quoted] at hlen
      omega
  · have hc := Context.ofBefore_closedName hpre hk hne hq hh
    rw [← hb] at hc
    have hlast : (beforeCursor text cursor).getLast? = some (chr '"') := by
      rw [hb, getLast?_closedName]
    have hsep : separator (beforeCursor text cursor) = [chr ' '] := by
      rw [separator, hlast]
      decide
    have htoken := lastToken_ne_nil_of_getLast? hlast (by decide)
    refine ⟨iff_of_true (hat.trans hc) hh, fun o => iff_of_true ?_ hh⟩
    rw [preview_eq (isBlankText_eq_false htoken), hc]
    simp only [hsep]
    simp

/-- A name with a colon, an operator and a key in it, in the middle of a text.  Its last word is no
key with a value. -/
theorem atCursor_closedName_nightly :
    let pre := "level:error ".text
    let name := "Nightly: level:>= 3 runs".text
    let closed := pre ++ Span.text ⟨"workflow".text, quoted name⟩
    let text := closed ++ " timeout".text
    let cursor : Option Int := some 47
    (pre = [] ∨ endsBlank pre) ∧ (nameKey? "workflow".text).isSome ∧ name ≠ [] ∧ chr '"' ∉ name ∧
      beforeCursor text cursor = closed ∧ ¬ HidesValue name ∧
      Context.atCursor text cursor = .initial ∧
      ∀ o : Suggestion, preview o text cursor
        = closed ++ chr ' ' :: o.value ++ afterCursor text cursor := by
  intro pre name closed text cursor
  have hpre : pre = [] ∨ endsBlank pre := by decide +kernel
  have hk : (nameKey? "workflow".text).isSome := by decide +kernel
  have hne : name ≠ [] := by decide +kernel
  have hq : chr '"' ∉ name := by decide +kernel
  have hb : beforeCursor text cursor = closed := by decide +kernel
  have hh : ¬ HidesValue name := by decide +kernel
  obtain ⟨hinitial, hpreview⟩ :=
    atCursor_closedName_iff pre "workflow".text name text cursor hpre hk hne hq hb
  refine ⟨hpre, hk, hne, hq, hb, hh, hinitial.2 hh, fun o => ?_⟩
  rw [(hpreview o).2 hh, hb]

/-- **A closed name that is not recognised.**  The last word of the name is taken for a level that
is being typed, and a suggestion that is accepted there cuts the name. -/
theorem atCursor_closedName_level :
    let text := "workflow:\"Sync level:error\"".text
    let o := Suggestion.ofKey "trigger".text "Trigger".text "Filter by trigger type".text
    text = Span.text ⟨"workflow".text, quoted "Sync level:error".text⟩ ∧
      Context.atCursor text none = .value "level".text "error\"".text 21 27 ∧
      Context.atCursor text none ≠ .initial ∧
      preview o text none = "workflow:\"Sync level:trigger:".text ∧
      ¬ text <+: preview o text none := by
  decide +kernel

end LogSearch
