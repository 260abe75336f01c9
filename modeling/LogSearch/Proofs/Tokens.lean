import LogSearch.Completion.Finished
import LogSearch.Proofs.Values
import Mathlib.Data.List.DropRight

/-!
# The last token of a text

Completion looks at the text before the cursor from its end: at the characters since the last blank.

* `beforeToken` — the text before that token, which is empty or ends in a blank.
* `lastToken_append` — the converse: what follows a blank and holds none is the last token.
* `getLast?_words_eq_some_iff` — the last word is the last token, the blanks at the end aside.
* `IsKey` — the runs of word characters, which are the keys and the bare words.
* `keyAndRest?_eq_some_iff` — the tokens that are a key, a colon and anything.
-/

namespace LogSearch

variable {s t token key rest : Text} {c : CodePoint}

/-- The text before its last token. -/
def beforeToken (s : Text) : Text :=
  s.rdropWhile (!isBlank ·)

lemma beforeToken_append_lastToken (s : Text) : beforeToken s ++ lastToken s = s :=
  List.rdropWhile_append_rtakeWhile

lemma isBlank_of_mem_lastToken (h : c ∈ lastToken s) : isBlank c = false := by
  have hc := List.mem_rtakeWhile_imp (p := (!isBlank ·)) (l := s) h
  simpa using hc

/-- A token is set off by a blank. -/
lemma beforeToken_eq_nil_or (s : Text) : beforeToken s = [] ∨ endsBlank (beforeToken s) := by
  by_cases h : beforeToken s = []
  · exact Or.inl h
  · have hlast : isBlank ((beforeToken s).getLast h) := by
      simpa [beforeToken] using List.rdropWhile_last_not (!isBlank ·) s h
    refine Or.inr ?_
    rw [endsBlank, List.getLast?_eq_some_getLast h]
    exact hlast

lemma lastToken_append (hs : s = [] ∨ endsBlank s) (ht : ∀ c ∈ t, isBlank c = false) :
    lastToken (s ++ t) = t := by
  have hback : ∀ c ∈ t.reverse, !isBlank c := by
    intro c hc
    simp [ht c (List.mem_reverse.1 hc)]
  have hstop : ∀ c ∈ s.reverse.head?, (!isBlank c) = false := by
    rcases hs with rfl | hs
    · simp
    · rw [endsBlank, Option.any_eq_true] at hs
      obtain ⟨d, hd, hb⟩ := hs
      simp [List.head?_reverse, hd, hb]
  obtain ⟨htake, -⟩ := takeWhile_dropWhile_append hback hstop
  rw [lastToken, List.reverse_append, htake, List.reverse_reverse]

/-- Only a blank at its end, or that there is nothing at all, leaves a text without a last token. -/
lemma lastToken_eq_nil_iff : lastToken s = [] ↔ s = [] ∨ endsBlank s := by
  constructor
  · intro h
    have hs := beforeToken_append_lastToken s
    rw [h, List.append_nil] at hs
    rw [← hs]
    exact beforeToken_eq_nil_or s
  · intro h
    have hs := lastToken_append (t := []) h (by simp)
    rwa [List.append_nil] at hs

lemma lastToken_ne_nil_of_getLast? (h : s.getLast? = some c) (hc : isBlank c = false) :
    lastToken s ≠ [] := by
  intro hnil
  rcases lastToken_eq_nil_iff.1 hnil with rfl | hblank
  · simp at h
  · rw [endsBlank_of_getLast? h, hc] at hblank
    exact Bool.noConfusion hblank

/-- A text that does not end in a blank has none to drop at its end. -/
lemma dropBlanks_of_endsBlank_eq_false (h : endsBlank s = false) :
    (s.reverse.dropWhile isBlank).reverse = s := by
  refine List.rdropWhile_eq_self_iff.2 fun hne => ?_
  rw [endsBlank, List.getLast?_eq_some_getLast hne, Option.any_some] at h
  simp [h]

/-! ## The last word -/

/-- The last token of a text is its last word. -/
lemma words_eq_concat_lastToken (h : lastToken s ≠ []) :
    words s = words (beforeToken s) ++ [lastToken s] := by
  have hapart : Apart (beforeToken s) (lastToken s) := (beforeToken_eq_nil_or s).imp_right Or.inl
  have hwords := words_append hapart
  rwa [beforeToken_append_lastToken,
    words_of_forall h fun c hc => isBlank_of_mem_lastToken hc] at hwords

lemma isBlank_of_mem_rtakeWhile : ∀ c ∈ s.rtakeWhile isBlank, isBlank c :=
  fun _ hc => List.mem_rtakeWhile_imp hc

lemma endsBlank_rdropWhile (s : Text) : endsBlank (s.rdropWhile isBlank) = false := by
  by_cases h : s.rdropWhile isBlank = []
  · rw [h]
    rfl
  · have hlast := List.rdropWhile_last_not isBlank s h
    rw [endsBlank, List.getLast?_eq_some_getLast h]
    simpa using hlast

/-- The blanks at the end of a text belong to no word. -/
lemma words_rdropWhile (s : Text) : words (s.rdropWhile isBlank) = words s := by
  have happ := List.rdropWhile_append_rtakeWhile (p := isBlank) (l := s)
  have hnone := words_of_forall_isBlank (isBlank_of_mem_rtakeWhile (s := s))
  by_cases hw : s.rtakeWhile isBlank = []
  · rw [hw, List.append_nil] at happ
    rw [happ]
  · obtain ⟨hapart, -⟩ := apart_of_forall_isBlank hw isBlank_of_mem_rtakeWhile
      (s.rdropWhile isBlank) []
    rw [List.append_nil] at hapart
    nth_rewrite 2 [← happ]
    rw [words_append hapart, hnone, List.append_nil]

lemma getLast?_words_eq_some_iff (ht : t ≠ []) :
    (words s).getLast? = some t ↔ lastToken (s.rdropWhile isBlank) = t := by
  rw [← words_rdropWhile]
  by_cases h : lastToken (s.rdropWhile isBlank) = []
  · have hnil : s.rdropWhile isBlank = [] := by
      refine (lastToken_eq_nil_iff.1 h).resolve_right ?_
      simp [endsBlank_rdropWhile]
    rw [h, hnil]
    simp [words, ht.symm]
  · rw [words_eq_concat_lastToken h, List.getLast?_concat, Option.some.injEq]

/-! ## Keys -/

/-- A run of word characters, as keys are. -/
def IsKey (key : Text) : Prop :=
  key ≠ [] ∧ ∀ c ∈ key, isWord c

lemma isBareWord_iff : isBareWord token ↔ IsKey token := by
  simp [isBareWord, IsKey]

lemma keyAndRest?_eq_some_iff : keyAndRest? token = some (key, rest) ↔
    token = key ++ chr ':' :: rest ∧ IsKey key := by
  constructor
  · intro h
    rw [keyAndRest?] at h
    simp only [List.isEmpty_iff] at h
    split at h
    · simp at h
    · rename_i hk
      split at h
      · rename_i r hr
        simp only [Option.some.injEq, Prod.mk.injEq] at h
        obtain ⟨rfl, rfl⟩ := h
        refine ⟨?_, hk, fun c hc => List.mem_takeWhile_imp hc⟩
        rw [← hr, List.takeWhile_append_dropWhile]
      · simp at h
  · rintro ⟨rfl, hk, hw⟩
    obtain ⟨htake, hdrop⟩ := takeWhile_dropWhile_append (t := chr ':' :: rest) hw (by simp; decide)
    simp [keyAndRest?, htake, hdrop, hk]

lemma isBlank_of_key_colon (hkey : IsKey key) (hrest : ∀ c ∈ rest, isBlank c = false) :
    ∀ c ∈ key ++ chr ':' :: rest, isBlank c = false := by
  simp only [List.mem_append, List.mem_cons]
  rintro c (h | rfl | h)
  · exact isBlank_eq_false_of_isWord (hkey.2 c h)
  · decide
  · exact hrest c h

/-- The last token of a text is a key and a colon. -/
lemma keyAndRest?_lastToken_iff : keyAndRest? (lastToken s) = some (key, []) ↔
    ∃ pre, s = pre ++ key ++ [chr ':'] ∧ (pre = [] ∨ endsBlank pre) ∧ IsKey key := by
  constructor
  · intro h
    obtain ⟨happ, hkey⟩ := keyAndRest?_eq_some_iff.1 h
    refine ⟨beforeToken s, ?_, beforeToken_eq_nil_or s, hkey⟩
    rw [List.append_assoc, ← happ, beforeToken_append_lastToken]
  · rintro ⟨pre, rfl, hpre, hkey⟩
    rw [List.append_assoc, lastToken_append hpre (isBlank_of_key_colon hkey (by simp))]
    exact keyAndRest?_eq_some_iff.2 ⟨rfl, hkey⟩

end LogSearch
