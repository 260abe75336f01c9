import LogSearch.Text.Basic

/-!
# Laws of words

Everything about `words` follows from what it does at a blank and on a text without blanks.

* `words_append_cons_of_isBlank` — a text is cut at each blank, and the parts do not see each other.
* `flatten_words` — cutting into words drops the blanks and nothing else.
* `mem_words`, `words_of_forall` — words are exactly the texts that are not empty and hold no blank.
* `words_unwords` — cutting undoes setting out with single spaces.
-/

namespace LogSearch

/-- A blank at the front of a text belongs to no word. -/
theorem words_cons_of_isBlank {c : CodePoint} (h : isBlank c) (s : Text) :
    words (c :: s) = words s := by
  rw [words, if_pos h]

/-- A text that starts with a character of a word has words. -/
theorem words_ne_nil {c : CodePoint} (h : isBlank c = false) (s : Text) : words (c :: s) ≠ [] := by
  rw [words, if_neg (by simp [h])]
  split
  · simp
  · split <;> simp

/-- Words split at a blank.  What stands before a blank and what stands after it are cut
into words separately. -/
theorem words_append_cons_of_isBlank {c : CodePoint} (h : isBlank c) (s t : Text) :
    words (s ++ c :: t) = words s ++ words t := by
  induction s with
  | nil => simp [words_cons_of_isBlank h, words]
  | cons d s ih =>
    by_cases hd : isBlank d
    · simp [words_cons_of_isBlank hd, ih]
    · cases s with
      | nil => simp [words, hd, h, startsBlank]
      | cons e s =>
        rw [List.cons_append, words, words, if_neg hd, if_neg hd]
        by_cases he : isBlank e
        · simp [startsBlank, he] at ih ⊢
          exact ih
        · have hn := words_ne_nil (by simpa using he) s
          simp only [List.cons_append, startsBlank, he] at ih ⊢
          rw [ih]
          cases hw : words (e :: s) with
          | nil => exact absurd hw hn
          | cons w ws => simp

/-- Put together, the words are the text without its blanks. -/
theorem flatten_words (s : Text) : (words s).flatten = s.filter (!isBlank ·) := by
  induction s with
  | nil => rfl
  | cons c s ih =>
    by_cases hc : isBlank c
    · simp [words_cons_of_isBlank hc, hc, ih]
    · rw [words, if_neg hc]
      split
      · simp [hc, ih]
      · split
        · rename_i w ws hw
          rw [hw] at ih
          simp [hc, ← ih]
        · rename_i hw
          rw [hw] at ih
          simp [hc, ← ih]

/-- A word is not empty and holds no blank. -/
theorem mem_words {s w : Text} (h : w ∈ words s) : w ≠ [] ∧ ∀ c ∈ w, isBlank c = false := by
  induction s generalizing w with
  | nil => simp [words] at h
  | cons c s ih =>
    by_cases hc : isBlank c
    · rw [words_cons_of_isBlank hc] at h
      exact ih h
    · have hc' : isBlank c = false := by simpa using hc
      rw [words, if_neg hc] at h
      split at h
      · rcases List.mem_cons.1 h with rfl | h
        · simp [hc']
        · exact ih h
      · split at h
        · rename_i v vs hv
          rcases List.mem_cons.1 h with rfl | h
          · refine ⟨by simp, ?_⟩
            simpa [hc'] using (ih (by rw [hv]; exact List.mem_cons_self)).2
          · exact ih (by rw [hv]; exact List.mem_cons_of_mem _ h)
        · simp at h
          subst h
          simp [hc']

/-- A text that is not empty and holds no blank is one word. -/
theorem words_of_forall {s : Text} (hs : s ≠ []) (h : ∀ c ∈ s, isBlank c = false) :
    words s = [s] := by
  induction s with
  | nil => exact absurd rfl hs
  | cons c s ih =>
    rw [words, if_neg (by simp [h c List.mem_cons_self])]
    cases s with
    | nil => simp [startsBlank, words]
    | cons d s =>
      have hd := h d (by simp)
      rw [if_neg (by simp [startsBlank, hd]),
        ih (by simp) fun a ha => h a (List.mem_cons_of_mem _ ha)]

/-- Words survive being set out with single spaces. -/
theorem words_unwords {ws : List Text} (h : ∀ w ∈ ws, w ≠ [] ∧ ∀ c ∈ w, isBlank c = false) :
    words (unwords ws) = ws := by
  induction ws with
  | nil => rfl
  | cons w ws ih =>
    have hw := h w List.mem_cons_self
    have ih := ih fun v hv => h v (List.mem_cons_of_mem _ hv)
    cases ws with
    | nil => simpa [unwords] using words_of_forall hw.1 hw.2
    | cons v vs =>
      have : unwords (w :: v :: vs) = w ++ chr ' ' :: unwords (v :: vs) := by simp [unwords]
      rw [this, words_append_cons_of_isBlank (by decide), words_of_forall hw.1 hw.2, ih]
      rfl

end LogSearch
