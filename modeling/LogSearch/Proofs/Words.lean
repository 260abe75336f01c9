import Mathlib.Tactic.ByContra
import Mathlib.Tactic.Lemma
import LogSearch.Text.Words

/-!
# Words of joined texts

Free text is cut into words and set out again, and pieces of a query are cut separately, so the
proofs about queries need to know what happens to words where two texts meet.

* `Apart` — no word runs across the border of two texts.  `words_append` says that words can then
  be cut on each side alone, and `length_words_append` counts the word that is lost otherwise.
* `mem_unwords`, `filter_unwords`, `unwords_append` — setting out adds single spaces and nothing
  else.
* `exists_unwords_words` — squeezing the blanks inside a text leaves its ends alone, and leaves a
  blank wherever there was one.
-/

namespace LogSearch

variable {a b s t u w x : Text} {c : CodePoint}

/-! ## Where two texts meet -/

/-- No word runs across the border of two texts: the first one is empty or ends in a blank, or the
second one is empty or starts with a blank. -/
def Apart (s t : Text) : Prop :=
  s = [] ∨ endsBlank s ∨ startsBlank t

instance (s t : Text) : Decidable (Apart s t) :=
  inferInstanceAs (Decidable (_ ∨ _ ∨ _))

lemma endsBlank_concat (s : Text) (c : CodePoint) : endsBlank (s ++ [c]) = isBlank c := by
  simp [endsBlank]

lemma endsBlank_of_getLast? (h : s.getLast? = some c) : endsBlank s = isBlank c := by
  simp [endsBlank, h]

lemma endsBlank_append (h : t ≠ []) : endsBlank (s ++ t) = endsBlank t := by
  obtain ⟨t', c, rfl⟩ := (List.eq_nil_or_concat t).resolve_left h
  rw [List.concat_eq_append, ← List.append_assoc, endsBlank_concat, endsBlank_concat]

lemma endsBlank_eq_false (h : ∀ c ∈ s, isBlank c = false) : endsBlank s = false := by
  rcases List.eq_nil_or_concat s with rfl | ⟨s', c, rfl⟩
  · rfl
  · rw [List.concat_eq_append, endsBlank_concat]
    exact h c (by simp)

lemma startsBlank_append (h : s ≠ []) : startsBlank (s ++ t) = startsBlank s := by
  cases s with
  | nil => exact absurd rfl h
  | cons c s => rfl

lemma startsBlank_eq_false (hs : s ≠ []) (h : ∀ c ∈ s, isBlank c = false) :
    startsBlank s = false := by
  cases s with
  | nil => exact absurd rfl hs
  | cons c s => exact h c List.mem_cons_self

/-- Blanks keep the texts before and behind them apart. -/
lemma apart_of_forall_isBlank (hw : w ≠ []) (h : ∀ c ∈ w, isBlank c) (s t : Text) :
    Apart s (w ++ t) ∧ Apart w t := by
  constructor
  · obtain ⟨c, w', rfl⟩ := List.exists_cons_of_ne_nil hw
    exact Or.inr (Or.inr (h c List.mem_cons_self))
  · obtain ⟨w', c, rfl⟩ := (List.eq_nil_or_concat w).resolve_left hw
    refine Or.inr (Or.inl ?_)
    rw [List.concat_eq_append, endsBlank_concat]
    exact h c (by simp)

lemma Apart.of_append_left (h : Apart (s ++ t) u) : Apart t u := by
  by_cases ht : t = []
  · exact Or.inl ht
  · rcases h with h | h | h
    · exact absurd (List.append_eq_nil_iff.1 h).2 ht
    · rw [endsBlank_append ht] at h
      exact Or.inr (Or.inl h)
    · exact Or.inr (Or.inr h)

lemma Apart.of_append_right (h : Apart s (t ++ u)) : Apart s t := by
  rcases h with h | h | h
  · exact Or.inl h
  · exact Or.inr (Or.inl h)
  · cases t with
    | nil => exact Or.inr (Or.inr rfl)
    | cons c t => exact Or.inr (Or.inr h)

/-- A text without blanks is apart from what follows only if that starts with a blank. -/
lemma Apart.startsBlank_of_forall (h : Apart s t) (hs : s ≠ [])
    (hb : ∀ c ∈ s, isBlank c = false) : startsBlank t = true := by
  rcases h with h | h | h
  · exact absurd h hs
  · rw [endsBlank_eq_false hb] at h
    exact Bool.noConfusion h
  · exact h

/-! ## Words -/

/-- **Words of texts that are apart.**  Each side is cut into words alone. -/
theorem words_append (h : Apart s t) : words (s ++ t) = words s ++ words t := by
  rcases h with rfl | h | h
  · rfl
  · rcases List.eq_nil_or_concat s with rfl | ⟨s', c, rfl⟩
    · rfl
    · rw [List.concat_eq_append, endsBlank_concat] at h
      rw [List.concat_eq_append, List.append_assoc, List.singleton_append,
        words_append_cons_of_isBlank h, words_append_cons_of_isBlank h]
      simp [words]
  · cases t with
    | nil => simp [words]
    | cons c t =>
        rw [words_append_cons_of_isBlank h, words_cons_of_isBlank h]

lemma words_of_forall_isBlank (h : ∀ c ∈ w, isBlank c) : words w = [] := by
  induction w with
  | nil => rfl
  | cons c w ih =>
      rw [words_cons_of_isBlank (h c List.mem_cons_self)]
      exact ih fun d hd => h d (List.mem_cons_of_mem _ hd)

/-- A word is counted at its last character. -/
lemma length_words_cons (c : CodePoint) (s : Text) :
    (words (c :: s)).length
      = (words s).length + if isBlank c = false ∧ startsBlank s then 1 else 0 := by
  rw [words]
  cases hc : isBlank c with
  | true => simp
  | false =>
      cases hs : startsBlank s with
      | true => simp
      | false =>
          cases s with
          | nil => simp [startsBlank] at hs
          | cons d s =>
              have hn := words_ne_nil (c := d) (by simpa [startsBlank] using hs) s
              cases hw : words (d :: s) with
              | nil => exact absurd hw hn
              | cons v vs => simp

/-- Where a word runs across the border of two texts, cutting them separately counts it twice. -/
lemma length_words_append (s t : Text) :
    (words (s ++ t)).length + (if Apart s t then 0 else 1)
      = (words s).length + (words t).length := by
  induction s with
  | nil => simp [Apart, words]
  | cons c s ih =>
      cases s with
      | nil =>
          rw [List.cons_append, List.nil_append, length_words_cons, length_words_cons]
          have h : Apart [c] t ↔ isBlank c ∨ startsBlank t := by simp [Apart, endsBlank]
          have hn : startsBlank [] = true := rfl
          simp only [h, hn, words, List.length_nil]
          cases isBlank c <;> cases startsBlank t <;> simp <;> omega
      | cons d s =>
          have h : Apart (c :: d :: s) t ↔ Apart (d :: s) t := by simp [Apart, endsBlank]
          have hs : startsBlank (d :: s ++ t) = startsBlank (d :: s) := rfl
          rw [List.cons_append, length_words_cons c, length_words_cons c, hs]
          simp only [h]
          omega

/-- The first word of a text that does not start with a blank stands at its start. -/
lemma isPrefix_of_words_eq_cons {ws : List Text} (hs : startsBlank s = false)
    (h : words s = w :: ws) : w <+: s := by
  induction s generalizing w ws with
  | nil => simp [words] at h
  | cons c s ih =>
      have hc : ¬ isBlank c := by simpa [startsBlank] using hs
      rw [words, if_neg hc] at h
      split at h
      · obtain ⟨rfl, -⟩ := List.cons.inj h
        exact ⟨s, rfl⟩
      · rename_i hs'
        split at h
        · rename_i v vs hv
          obtain ⟨rfl, -⟩ := List.cons.inj h
          exact List.cons_prefix_cons.2 ⟨rfl, ih (by simpa using hs') hv⟩
        · obtain ⟨rfl, -⟩ := List.cons.inj h
          exact ⟨s, rfl⟩

lemma isInfix_of_mem_words (h : w ∈ words s) : w <:+: s := by
  induction s with
  | nil => simp [words] at h
  | cons c s ih =>
      cases hc : isBlank c with
      | true =>
          rw [words_cons_of_isBlank hc] at h
          exact List.infix_cons (ih h)
      | false =>
          cases hw : words (c :: s) with
          | nil => exact absurd hw (words_ne_nil hc s)
          | cons v vs =>
              have hv : v <+: c :: s := isPrefix_of_words_eq_cons (by simpa [startsBlank]) hw
              rw [hw] at h
              rcases List.mem_cons.1 h with rfl | h
              · exact hv.isInfix
              · -- the words after the first one are words of the rest of the text
                refine List.infix_cons (ih ?_)
                rw [words, if_neg (by simp [hc])] at hw
                split at hw
                · exact (List.cons.inj hw).2 ▸ h
                · split at hw
                  · rename_i hv'
                    rw [hv']
                    exact List.mem_cons_of_mem _ ((List.cons.inj hw).2 ▸ h)
                  · rw [← (List.cons.inj hw).2] at h
                    exact absurd h List.not_mem_nil

/-! ## Words set out -/

lemma unwords_cons {ws : List Text} (h : ws ≠ []) (w : Text) :
    unwords (w :: ws) = w ++ chr ' ' :: unwords ws := by
  rw [unwords, List.intercalate_cons_of_ne_nil h, List.append_assoc]
  rfl

lemma intercalate_append {vs ws : List Text} (hv : vs ≠ []) (hw : ws ≠ []) (separator : Text) :
    List.intercalate separator (vs ++ ws)
      = List.intercalate separator vs ++ (separator ++ List.intercalate separator ws) := by
  induction vs with
  | nil => exact absurd rfl hv
  | cons v vs ih =>
      cases vs with
      | nil => simp [List.intercalate_cons_of_ne_nil hw]
      | cons v' vs =>
          rw [List.cons_append, List.intercalate_cons_of_ne_nil (by simp),
            List.intercalate_cons_of_ne_nil (by simp), ih (by simp)]
          simp

lemma unwords_append {vs ws : List Text} (hv : vs ≠ []) (hw : ws ≠ []) :
    unwords (vs ++ ws) = unwords vs ++ chr ' ' :: unwords ws :=
  intercalate_append hv hw [chr ' ']

lemma mem_unwords {ws : List Text} (h : c ∈ unwords ws) : c = chr ' ' ∨ ∃ w ∈ ws, c ∈ w := by
  induction ws with
  | nil => simp [unwords] at h
  | cons w ws ih =>
      by_cases hw : ws = []
      · subst hw
        exact Or.inr ⟨w, by simp, by simpa [unwords] using h⟩
      · rw [unwords_cons hw, List.mem_append, List.mem_cons] at h
        rcases h with h | h | h
        · exact Or.inr ⟨w, List.mem_cons_self, h⟩
        · exact Or.inl h
        · refine (ih h).imp_right fun hmem => ?_
          obtain ⟨v, hv, hc⟩ := hmem
          exact ⟨v, List.mem_cons_of_mem _ hv, hc⟩

lemma filter_unwords {ws : List Text} (h : ∀ w ∈ ws, chr ' ' ∉ w) :
    (unwords ws).filter (· ≠ chr ' ') = ws.flatten := by
  induction ws with
  | nil => rfl
  | cons w ws ih =>
      have hw : w.filter (· ≠ chr ' ') = w :=
        List.filter_eq_self.2 fun c hc => by
          have : c ≠ chr ' ' := fun hs => h w List.mem_cons_self (hs ▸ hc)
          simpa using this
      by_cases hn : ws = []
      · subst hn
        simpa [unwords] using hw
      · rw [unwords_cons hn, List.filter_append, hw, List.filter_cons_of_neg (by simp),
          ih fun v hv => h v (List.mem_cons_of_mem _ hv), List.flatten_cons]

/-! ## Squeezing blanks -/

/-- A character that is not blank stays where it is when the blanks are squeezed. -/
lemma unwords_words_cons (hc : isBlank c = false) (s : Text) :
    unwords (words (c :: s))
      = if words s = [] then [c]
        else if startsBlank s then c :: chr ' ' :: unwords (words s)
        else c :: unwords (words s) := by
  rw [words, if_neg (by simp [hc])]
  by_cases hs : startsBlank s
  · rw [if_pos hs, if_pos hs]
    split
    · rename_i hn
      simp [hn, unwords]
    · rename_i hn
      rw [unwords_cons hn]
      rfl
  · rw [if_neg hs, if_neg hs]
    cases hw : words s with
    | nil => simp [unwords]
    | cons w ws =>
        by_cases hn : ws = []
        · simp [hn, unwords]
        · simp [unwords_cons hn]

/-- Squeezing leaves an ending without blanks alone. -/
lemma exists_unwords_words_append (hb : b ≠ []) (hbl : ∀ c ∈ b, isBlank c = false) (x : Text) :
    ∃ y, unwords (words (x ++ b)) = y ++ b ∧ ∀ c ∈ y, c = chr ' ' ∨ c ∈ x := by
  induction x with
  | nil => exact ⟨[], by simp [words_of_forall hb hbl, unwords], by simp⟩
  | cons c x ih =>
      obtain ⟨y, hy, hyx⟩ := ih
      have hn : words (x ++ b) ≠ [] := by
        intro hn
        simp only [hn, unwords, List.intercalate_nil, List.nil_eq, List.append_eq_nil_iff] at hy
        exact hb hy.2
      cases hc : isBlank c with
      | true =>
          rw [List.cons_append, words_cons_of_isBlank hc]
          exact ⟨y, hy, fun d hd => (hyx d hd).imp_right (List.mem_cons_of_mem _)⟩
      | false =>
          rw [List.cons_append, unwords_words_cons hc, if_neg hn, hy]
          split
          · exact ⟨c :: chr ' ' :: y, rfl, by grind⟩
          · exact ⟨c :: y, rfl, by grind⟩

/-- Squeezing leaves a beginning without blanks alone. -/
lemma exists_unwords_words_prepend (hal : ∀ c ∈ a, isBlank c = false) (x : Text) :
    ∃ y, unwords (words (a ++ x)) = a ++ y ∧ ∀ c ∈ y, c = chr ' ' ∨ c ∈ x := by
  induction a with
  | nil =>
      refine ⟨_, rfl, fun c hc => ?_⟩
      refine (mem_unwords hc).imp_right fun hmem => ?_
      obtain ⟨w, hw, hcw⟩ := hmem
      exact (isInfix_of_mem_words hw).subset hcw
  | cons c a ih =>
      obtain ⟨y, hy, hyx⟩ := ih fun d hd => hal d (List.mem_cons_of_mem _ hd)
      rw [List.cons_append, unwords_words_cons (hal c List.mem_cons_self), hy]
      cases a with
      | nil =>
          split
          · exact ⟨[], rfl, by simp⟩
          · split
            · exact ⟨chr ' ' :: y, rfl, by grind⟩
            · exact ⟨y, rfl, hyx⟩
      | cons d a =>
          have hd : isBlank d = false := hal d (by simp)
          rw [List.cons_append, if_neg (words_ne_nil hd _), if_neg (by simp [startsBlank, hd])]
          exact ⟨y, rfl, hyx⟩

/-- **Squeezing blanks inside a text.**  Between two ends that hold no blanks, the characters stay
or become spaces, and a blank leaves a space behind. -/
theorem exists_unwords_words (ha : a ≠ []) (hal : ∀ c ∈ a, isBlank c = false)
    (hb : b ≠ []) (hbl : ∀ c ∈ b, isBlank c = false) (x : Text) :
    ∃ y, unwords (words (a ++ x ++ b)) = a ++ y ++ b ∧ (∀ c ∈ y, c = chr ' ' ∨ c ∈ x) ∧
      (y = x ∨ chr ' ' ∈ y) := by
  by_cases hx : ∀ c ∈ x, isBlank c = false
  · -- nothing to squeeze: the whole is one word
    have hw : ∀ c ∈ a ++ x ++ b, isBlank c = false := by
      simp only [List.mem_append]
      rintro c ((h | h) | h)
      · exact hal c h
      · exact hx c h
      · exact hbl c h
    refine ⟨x, ?_, fun c hc => Or.inr hc, Or.inl rfl⟩
    rw [words_of_forall (by simp [ha]) hw]
    simp [unwords]
  · -- at a blank the whole falls into two texts that are squeezed separately
    simp only [not_forall, Bool.not_eq_false] at hx
    obtain ⟨d, hd, hdb⟩ := hx
    obtain ⟨x₁, x₂, rfl⟩ := List.append_of_mem hd
    obtain ⟨y₁, hy₁, hm₁⟩ := exists_unwords_words_prepend hal x₁
    obtain ⟨y₂, hy₂, hm₂⟩ := exists_unwords_words_append hb hbl x₂
    have hsplit : a ++ (x₁ ++ d :: x₂) ++ b = (a ++ x₁) ++ d :: (x₂ ++ b) := by simp
    have hn₁ : words (a ++ x₁) ≠ [] := by
      intro hn
      simp [hn, unwords, ha] at hy₁
    have hn₂ : words (x₂ ++ b) ≠ [] := by
      intro hn
      simp [hn, unwords, hb] at hy₂
    refine ⟨y₁ ++ chr ' ' :: y₂, ?_, ?_, Or.inr (by simp)⟩
    · rw [hsplit, words_append_cons_of_isBlank hdb, unwords_append hn₁ hn₂,
        hy₁, hy₂]
      simp
    · grind

end LogSearch
