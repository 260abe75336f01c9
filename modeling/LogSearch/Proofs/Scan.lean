import LogSearch.Proofs.Values

/-!
# What the scan for filters finds

`Span.atStart?` and `Span.first?` are given by computation.  This module says what they find.

* `Span.Fits` — what a filter looks like in front of the text that follows it, with
  `Span.atStart?_eq_some_iff`; `Span.Fits.append` is the condition under which the following text
  may be continued.
* `HasNoKey` — no word character, colon and character of a value stand together.  The scan passes
  over exactly these texts (`first?_eq_none_iff`), and it leaves such a text before each filter
  that it finds (`fits_of_first?`).
* `first?_append_of_some`, `first?_append_of_none` — the scan of a text that is continued.
-/

namespace LogSearch

variable {s t rest before : Text} {f : Span} {c : CodePoint}

/-! ## Filters at the start of a text -/

namespace Span

/-- What a filter looks like in front of the text that follows it. -/
structure Fits (f : Span) (rest : Text) : Prop where
  key_ne_nil : f.key ≠ []
  key_word : ∀ c ∈ f.key, isWord c
  value : IsQuotedValue f.value ∨ IsBareValue f.value rest

/-- **Filters at the start of a text.** -/
theorem atStart?_eq_some_iff : atStart? s = some (f, rest) ↔ f.text ++ rest = s ∧ f.Fits rest := by
  constructor
  · intro h
    refine ⟨text_append_of_atStart? h, ?_⟩
    rw [atStart?] at h
    simp only [List.isEmpty_iff] at h
    split at h
    · simp at h
    · rename_i hk
      split at h
      · simp only [Option.map_eq_some_iff, Prod.exists, Prod.mk.injEq] at h
        obtain ⟨v, r, hv, rfl, rfl⟩ := h
        exact ⟨hk, fun c hc => List.mem_takeWhile_imp hc, (splitValue?_eq_some_iff.1 hv).2⟩
      · simp at h
  · rintro ⟨rfl, hk, hw, hv⟩
    obtain ⟨htake, hdrop⟩ := takeWhile_dropWhile_append (t := chr ':' :: (f.value ++ rest)) hw
      (by simp; decide)
    have hs : f.text ++ rest = f.key ++ chr ':' :: (f.value ++ rest) := by simp [text]
    have hv : splitValue? (f.value ++ rest) = some (f.value, rest) :=
      splitValue?_eq_some_iff.2 ⟨rfl, hv⟩
    simp [atStart?, hs, htake, hdrop, hk, hv]

/-- **No filter at the start of a text.**  Where a key, a colon and a character that is not blank
stand at the start of a text, a filter does. -/
theorem atStart?_ne_none_iff :
    atStart? s ≠ none ↔ ∃ k y r, k ≠ [] ∧ (∀ c ∈ k, isWord c) ∧ isBlank y = false ∧
      s = k ++ chr ':' :: y :: r := by
  constructor
  · intro h
    obtain ⟨⟨f, rest⟩, hf⟩ := Option.ne_none_iff_exists'.1 h
    obtain ⟨rfl, hk, hw, hv⟩ := atStart?_eq_some_iff.1 hf
    have hb : startsBlank (f.value ++ rest) = false := by
      rcases hv with hv | hv
      · exact hv.startsBlank_append rest
      · rw [startsBlank_append hv.ne_nil, startsBlank_eq_false hv.ne_nil hv.no_blank]
    cases hvr : f.value ++ rest with
    | nil => simp [hvr, startsBlank] at hb
    | cons y r =>
        rw [hvr] at hb
        exact ⟨f.key, y, r, hk, hw, hb, by simp [text, ← hvr]⟩
  · rintro ⟨k, y, r, hk, hw, hy, rfl⟩ hn
    obtain ⟨htake, hdrop⟩ :=
      takeWhile_dropWhile_append (t := chr ':' :: y :: r) hw (by simp; decide)
    simp only [atStart?, htake, hdrop, List.isEmpty_iff, hk, if_false, Option.map_eq_none_iff,
      splitValue?_eq_none_iff, startsBlank, hy, Bool.false_eq_true] at hn

lemma Fits.value_ne_nil (h : f.Fits rest) : f.value ≠ [] := by
  rcases h.value with ⟨op, inner, hv, -⟩ | hv
  · simp [hv, quoted]
  · exact hv.ne_nil

lemma Fits.startsBlank_text (h : f.Fits rest) (t : Text) : startsBlank (f.text ++ t) = false := by
  have hk : startsBlank f.key = false :=
    startsBlank_eq_false h.key_ne_nil fun c hc => isBlank_eq_false_of_isWord (h.key_word c hc)
  rw [text, List.append_assoc, startsBlank_append h.key_ne_nil, hk]

lemma Fits.endsBlank_text (h : f.Fits rest) : endsBlank f.text = false := by
  have hv : endsBlank f.value = false := by
    rcases h.value with ⟨op, inner, hv, -⟩ | hv
    · rw [hv, quoted, ← List.append_assoc, endsBlank_concat]
      decide
    · exact endsBlank_eq_false hv.no_blank
  rw [text, endsBlank_append (by simp), ← List.singleton_append,
    endsBlank_append h.value_ne_nil, hv]

lemma Fits.not_mem_of_isUnclosed (h : f.Fits rest) (hu : isUnclosed f.value) : chr '"' ∉ rest := by
  rcases h.value with hv | hv
  · rw [hv.isUnclosed_eq_false] at hu
    exact Bool.noConfusion hu
  · obtain ⟨r, hr, -⟩ := isUnclosed_iff.1 hu
    exact fun hm => hv.unclosed r hr (List.mem_append_right _ hm)

/-- **Continuing the text behind a filter.**  The filter stays as it is if no word runs across the
border and no quote behind the border closes its value. -/
lemma Fits.append (h : f.Fits rest) (ha : Apart (f.text ++ rest) t)
    (hq : isUnclosed f.value → chr '"' ∉ t) : f.Fits (rest ++ t) := by
  refine ⟨h.key_ne_nil, h.key_word, h.value.imp_right fun hv => ?_⟩
  refine ⟨hv.ne_nil, hv.no_blank, ?_, ?_⟩
  · cases hr : rest with
    | nil =>
        have hne : f.text ≠ [] := by simp [text]
        rw [hr, List.append_nil] at ha
        rcases ha with ha | ha | ha
        · exact absurd ha hne
        · rw [h.endsBlank_text] at ha
          exact Bool.noConfusion ha
        · exact ha
    | cons c r => simpa [hr, startsBlank] using hv.stops
  · intro r hr
    have hnr := hv.unclosed r hr
    rw [List.mem_append, not_or] at hnr
    have hu : isUnclosed f.value := isUnclosed_iff.2 ⟨r, hr, hnr.1⟩
    simp only [List.mem_append, not_or]
    exact ⟨hnr.1, hnr.2, hq hu⟩

lemma atStart?_append_of_some (h : atStart? s = some (f, rest)) (ha : Apart s t)
    (hq : isUnclosed f.value → chr '"' ∉ t) : atStart? (s ++ t) = some (f, rest ++ t) := by
  obtain ⟨rfl, hf⟩ := atStart?_eq_some_iff.1 h
  exact atStart?_eq_some_iff.2 ⟨(List.append_assoc ..).symm, hf.append ha hq⟩

/-- No filter comes about at the start of a text by continuing it. -/
lemma atStart?_append_of_none (hs : s ≠ []) (h : atStart? s = none) (ha : Apart s t) :
    atStart? (s ++ t) = none := by
  by_contra hn
  obtain ⟨k, y, r, hk, hw, hy, heq⟩ := atStart?_ne_none_iff.1 hn
  have heq' : s ++ t = (k ++ [chr ':', y]) ++ r := by simp [heq]
  rcases List.append_eq_append_iff.1 heq' with ⟨z, hz, rfl⟩ | ⟨z, rfl, rfl⟩
  · -- the border lies within the key, the colon and the first character of the value
    have hb : ∀ c ∈ s ++ z, isBlank c = false := by
      rw [← hz]
      intro c hc
      simp only [List.mem_append, List.mem_cons, List.not_mem_nil, or_false] at hc
      rcases hc with hc | rfl | rfl
      · exact isBlank_eq_false_of_isWord (hw c hc)
      · decide
      · exact hy
    have hst := ha.startsBlank_of_forall hs fun c hc => hb c (List.mem_append_left _ hc)
    cases z with
    | nil =>
        rw [List.append_nil] at hz
        exact atStart?_ne_none_iff.2 ⟨k, y, [], hk, hw, hy, by simp [← hz]⟩ h
    | cons c z =>
        have hc : isBlank c := by simpa [startsBlank] using hst
        rw [hb c (by simp)] at hc
        exact Bool.noConfusion hc
  · exact atStart?_ne_none_iff.2 ⟨k, y, z, hk, hw, hy, by simp⟩ h

end Span

/-! ## Texts that the scan passes over -/

/-- No key stands in the text with a value behind it: nowhere do a word character, a colon and a
character that is not blank follow each other. -/
def HasNoKey (s : Text) : Prop :=
  ∀ x y, isWord x → isBlank y = false → ¬ [x, chr ':', y] <:+: s

lemma HasNoKey.of_isInfix (h : HasNoKey t) (hs : s <:+: t) : HasNoKey s :=
  fun x y hx hy hxy => h x y hx hy (hxy.trans hs)

lemma hasNoKey_nil : HasNoKey [] :=
  fun x y _ _ h => by simp at h

lemma HasNoKey.atStart?_eq_none (h : HasNoKey s) : Span.atStart? s = none := by
  by_contra hn
  obtain ⟨k, y, r, hk, hw, hy, rfl⟩ := Span.atStart?_ne_none_iff.1 hn
  obtain ⟨k, x, rfl⟩ := (List.eq_nil_or_concat k).resolve_left hk
  exact h x y (hw x (by simp)) hy ⟨k, r, by simp⟩

/-- Two texts make a key between them only if the first one ends in a word character, and a colon
and a value start right behind it. -/
lemma hasNoKey_append (hs : ∀ x, ¬ [x, chr ':'] <:+: s) (ht : HasNoKey t)
    (hb : ∀ x y, s.getLast? = some x → isWord x → isBlank y = false → ¬ [chr ':', y] <+: t) :
    HasNoKey (s ++ t) := by
  induction s with
  | nil => exact ht
  | cons c s ih =>
      intro x y hx hy hxy
      rcases List.infix_cons_iff.1 hxy with hpre | hin
      · obtain ⟨rfl, htail⟩ := List.cons_prefix_cons.1 hpre
        cases s with
        | nil => exact hb x y rfl hx hy htail
        | cons d s =>
            obtain ⟨rfl, -⟩ := List.cons_prefix_cons.1 htail
            exact hs x ⟨[], s, rfl⟩
      · refine ih (fun x' h => hs x' (List.infix_cons h)) (fun x' y' hx' => ?_) x y hx hy hin
        refine hb x' y' ?_
        rw [List.getLast?_cons, hx']
        rfl

namespace Span

lemma skip_of_isWord (h : isWord c) (s : Text) :
    skip c s = (c :: s.takeWhile isWord, s.dropWhile isWord) := by
  simp [skip, h]

lemma skip_of_not_isWord (h : isWord c = false) (s : Text) : skip c s = ([c], s) := by
  simp [skip, h]

/-- What the scan skips makes no key together with a text behind it that holds none: if the skipped
run of word characters were a key, there would be a filter. -/
lemma hasNoKey_skip (h : atStart? (c :: s) = none) (ht : HasNoKey t) (hp : t <+: (skip c s).2) :
    HasNoKey ((skip c s).1 ++ t) := by
  cases hc : isWord c with
  | true =>
      rw [skip_of_isWord hc] at hp ⊢
      have hw : ∀ d ∈ c :: s.takeWhile isWord, isWord d := by
        intro d hd
        rcases List.mem_cons.1 hd with rfl | hd
        · exact hc
        · exact List.mem_takeWhile_imp hd
      refine hasNoKey_append
        (fun x hx => absurd (hw (chr ':') (hx.subset (by simp))) (by decide)) ht ?_
      intro x y _ _ hy hpre
      obtain ⟨r, hr⟩ := hpre.trans hp
      have hs : s.takeWhile isWord ++ ([chr ':', y] ++ r) = s := by
        rw [hr]
        exact List.takeWhile_append_dropWhile
      refine atStart?_ne_none_iff.2 ⟨c :: s.takeWhile isWord, y, r, by simp, hw, hy, ?_⟩ h
      simpa using hs.symm
  | false =>
      rw [skip_of_not_isWord hc] at hp ⊢
      refine hasNoKey_append (fun x hx => by simpa using hx.length_le) ht ?_
      intro x y hx hw
      obtain rfl : c = x := by simpa using hx
      rw [hc] at hw
      exact Bool.noConfusion hw

/-- **The scan finds nothing** exactly in a text without keys. -/
theorem first?_eq_none_iff : first? s = none ↔ HasNoKey s := by
  fun_induction first? s with
  | case1 s f rest hs =>
      refine ⟨fun h => by simp at h, fun h => ?_⟩
      rw [h.atStart?_eq_none] at hs
      simp at hs
  | case2 hs => exact ⟨fun _ => hasNoKey_nil, fun _ => rfl⟩
  | case3 c cs hs ih =>
      rw [Option.map_eq_none_iff, ih]
      have happ := skip_append c cs
      constructor
      · intro h
        rw [← happ]
        exact hasNoKey_skip hs h (List.prefix_refl _)
      · intro h
        exact h.of_isInfix ⟨(skip c cs).1, [], by simp [happ]⟩

/-- **What the scan finds** is a filter that fits in front of the text behind it, and no key stands
before it. -/
theorem fits_of_first? (h : first? s = some (before, f, rest)) : f.Fits rest ∧ HasNoKey before := by
  fun_induction first? s generalizing before f rest with
  | case1 s f' rest' hs =>
      simp only [Option.some.injEq, Prod.mk.injEq] at h
      obtain ⟨rfl, rfl, rfl⟩ := h
      exact ⟨(atStart?_eq_some_iff.1 hs).2, hasNoKey_nil⟩
  | case2 hs => simp at h
  | case3 c cs hs ih =>
      simp only [Option.map_eq_some_iff, Prod.exists, Prod.mk.injEq] at h
      obtain ⟨gap, _, _, hf, rfl, rfl, rfl⟩ := h
      obtain ⟨hfits, hgap⟩ := ih hf
      refine ⟨hfits, hasNoKey_skip hs hgap ?_⟩
      rw [← append_of_first? hf, List.append_assoc]
      exact List.prefix_append _ _

/-! ## The scan of a text that is continued -/

lemma first?_of_atStart? (h : atStart? s = some (f, rest)) : first? s = some ([], f, rest) := by
  rw [first?.eq_def, h]

lemma first?_nil : first? [] = none :=
  first?_eq_none_iff.2 hasNoKey_nil

lemma first?_text (h : f.Fits []) : first? f.text = some ([], f, []) :=
  first?_of_atStart? (atStart?_eq_some_iff.2 ⟨by simp, h⟩)

lemma first?_of_skip (h : atStart? (c :: s) = none) :
    first? (c :: s)
      = (first? (skip c s).2).map fun (before, f, rest) => ((skip c s).1 ++ before, f, rest) := by
  rw [first?.eq_def, h]

lemma skip_append_of_apart (h : Apart (c :: s) t) :
    skip c (s ++ t) = ((skip c s).1, (skip c s).2 ++ t) := by
  cases hc : isWord c with
  | false => rw [skip_of_not_isWord hc, skip_of_not_isWord hc]
  | true =>
      rw [skip_of_isWord hc, skip_of_isWord hc]
      by_cases hs : ∀ d ∈ s, isWord d
      · -- the run of word characters reaches the border, so a blank stands behind it
        have ht : startsBlank t := by
          refine h.startsBlank_of_forall (by simp) fun d hd => isBlank_eq_false_of_isWord ?_
          rcases List.mem_cons.1 hd with rfl | hd
          · exact hc
          · exact hs d hd
        obtain ⟨htake, hdrop⟩ := takeWhile_dropWhile_append (t := t) hs fun d hd => by
          obtain ⟨r, rfl⟩ := List.head?_eq_some_iff.1 hd
          exact isWord_eq_false_of_isBlank ht
        obtain ⟨htake', hdrop'⟩ := takeWhile_dropWhile_append (t := []) hs (by simp)
        rw [List.append_nil] at htake' hdrop'
        rw [htake, hdrop, htake', hdrop', List.nil_append]
      · have hdrop : s.dropWhile isWord ≠ [] := by rwa [ne_eq, List.dropWhile_eq_nil_iff]
        have hlen : (s.takeWhile isWord).length ≠ s.length := by
          have := congrArg List.length (List.takeWhile_append_dropWhile (p := isWord) (l := s))
          have := List.length_pos_iff.2 hdrop
          simp only [List.length_append] at *
          omega
        rw [List.takeWhile_append, if_neg hlen, List.dropWhile_append,
          if_neg (by simpa [List.isEmpty_iff] using hdrop)]

lemma apart_skip (h : Apart (c :: s) t) : Apart (skip c s).2 t := by
  rw [← skip_append] at h
  exact h.of_append_left

/-- **A filter that is found** is found again when the text is continued. -/
theorem first?_append_of_some (h : first? s = some (before, f, rest)) (ha : Apart s t)
    (hq : isUnclosed f.value → chr '"' ∉ t) : first? (s ++ t) = some (before, f, rest ++ t) := by
  fun_induction first? s generalizing before f rest with
  | case1 s f' rest' hs =>
      simp only [Option.some.injEq, Prod.mk.injEq] at h
      obtain ⟨rfl, rfl, rfl⟩ := h
      exact first?_of_atStart? (atStart?_append_of_some hs ha hq)
  | case2 hs => simp at h
  | case3 c cs hs ih =>
      simp only [Option.map_eq_some_iff, Prod.exists, Prod.mk.injEq] at h
      obtain ⟨gap, _, _, hf, rfl, rfl, rfl⟩ := h
      have hn : atStart? (c :: (cs ++ t)) = none := atStart?_append_of_none (by simp) hs ha
      rw [List.cons_append, first?_of_skip hn, skip_append_of_apart ha, ih hf (apart_skip ha) hq]
      rfl

/-- **Where no filter is found**, the first one comes from the text that is appended. -/
theorem first?_append_of_none (h : first? s = none) (ha : Apart s t) :
    first? (s ++ t) = (first? t).map fun (before, f, rest) => (s ++ before, f, rest) := by
  fun_induction first? s with
  | case1 s f rest hs => simp at h
  | case2 hs => simp
  | case3 c cs hs ih =>
      rw [Option.map_eq_none_iff] at h
      have hn : atStart? (c :: (cs ++ t)) = none := atStart?_append_of_none (by simp) hs ha
      rw [List.cons_append, first?_of_skip hn, skip_append_of_apart ha, ih h (apart_skip ha),
        Option.map_map]
      congr 1
      funext p
      obtain ⟨before, f, rest⟩ := p
      simp only [Function.comp_apply, ← List.append_assoc, skip_append, List.cons_append]

end Span

end LogSearch
