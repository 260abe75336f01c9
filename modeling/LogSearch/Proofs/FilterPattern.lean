import LogSearch.Proofs.Parse
import LogSearch.Proofs.Pattern

/-!
# The scan for filters as a pattern

What a filter looks like can be written as one pattern: a word, a colon, and a value, which is an
operator that may be missing and then either a text in double quotes or a run without blanks.
Matching this pattern may backtrack: `>=` alone is a value, so the operator has to be given back in
part, and a double quote that is never closed is found out only at the end of the text.  The scan of
`spans` never goes back.  This module shows that both find the same filters.

* `filterPattern` — the pattern.
* `matchesAt_operator` — what is left to try after the longest operator never starts with a blank or
  a quote, so it can only end in a run that takes the operator back.
* `exists_match_of_splitValue?` — the value that is found is the one that is cut off.
* `findAll_filterPattern` — the matches of the pattern are the spans of the scan, and the operator
  is that of the filter wherever something follows it.
-/

namespace LogSearch

open Pattern

variable {s t r v rest before : Text} {f : Span} {m : Match} {place : Nat}

/-! ## The pattern -/

/-- One of the operators, those of two characters first. -/
def operatorPattern : Pattern :=
  oneOf Operator.ge.text
    [Operator.le.text, Operator.ne.text, Operator.gt.text, Operator.lt.text, Operator.eq.text]

/-- A text without double quotes between two of them. -/
def quotedPattern : Pattern :=
  seq (exactly [chr '"']) (seq (many (· ≠ chr '"')) (exactly [chr '"']))

/-- The text of a value behind its operator. -/
def bodyPattern : Pattern :=
  alt quotedPattern (atLeastOne (!isBlank ·))

/-- A value.  Its operator is a group, so that a match tells what was taken for it. -/
def valuePattern : Pattern :=
  seq (opt (group .operator operatorPattern)) bodyPattern

/-- A filter: `(\w+):((?:>=|<=|!=|>|<|=)?(?:"[^"]*"|\S+))`. -/
def filterPattern : Pattern :=
  seq (group .key (atLeastOne isWord)) (seq (exactly [chr ':']) (group .value valuePattern))

/-! ## Behind the operator -/

lemma matchesAt_quotedPattern (t : Text) :
    quotedPattern.matchesAt t = ((splitQuoted? t).map fun q => ⟨q.1, [], q.2⟩).toList := by
  cases t with
  | nil => rfl
  | cons c t =>
      by_cases hc : c = chr '"'
      · subst hc
        have hb : ∀ c t, decide (c ≠ chr '"') → (exactly [chr '"']).matchesAt (c :: t) = [] := by
          intro c t h
          simp [matchesAt, Ne.symm (of_decide_eq_true h)]
        have hseq := (longestFirst_many (· ≠ chr '"') t).matchesAt_seq hb
        rw [quotedPattern, matchesAt_seq_exactly_cons, hseq, splitQuoted?]
        cases hd : t.dropWhile (· ≠ chr '"') with
        | nil => rfl
        | cons d u =>
            have hquote : d = chr '"' := by
              have := List.head?_dropWhile_not (· ≠ chr '"') t
              rw [hd] at this
              simpa using this
            simp [matchesAt, hquote, Match.followedBy]
      · have hne : ∀ u, c :: t ≠ chr '"' :: u := fun _ h => hc (List.cons.inj h).1
        rw [quotedPattern, matchesAt_seq_exactly_eq_nil hne,
          splitQuoted?_eq_none_iff.2 fun u h => absurd h (hne u)]
        rfl

/-- Behind an operator a quoted text is tried first, and then a run without blanks. -/
lemma head?_matchesAt_bodyPattern (t : Text) :
    (bodyPattern.matchesAt t).head?
      = ((splitQuoted? t).or (if startsBlank t then none else some (splitBare t))).map
          fun q => ⟨q.1, [], q.2⟩ := by
  have hbare : ((atLeastOne (!isBlank ·)).matchesAt t).head?
      = (if startsBlank t then none else some (splitBare t)).map fun q => ⟨q.1, [], q.2⟩ := by
    have hiff : t.takeWhile (!isBlank ·) = [] ↔ startsBlank t := by
      cases t <;> simp [startsBlank, List.takeWhile_cons]
    by_cases hb : startsBlank t
    · rw [matchesAt_atLeastOne_eq_nil (hiff.2 hb), if_pos hb]
      rfl
    · obtain ⟨shorter, hs, -⟩ := longestFirst_atLeastOne (mt hiff.1 hb)
      rw [hs, if_neg hb]
      rfl
  rw [bodyPattern, head?_matchesAt_alt, matchesAt_quotedPattern, hbare]
  cases splitQuoted? t <;> rfl

/-! ## Operators -/

/-- The group of an operator that may be missing. -/
def operatorGroup (op : Option Operator) : List (GroupName × Text) :=
  (op.map fun op => (GroupName.operator, op.text)).toList

/-- Whatever is taken for an operator is one or is nothing. -/
lemma exists_operator_of_mem (h : m ∈ (opt (group .operator operatorPattern)).matchesAt r) :
    ∃ op, m.text = Operator.textOf op ∧ m.groups = operatorGroup op := by
  rw [matchesAt, List.mem_append, matchesAt] at h
  rcases h with h | h
  · obtain ⟨n, hn, rfl⟩ := List.mem_map.1 h
    obtain ⟨htext, hgroups⟩ := mem_matchesAt_oneOf hn
    have hop : ∃ op : Operator, n.text = op.text := by
      simp only [List.mem_cons, List.not_mem_nil, or_false] at htext
      rcases htext with h | h | h | h | h | h <;> exact ⟨_, h⟩
    obtain ⟨op, hop⟩ := hop
    exact ⟨some op, hop, by simp [Match.named, operatorGroup, hop, hgroups]⟩
  · rw [List.mem_singleton.1 h]
    exact ⟨none, rfl, rfl⟩

/-- **The operator of a value.**  The longest one is tried first.  What is left to try after it
stands before a character that is neither a blank nor a double quote. -/
lemma matchesAt_operator (r : Text) : ∃ more,
    (opt (group .operator operatorPattern)).matchesAt r
      = ⟨Operator.textOf (Operator.leading? r), operatorGroup (Operator.leading? r),
          (Operator.split r).2⟩ :: more ∧
      (more = [] ↔ Operator.leading? r = none) ∧
      ∀ m ∈ more, m.text ++ m.rest = r ∧ startsBlank m.rest = false ∧
        ∀ u, m.rest ≠ chr '"' :: u := by
  have hblank : isBlank (chr '>') = false ∧ isBlank (chr '<') = false ∧ isBlank (chr '!') = false ∧
      isBlank (chr '=') = false := by decide
  have hprefix : ∀ w t : Text, (∀ u, t = w ++ u → False) → ¬ w <+: t :=
    fun w t h hw => hw.elim fun u hu => h u hu.symm
  unfold Operator.leading? Operator.split
  fun_cases Operator.split? r with
  | case1 s | case2 s | case3 s | case6 s =>
      simp [matchesAt, operatorPattern, oneOf, Match.named, Match.nothing, startsBlank,
        operatorGroup, Operator.textOf, Operator.text, hblank]
  | case4 s hn | case5 s hn =>
      have heq := hprefix [chr '='] s hn
      simp [matchesAt, operatorPattern, oneOf, Match.named, Match.nothing, startsBlank,
        operatorGroup, Operator.textOf, Operator.text, hblank, heq]
  | case7 _ _ _ hne hgt hlt heq =>
      have hge : ¬ [chr '>', chr '='] <+: r := hprefix _ _ fun u => hgt (chr '=' :: u)
      have hle : ¬ [chr '<', chr '='] <+: r := hprefix _ _ fun u => hlt (chr '=' :: u)
      have hne := hprefix [chr '!', chr '='] r hne
      have hgt := hprefix [chr '>'] r hgt
      have hlt := hprefix [chr '<'] r hlt
      have heq := hprefix [chr '='] r heq
      simp [matchesAt, operatorPattern, oneOf, Match.nothing, operatorGroup, Operator.textOf,
        Operator.text, hge, hle, hne, hgt, hlt, heq]

/-! ## Values -/

lemma splitBare_append {w : Text} (h : ∀ c ∈ w, isBlank c = false) (u : Text) :
    splitBare (w ++ u) = (w ++ (splitBare u).1, (splitBare u).2) := by
  have hw : ∀ c ∈ w, !isBlank c := by simpa using h
  rw [splitBare, List.takeWhile_append_of_pos hw, List.dropWhile_append_of_pos hw]
  rfl

lemma head?_matchesAt_valuePattern_of_body {q : Text × Text}
    (hq : ((splitQuoted? (Operator.split r).2).or
      (if startsBlank (Operator.split r).2 then none else some (splitBare (Operator.split r).2)))
        = some q) :
    (valuePattern.matchesAt r).head?
      = some ⟨Operator.textOf (Operator.leading? r) ++ q.1,
          operatorGroup (Operator.leading? r), q.2⟩ := by
  obtain ⟨more, hops, -, -⟩ := matchesAt_operator r
  rw [valuePattern, head?_matchesAt_seq, hops, List.findSome?_cons, head?_matchesAt_bodyPattern, hq]
  simp [Match.followedBy]

/-- If nothing can follow the operator, it is given back in part or whole, and a run takes it. -/
lemma head?_matchesAt_valuePattern_of_blank (ht : startsBlank (Operator.split r).2)
    (hr : startsBlank r = false) : ∃ op,
    (valuePattern.matchesAt r).head?
      = some ⟨(splitBare r).1, operatorGroup op, (splitBare r).2⟩ := by
  obtain ⟨more, hops, hmore, hrest⟩ := matchesAt_operator r
  have hbody : splitQuoted? (Operator.split r).2 = none := by
    refine splitQuoted?_eq_none_iff.2 fun u hu => ?_
    rw [hu] at ht
    exact absurd ht (by simp [startsBlank]; decide)
  cases more with
  | nil =>
      -- without an operator the value would start with a blank
      have happ := Operator.textOf_leading?_append r
      rw [hmore.1 rfl, Operator.textOf, Option.map_none, Option.getD_none, List.nil_append] at happ
      rw [happ, hr] at ht
      exact Bool.noConfusion ht
  | cons m more =>
      obtain ⟨happ, hb, hq⟩ := hrest m List.mem_cons_self
      obtain ⟨op, htext, hgroups⟩ := exists_operator_of_mem (r := r) (m := m) (by simp [hops])
      have hbare : splitBare r
          = (m.text ++ (splitBare m.rest).1, (splitBare m.rest).2) := by
        rw [← happ, htext]
        exact splitBare_append (fun c => Operator.isBlank_of_mem_textOf) _
      have hnone : splitQuoted? m.rest = none :=
        splitQuoted?_eq_none_iff.2 fun u hu => absurd hu (hq u)
      refine ⟨op, ?_⟩
      rw [valuePattern, head?_matchesAt_seq, hops, List.findSome?_cons, head?_matchesAt_bodyPattern,
        hbody, if_pos ht, List.findSome?_cons, head?_matchesAt_bodyPattern, hnone, hb, hbare]
      simp [Match.followedBy, hgroups]

/-- What is taken for the operator of a value, wherever something follows it. -/
def TakesOperator (op : Option Operator) (v : Text) : Prop :=
  (Operator.split v).2 ≠ [] →
    Operator.textOf op ++ (Operator.split v).2 = v ∧ (Operator.split v).1 = op.getD .eq

lemma takesOperator_quoted (op : Option Operator) (inner : Text) :
    TakesOperator op (Operator.textOf op ++ quoted inner) := by
  intro _
  have hsplit : Operator.split (Operator.textOf op ++ quoted inner) = (op.getD .eq, quoted inner) :=
    Operator.split_textOf_append op _
  rw [hsplit]
  exact ⟨rfl, rfl⟩

/-- The end of a run does not change its operator. -/
lemma takesOperator_bare (hr : v ++ rest = r) (hb : startsBlank rest) :
    TakesOperator (Operator.leading? r) v := by
  intro _
  have hsplit := Operator.split_append (s := v) (t := rest) (Or.inr hb)
  have hlead : Operator.leading? v = Operator.leading? r := by
    have hboth : Operator.textOf (Operator.leading? v) ++ (Operator.split r).2
        = Operator.textOf (Operator.leading? r) ++ (Operator.split r).2 := by
      rw [Operator.textOf_leading?_append, ← hr, hsplit, ← List.append_assoc,
        Operator.textOf_leading?_append]
    exact Operator.textOf_injective (List.append_cancel_right hboth)
  rw [← hlead]
  exact ⟨Operator.textOf_leading?_append v, Operator.split_fst v⟩

/-- **The value that is found is the one that is cut off.** -/
theorem exists_match_of_splitValue? (h : splitValue? r = some (v, rest)) : ∃ op,
    (valuePattern.matchesAt r).head? = some ⟨v, operatorGroup op, rest⟩ ∧ TakesOperator op v := by
  have hr : startsBlank r = false := by
    by_contra hr
    rw [splitValue?_eq_none_iff.2 (by simpa using hr)] at h
    simp at h
  obtain ⟨op, hop, heq⟩ := splitValue?_eq hr
  have hlead : op = Operator.leading? r :=
    Operator.textOf_injective
      (List.append_cancel_right (hop.trans (Operator.textOf_leading?_append r).symm))
  rw [h] at heq
  cases hq : splitQuoted? (Operator.split r).2 with
  | some q =>
      obtain ⟨-, inner, hinner, -⟩ := splitQuoted?_eq_some_iff.1 hq
      simp only [hq, Option.some.injEq, Prod.mk.injEq] at heq
      obtain ⟨rfl, rfl⟩ := heq
      refine ⟨op, ?_, ?_⟩
      · rw [hlead]
        exact head?_matchesAt_valuePattern_of_body (by rw [hq]; rfl)
      · rw [hinner]
        exact takesOperator_quoted op inner
  | none =>
      simp only [hq, Option.some.injEq] at heq
      obtain ⟨happ, -, hstop⟩ := splitBare_eq_iff.1 heq.symm
      have hbare := splitBare_append (w := Operator.textOf op)
        (fun c => Operator.isBlank_of_mem_textOf) (Operator.split r).2
      rw [hop, ← heq] at hbare
      obtain ⟨hv, hrest⟩ := Prod.mk.inj hbare
      by_cases ht : startsBlank (Operator.split r).2
      · obtain ⟨op', hop'⟩ := head?_matchesAt_valuePattern_of_blank ht hr
        refine ⟨op', by rw [hop', ← heq], fun hne => absurd ?_ hne⟩
        -- the value is the operator alone
        have hnothing : splitBare (Operator.split r).2 = ([], (Operator.split r).2) :=
          splitBare_eq_iff.2 ⟨rfl, by simp, ht⟩
        have hsplit := Operator.split_append (s := v) (t := rest) (Or.inr hstop)
        rw [happ, hrest, hnothing] at hsplit
        exact List.self_eq_append_left.1 hsplit
      · have hbody := head?_matchesAt_valuePattern_of_body (r := r)
          (q := splitBare (Operator.split r).2) (by rw [hq, if_neg ht]; rfl)
        refine ⟨op, ?_, hlead ▸ takesOperator_bare happ hstop⟩
        rw [hbody, hv, hrest, hlead]

/-- An operator is not a blank, so where a blank stands there is nothing to try. -/
lemma head?_matchesAt_valuePattern_eq_none (h : splitValue? r = none) :
    (valuePattern.matchesAt r).head? = none := by
  have hb : startsBlank r := splitValue?_eq_none_iff.1 h
  have happ := Operator.textOf_leading?_append r
  have hlead : Operator.leading? r = none := by
    by_contra hne
    obtain ⟨op, hop⟩ := Option.ne_none_iff_exists'.1 hne
    have htext : Operator.textOf (some op) ≠ [] := by
      cases op <;> simp [Operator.textOf, Operator.text]
    rw [← happ, hop, startsBlank_append htext,
      startsBlank_eq_false htext fun c => Operator.isBlank_of_mem_textOf] at hb
    exact Bool.noConfusion hb
  obtain ⟨more, hops, hmore, -⟩ := matchesAt_operator r
  rw [hlead, Operator.textOf, Option.map_none, Option.getD_none, List.nil_append] at happ
  have hquoted : splitQuoted? r = none := by
    refine splitQuoted?_eq_none_iff.2 fun u hu => ?_
    rw [hu] at hb
    exact absurd hb (by simp [startsBlank]; decide)
  rw [valuePattern, head?_matchesAt_seq, hops, hmore.2 hlead, List.findSome?_cons,
    head?_matchesAt_bodyPattern, happ, hquoted, if_pos hb]
  rfl

/-! ## Filters -/

/-- The match of a filter: its texts, with what is taken for the operator. -/
structure Match.Reads (m : Match) (f : Span) (rest : Text) : Prop where
  text : m.text = f.text
  rest : m.rest = rest
  groups : ∃ op, m.groups = (.key, f.key) :: (.value, f.value) :: operatorGroup op ∧
    TakesOperator op f.value

/-- A key is taken whole, since no word goes on with a colon. -/
lemma matchesAt_filterPattern (hk : s.takeWhile isWord ≠ []) :
    filterPattern.matchesAt s
      = ((seq (exactly [chr ':']) (group .value valuePattern)).matchesAt (s.dropWhile isWord)).map
          (Match.followedBy
            ⟨s.takeWhile isWord, [(.key, s.takeWhile isWord)], s.dropWhile isWord⟩) := by
  have hcolon : ∀ c t, isWord c →
      (seq (exactly [chr ':']) (group .value valuePattern)).matchesAt (c :: t) = [] := by
    intro c t hc
    refine matchesAt_seq_exactly_eq_nil (fun u h => ?_) _
    rw [(List.cons.inj h).1] at hc
    exact absurd hc (by decide)
  have hrun := (longestFirst_atLeastOne hk).map (f := Match.named .key) fun _ => rfl
  exact hrun.matchesAt_seq (a := group .key (atLeastOne isWord)) hcolon

lemma head?_matchesAt_eq_none (h : Span.atStart? s = none) :
    (filterPattern.matchesAt s).head? = none := by
  simp only [Span.atStart?, List.isEmpty_iff] at h
  split at h
  · rename_i hk
    rw [filterPattern, head?_matchesAt_seq, matchesAt, matchesAt_atLeastOne_eq_nil hk]
    rfl
  · rename_i hk
    rw [matchesAt_filterPattern hk]
    split at h
    · rename_i r hr
      have hv := head?_matchesAt_valuePattern_eq_none (Option.map_eq_none_iff.1 h)
      rw [hr, matchesAt_seq_exactly_cons, matchesAt, List.head?_map, List.head?_map, List.head?_map,
        hv]
      rfl
    · rename_i hr
      rw [matchesAt_seq_exactly_eq_nil hr]
      rfl

lemma exists_match_of_atStart? (h : Span.atStart? s = some (f, rest)) :
    ∃ m, (filterPattern.matchesAt s).head? = some m ∧ m.Reads f rest := by
  simp only [Span.atStart?, List.isEmpty_iff] at h
  split at h
  · simp at h
  · rename_i hk
    rw [matchesAt_filterPattern hk]
    split at h
    · rename_i r hr
      simp only [Option.map_eq_some_iff, Prod.exists, Prod.mk.injEq] at h
      obtain ⟨v, rest, hv, rfl, rfl⟩ := h
      obtain ⟨op, hmatch, hop⟩ := exists_match_of_splitValue? hv
      rw [hr, matchesAt_seq_exactly_cons, matchesAt, List.head?_map, List.head?_map, List.head?_map,
        hmatch]
      exact ⟨_, rfl, rfl, rfl, op, rfl, hop⟩
    · simp at h

/-! ## The scan -/

/-- The search passes over a run of word characters that is no key. -/
lemma find?_append_of_isWord {w : Text} (hw : ∀ c ∈ w, isWord c)
    (h : w ≠ [] → Span.atStart? (w ++ t) = none) :
    filterPattern.find? (w ++ t)
      = (filterPattern.find? t).map fun (skipped, m) => (w ++ skipped, m) := by
  induction w with
  | nil => simp
  | cons c w ih =>
      have hnone := h (by simp)
      have htail : w ≠ [] → Span.atStart? (w ++ t) = none := by
        intro _
        by_contra hn
        obtain ⟨k, y, u, hk, hkw, hy, heq⟩ := Span.atStart?_ne_none_iff.1 hn
        refine Span.atStart?_ne_none_iff.2 ⟨c :: k, y, u, by simp, ?_, hy, ?_⟩ hnone
        · exact List.forall_mem_cons.2 ⟨hw c List.mem_cons_self, hkw⟩
        · simp [heq]
      rw [List.cons_append, Pattern.find?, ← List.cons_append, head?_matchesAt_eq_none hnone]
      simp only
      rw [ih (fun d hd => hw d (List.mem_cons_of_mem _ hd)) htail, Option.map_map]
      rfl

/-- The search passes over what the scan skips. -/
lemma find?_of_skip {c : CodePoint} (h : Span.atStart? (c :: s) = none) :
    filterPattern.find? (c :: s)
      = (filterPattern.find? (Span.skip c s).2).map fun (skipped, m) =>
          ((Span.skip c s).1 ++ skipped, m) := by
  cases hc : isWord c with
  | false =>
      rw [Span.skip_of_not_isWord hc, Pattern.find?, head?_matchesAt_eq_none h]
      rfl
  | true =>
      have hw : ∀ d ∈ c :: s.takeWhile isWord, isWord d :=
        List.forall_mem_cons.2 ⟨hc, fun _ hd => List.mem_takeWhile_imp hd⟩
      have happ : c :: s.takeWhile isWord ++ s.dropWhile isWord = c :: s := by
        simp [List.takeWhile_append_dropWhile]
      have hrun := find?_append_of_isWord (t := s.dropWhile isWord) hw fun _ => happ ▸ h
      rw [happ] at hrun
      rw [Span.skip_of_isWord hc, hrun]

lemma find?_of_first?_eq_none (h : Span.first? s = none) : filterPattern.find? s = none := by
  fun_induction Span.first? s with
  | case1 s f rest hs => simp at h
  | case2 hs =>
      rw [Pattern.find?, head?_matchesAt_eq_none hs]
      rfl
  | case3 c cs hs ih =>
      rw [find?_of_skip hs, ih (Option.map_eq_none_iff.1 h)]
      rfl

/-- **The leftmost match** of the pattern is the leftmost filter. -/
theorem exists_find?_of_first? (h : Span.first? s = some (before, f, rest)) :
    ∃ m, filterPattern.find? s = some (before, m) ∧ m.Reads f rest := by
  fun_induction Span.first? s generalizing before f rest with
  | case1 s f' rest' hs =>
      simp only [Option.some.injEq, Prod.mk.injEq] at h
      obtain ⟨rfl, rfl, rfl⟩ := h
      obtain ⟨m, hm, hreads⟩ := exists_match_of_atStart? hs
      refine ⟨m, ?_, hreads⟩
      cases s with
      | nil =>
          rw [Pattern.find?, hm]
          rfl
      | cons c s => rw [Pattern.find?, hm]
  | case2 hs => simp at h
  | case3 c cs hs ih =>
      simp only [Option.map_eq_some_iff, Prod.exists, Prod.mk.injEq] at h
      obtain ⟨gap, _, _, hf, rfl, rfl, rfl⟩ := h
      obtain ⟨m, hm, hreads⟩ := ih hf
      refine ⟨m, ?_, hreads⟩
      rw [find?_of_skip hs, hm]
      rfl

lemma findAllFrom_of_none (h : Span.first? s = none) : filterPattern.findAllFrom place s = [] := by
  rw [Pattern.findAllFrom, find?_of_first?_eq_none h]

lemma findAllFrom_of_some (place : Nat) (h : Span.first? s = some (before, f, rest)) :
    ∃ op, TakesOperator op f.value ∧ filterPattern.findAllFrom place s
      = ⟨place + before.length, place + before.length + f.text.length,
          (.key, f.key) :: (.value, f.value) :: operatorGroup op⟩ ::
        filterPattern.findAllFrom (place + before.length + f.text.length) rest := by
  obtain ⟨m, hm, htext, hrest, op, hgroups, hop⟩ := exists_find?_of_first? h
  refine ⟨op, hop, ?_⟩
  rw [Pattern.findAllFrom, hm]
  simp only [htext, hrest, hgroups, Span.length_lt_of_first? h, if_true]

/-- The spans of a scan, each with the place where it starts. -/
def placed (place : Nat) : List (Text × Span) → List (Nat × Span)
  | [] => []
  | (before, f) :: found =>
    (place + before.length, f) :: placed (place + before.length + f.text.length) found

lemma group?_operator (start stop : Nat) (key value : Text) (op : Option Operator) :
    Found.group? ⟨start, stop, (.key, key) :: (.value, value) :: operatorGroup op⟩ .operator
      = op.map Operator.text := by
  cases op <;> rfl

lemma map_findAllFrom (place : Nat) (s : Text) :
    (filterPattern.findAllFrom place s).map
        (fun m => (m.start, m.stop, m.group? .key, m.group? .value))
      = (placed place (spans s).1).map
        fun (start, f) => (start, start + f.text.length, some f.key, some f.value) := by
  induction s using scan_induction generalizing place with
  | done s hs =>
      rw [findAllFrom_of_none hs, spans_of_none hs]
      rfl
  | found s before f rest hs ih =>
      obtain ⟨op, -, hfound⟩ := findAllFrom_of_some place hs
      rw [hfound, spans_of_some hs, placed, List.map_cons, List.map_cons, ih]
      rfl

/-- Every match takes for the operator what the filter takes for it, if anything follows. -/
lemma takesOperator_of_mem_findAllFrom {m : Found} (h : m ∈ filterPattern.findAllFrom place s) :
    ∃ v op, m.group? .value = some v ∧ m.group? .operator = op.map Operator.text ∧
      TakesOperator op v := by
  induction s using scan_induction generalizing place with
  | done s hs =>
      rw [findAllFrom_of_none hs] at h
      simp at h
  | found s before f rest hs ih =>
      obtain ⟨op, hop, hfound⟩ := findAllFrom_of_some place hs
      rw [hfound] at h
      rcases List.mem_cons.1 h with rfl | h
      · exact ⟨f.value, op, rfl, group?_operator .., hop⟩
      · exact ih h

/-- **The scan is the pattern.**  The matches of the pattern, leftmost first, without overlap and
with backtracking, are the spans of the scan: they start and stop at the same places, and have the
same keys and values.  And wherever characters follow the longest operator that a value starts with,
the value is split at the operator that the pattern took. -/
theorem findAll_filterPattern (s : Text) :
    (filterPattern.findAll s).map (fun m => (m.start, m.stop, m.group? .key, m.group? .value))
        = (placed 0 (spans s).1).map
          (fun (start, f) => (start, start + f.text.length, some f.key, some f.value)) ∧
      ∀ m ∈ filterPattern.findAll s, ∃ v, m.group? .value = some v ∧
        ((Operator.split v).2 ≠ [] → ∃ op : Option Operator,
          m.group? .operator = op.map Operator.text ∧
            Operator.textOf op ++ (Operator.split v).2 = v ∧
            (Operator.split v).1 = op.getD .eq) := by
  refine ⟨map_findAllFrom 0 s, fun m hm => ?_⟩
  obtain ⟨v, op, hv, hgroup, hop⟩ := takesOperator_of_mem_findAllFrom hm
  exact ⟨v, hv, fun hne => ⟨op, hgroup, hop hne⟩⟩

/-- Of `>=` alone the second character is given back, and the operator is `>`. -/
example : filterPattern.findAll "x cost:>= 5".text
    = [⟨2, 9, [(.key, "cost".text), (.value, ">=".text), (.operator, ">".text)]⟩] := by
  decide +kernel

end LogSearch
