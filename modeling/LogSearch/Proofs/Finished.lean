import Mathlib.Algebra.GroupWithZero.Nat
import LogSearch.Proofs.Offers
import LogSearch.Proofs.Verbatim

/-!
# Finished queries

A query is finished if its double quotes are even in number and no key waits for a value at its end.
The parser pairs quotes in another way: a quote opens a value only right behind a colon or an
operator, and elsewhere it is a mere character.  This module says how far the two agree.

* `strayQuotes` — the double quotes that take no part in the quoting of values.
* `forall_closed_iff` — a finished query leaves no quoted value open if and only if its stray quotes
  are even in number.  The proof counts quotes modulo two along the scan: a closed value has two,
  and only the last value with quotes can be open.
* `agree_on_waiting_key` — of a key that waits for its value at the end there is only one notion.
  The check for finished queries, completion and the words of the text all see the same key, and the
  parser leaves it to the free text.
-/

namespace LogSearch

variable {s t key before after rest : Text} {f : Span} {c : CodePoint}

/-! ## Quotes in values -/

lemma Operator.not_mem_textOf (op : Option Operator) : chr '"' ∉ Operator.textOf op := by
  rcases op with _ | op
  · simp [textOf]
  · cases op <;> simp [textOf, text]

/-- Whether a value starts with a double quote, its operator aside. -/
def opensQuote (v : Text) : Bool :=
  (Operator.split v).2.head? == some (chr '"')

/-- How many double quotes a value holds as mere characters.  In a value that starts with a double
quote there are none: a second one would close it. -/
def strayIn (v : Text) : Nat :=
  if opensQuote v then 0 else v.count (chr '"')

lemma count_value (v : Text) : v.count (chr '"') = (Operator.split v).2.count (chr '"') := by
  have happ := congrArg (List.count (chr '"')) (Operator.textOf_leading?_append v)
  rw [List.count_append, List.count_eq_zero.2 (Operator.not_mem_textOf _), Nat.zero_add] at happ
  exact happ.symm

lemma isUnclosed_eq_false (h : opensQuote s = false) : isUnclosed s = false := by
  by_contra hu
  obtain ⟨r, hr, -⟩ := isUnclosed_iff.1 (by simpa using hu)
  simp [opensQuote, hr] at h

namespace Span

/-- A value has two quotes if it is closed and one if it is open, and no others unless it starts
with none. -/
lemma Fits.count_value_mod_two (h : f.Fits rest) :
    f.value.count (chr '"') % 2 = (strayIn f.value + (isUnclosed f.value).toNat) % 2 := by
  cases hopens : opensQuote f.value with
  | false => simp [strayIn, hopens, isUnclosed_eq_false hopens]
  | true =>
      rw [strayIn, hopens, if_pos rfl]
      rcases h.value with hquoted | hbare
      · rw [hquoted.isUnclosed_eq_false]
        obtain ⟨op, inner, hv, hin⟩ := hquoted
        have hinner := List.count_eq_zero.2 hin
        have hop := List.count_eq_zero.2 (Operator.not_mem_textOf op)
        simp [hv, quoted, List.count_append, hop, hinner]
      · obtain ⟨r, hr⟩ := List.head?_eq_some_iff.1 (beq_iff_eq.1 hopens)
        have hnr : chr '"' ∉ r := fun hm => hbare.unclosed r hr (List.mem_append_left _ hm)
        have hu : isUnclosed f.value := isUnclosed_iff.2 ⟨r, hr, hnr⟩
        rw [count_value, hr, hu, List.count_cons_self, List.count_eq_zero.2 hnr]
        rfl

/-- Keys hold no quotes. -/
lemma Fits.count_text (h : f.Fits rest) : f.text.count (chr '"') = f.value.count (chr '"') := by
  have hkey : chr '"' ∉ f.key := not_mem_of_forall_isWord h.key_word (by decide)
  simp [text, List.count_append, List.count_eq_zero.2 hkey]

end Span

/-! ## Quotes in queries -/

/-- How many double quotes of a query take no part in the quoting of its values: those outside
values, and those within values that do not start with one. -/
def strayQuotes (s : Text) : Nat :=
  ((spans s).1.map fun p => p.1.count (chr '"') + strayIn p.2.value).sum
    + (spans s).2.count (chr '"')

/-- Whether a value of a query starts with a double quote that it does not close. -/
def leavesOpen (s : Text) : Bool :=
  (spans s).1.any (isUnclosed ·.2.value)

lemma leavesOpen_eq_false (h : chr '"' ∉ s) : leavesOpen s = false := by
  refine List.any_eq_false.2 fun p hp hu => ?_
  exact h (mem_of_mem_spans hp (mem_of_isUnclosed hu))

/-- **Quotes modulo two.**  Behind an open value there are no more quotes, so at most one value is
open. -/
theorem count_mod_two (s : Text) :
    s.count (chr '"') % 2 = (strayQuotes s + (leavesOpen s).toNat) % 2 := by
  induction s using scan_induction with
  | done s hs => simp [strayQuotes, leavesOpen, spans_of_none hs]
  | found s before f rest hs ih =>
      obtain ⟨hfits, -⟩ := Span.fits_of_first? hs
      have hcount : s.count (chr '"')
          = before.count (chr '"') + f.value.count (chr '"') + rest.count (chr '"') := by
        rw [← Span.append_of_first? hs, List.count_append, List.count_append, hfits.count_text]
      have hvalue := hfits.count_value_mod_two
      have hstray : strayQuotes s
          = before.count (chr '"') + strayIn f.value + strayQuotes rest := by
        simp [strayQuotes, spans_of_some hs]
        omega
      have hopen : leavesOpen s = (isUnclosed f.value || leavesOpen rest) := by
        simp [leavesOpen, spans_of_some hs]
      cases hu : isUnclosed f.value with
      | false =>
          rw [hu] at hvalue hopen
          rw [hcount, hstray, hopen, Bool.false_or]
          simp only [Bool.toNat_false, Nat.add_zero] at hvalue
          omega
      | true =>
          have hrest := leavesOpen_eq_false (hfits.not_mem_of_isUnclosed hu)
          rw [hu] at hvalue hopen
          rw [hrest] at ih
          rw [hcount, hstray, hopen, Bool.true_or]
          simp only [Bool.toNat_true, Bool.toNat_false, Nat.add_zero] at hvalue ih ⊢
          omega

lemma count_mod_two_of_isFinished (h : isFinished s) : s.count (chr '"') % 2 = 0 := by
  simp only [isFinished, Bool.and_eq_true, beq_iff_eq] at h
  exact h.1

/-- **Open values of finished queries.**  In a finished query no value starts with a double quote,
its operator aside, that it does not close, if and only if the stray quotes are even in number:
those between the values, and those in values that do not start with one. -/
theorem forall_closed_iff (s : Text) (h : isFinished s) :
    (∀ p ∈ (spans s).1, isUnclosed p.2.value = false) ↔ strayQuotes s % 2 = 0 := by
  have hcount := count_mod_two s
  rw [count_mod_two_of_isFinished h] at hcount
  have hopen : (∀ p ∈ (spans s).1, isUnclosed p.2.value = false) ↔ leavesOpen s = false := by
    simp [leavesOpen]
  rw [hopen]
  cases hs : leavesOpen s <;> simp [hs] at hcount ⊢ <;> omega

/-- Two stray quotes around a closed value, one before and one behind it. -/
theorem forall_closed_iff_screen :
    let s := "24\" workflow:\"Daily report\" size:27\"".text
    isFinished s ∧ strayQuotes s = 2 ∧ ∀ p ∈ (spans s).1, isUnclosed p.2.value = false := by
  intro s
  have hfinished : isFinished s := by decide +kernel
  have hstray : strayQuotes s = 2 := by decide +kernel
  exact ⟨hfinished, hstray, (forall_closed_iff s hfinished).2 (by rw [hstray])⟩

/-- **A finished query with an open value.**  The quote before the key makes the number even. -/
theorem isFinished_with_open_value :
    let s := "24\" workflow:\"Daily report".text
    isFinished s ∧ (spans s).1 = [("24\" ".text, ⟨"workflow".text, "\"Daily".text⟩)] ∧
      strayQuotes s = 1 ∧ ¬ (isFinished s → ∀ p ∈ (spans s).1, isUnclosed p.2.value = false) := by
  decide +kernel

/-! ## Keys that wait for a value -/

/-- The last word of a text is a key without a value. -/
def WaitsForValue (s key : Text) : Prop :=
  IsKey key ∧ (words s).getLast? = some (key ++ [chr ':'])

lemma waitsForValue_iff : WaitsForValue s key ↔
    keyAndRest? (lastToken (s.rdropWhile isBlank)) = some (key, []) := by
  rw [WaitsForValue, getLast?_words_eq_some_iff (by simp), keyAndRest?_eq_some_iff, and_comm]

lemma endsInKey_iff : endsInKey s ↔ ∃ key, WaitsForValue s key := by
  have hdrop : (s.reverse.dropWhile isBlank).reverse = s.rdropWhile isBlank := rfl
  simp only [waitsForValue_iff, endsInKey, hdrop]
  split
  · rename_i key hk
    exact iff_of_true rfl ⟨key, hk⟩
  · rename_i hn
    exact iff_of_false Bool.false_ne_true fun ⟨key, hk⟩ => hn key hk

lemma bareKey?_rdropWhile_iff :
    Engine.bareKey? (s.rdropWhile isBlank) = some key ↔ WaitsForValue s key := by
  rw [bareKey?_eq_some_iff (endsBlank_rdropWhile s), waitsForValue_iff]

/-- A key that waits for its value starts a token, and only blanks follow its colon. -/
lemma WaitsForValue.exists_append (h : WaitsForValue s key) :
    ∃ pre w, s = pre ++ (key ++ chr ':' :: w) ∧ (pre = [] ∨ endsBlank pre) ∧
      ∀ c ∈ w, isBlank c := by
  obtain ⟨pre, happ, hpre, -⟩ := keyAndRest?_lastToken_iff.1 (waitsForValue_iff.1 h)
  refine ⟨pre, s.rtakeWhile isBlank, ?_, hpre, isBlank_of_mem_rtakeWhile⟩
  have hs := List.rdropWhile_append_rtakeWhile (p := isBlank) (l := s)
  rw [happ] at hs
  simpa using hs.symm

/-- A key with nothing but blanks behind its colon is found by no scan. -/
lemma first?_waiting {w : Text} (hkey : IsKey key) (hw : ∀ c ∈ w, isBlank c) :
    Span.first? (key ++ chr ':' :: w) = none := by
  have hblanks : HasNoKey (chr ':' :: w) := by
    intro x y hx hy hin
    rcases List.infix_cons_iff.1 hin with hpre | hin
    · obtain ⟨rfl, -⟩ := List.cons_prefix_cons.1 hpre
      exact absurd hx (by decide)
    · exact Span.first?_eq_none_iff.1 (Span.first?_of_forall_isBlank hw) x y hx hy hin
  have hcolon : chr ':' ∉ key := not_mem_of_forall_isWord hkey.2 (by decide)
  refine Span.first?_eq_none_iff.2 (hasNoKey_append ?_ hblanks ?_)
  · exact fun x hx => hcolon (hx.subset (by simp))
  · intro x y _ _ hy hpre
    obtain ⟨r, rfl⟩ := (List.cons_prefix_cons.1 hpre).2
    exact absurd (hw y (by simp)) (by simp [hy])

lemma words_waiting {w : Text} (hkey : IsKey key) (hw : ∀ c ∈ w, isBlank c) :
    words (key ++ chr ':' :: w) = [key ++ [chr ':']] := by
  have happ : key ++ chr ':' :: w = (key ++ [chr ':']) ++ w := by simp
  have hapart : Apart (key ++ [chr ':']) w := by
    cases w with
    | nil => exact Or.inr (Or.inr rfl)
    | cons c w => exact Or.inr (Or.inr (hw c List.mem_cons_self))
  rw [happ, words_append hapart, words_of_forall_isBlank hw,
    words_of_forall (by simp) (isBlank_of_key_colon hkey (by simp)), List.append_nil]

/-- What the scan finds before a token has a blank between them. -/
lemma Span.Occurs.endsBlank_after (h : f.Occurs s before after) (hs : endsBlank s) :
    endsBlank after := by
  have happ := h.append_eq
  by_cases hafter : after = []
  · rw [hafter, List.append_nil] at happ
    rw [← happ, endsBlank_append (by simp [text]), h.fits.endsBlank_text] at hs
    exact Bool.noConfusion hs
  · rwa [← happ, endsBlank_append hafter] at hs

/-- **One notion of a key that waits for its value.**  Let the double quotes of a query be even in
number.  It is unfinished if and only if its last word is a key and a colon, and completion takes
the same key for one without a value, the blanks at the end of the query aside.  The parser then
keeps that word as the last one of the free text, and everything that the scan finds, accepted or
not, ends before a blank in front of it. -/
theorem agree_on_waiting_key (s : Text) (heven : s.count (chr '"') % 2 = 0) :
    (isFinished s = false ↔ ∃ key, WaitsForValue s key) ∧
      (∀ key, WaitsForValue s key ↔ Engine.bareKey? (s.rdropWhile isBlank) = some key) ∧
      ∀ key, WaitsForValue s key →
        (words (Query.parse s).freeText).getLast? = some (key ++ [chr ':']) ∧
          ∀ f before after, Span.Occurs f s before after → ∃ gap w,
            after = gap ++ (key ++ chr ':' :: w) ∧ endsBlank gap ∧ ∀ c ∈ w, isBlank c := by
  refine ⟨?_, fun key => bareKey?_rdropWhile_iff.symm, fun key h => ?_⟩
  · rw [← endsInKey_iff]
    simp [isFinished, heven]
  · obtain ⟨pre, w, rfl, hpre, hw⟩ := h.exists_append
    have hnone := first?_waiting h.1 hw
    have hapart : Apart pre (key ++ chr ':' :: w) := hpre.imp_right Or.inl
    have hquote : chr '"' ∉ key ++ chr ':' :: w := by
      simp only [List.mem_append, List.mem_cons, not_or]
      exact ⟨not_mem_of_forall_isWord h.1.2 (by decide), by decide,
        not_mem_of_forall_isBlank hw (by decide)⟩
    have hkeep : KeepsQuotes pre (key ++ chr ':' :: w) := keepsQuotes_of_not_mem hquote
    constructor
    · rw [Query.words_freeText, Query.freeWords_append hapart hkeep, Query.freeWords_of_none hnone,
        words_waiting h.1 hw, List.getLast?_concat]
    · intro f before after hf
      obtain ⟨gap, hf', rfl⟩ := hf.of_append hnone hapart hkeep
      refine ⟨gap, w, rfl, hf'.endsBlank_after (hpre.resolve_left ?_), hw⟩
      rintro rfl
      simpa [Span.text] using hf'.append_eq

/-- A key at the end of a query with an open value in it and a stray quote before that. -/
theorem agree_on_waiting_key_trigger :
    let s := "24\" workflow:\"Daily level:error trigger:\n ".text
    s.count (chr '"') % 2 = 0 ∧ isFinished s = false ∧ WaitsForValue s "trigger".text ∧
      Engine.bareKey? (s.rdropWhile isBlank) = some "trigger".text ∧
      (words (Query.parse s).freeText).getLast? = some "trigger:".text ∧
      ∀ f before after, Span.Occurs f s before after → ∃ gap w,
        after = gap ++ ("trigger".text ++ chr ':' :: w) ∧ endsBlank gap ∧ ∀ c ∈ w, isBlank c := by
  intro s
  have heven : s.count (chr '"') % 2 = 0 := by decide +kernel
  have hbare : Engine.bareKey? (s.rdropWhile isBlank) = some "trigger".text := by decide +kernel
  obtain ⟨hunfinished, hkey, hparse⟩ := agree_on_waiting_key s heven
  have hwaits := (hkey _).2 hbare
  obtain ⟨hlast, hspans⟩ := hparse _ hwaits
  exact ⟨heven, hunfinished.2 ⟨_, hwaits⟩, hwaits, hbare, hlast, hspans⟩

end LogSearch
