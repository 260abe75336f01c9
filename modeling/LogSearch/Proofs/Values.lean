import Mathlib.Data.List.TakeWhile
import LogSearch.Proofs.Words
import LogSearch.Query.Scan
import LogSearch.Query.Value

/-!
# What counts as a value

`splitValue?` cuts a value off by computation.  This module says which texts it cuts off, so that
no later proof has to open it.

* `IsQuotedValue`, `IsBareValue` — the two shapes of a value.  `splitValue?_eq_some_iff` says that
  exactly these are cut off, and `splitValue?_eq_none_iff` that only a blank or the end of the text
  stands in the way.
* `isUnclosed` — a value that starts with a double quote and does not close it.
-/

namespace LogSearch

variable {s t v rest : Text} {c : CodePoint}

/-! ## Characters -/

lemma isWord_eq_false_of_isBlank (h : isBlank c) : isWord c = false := by
  by_cases hn : c.toNat < 0x80
  · have hascii : ∀ n < 0x80, isBlank (.ofNat n) → isWord (.ofNat n) = false := by
      decide +kernel
    have := hascii c.toNat hn
    rw [CodePoint.ofNat_toNat] at this
    exact this h
  · -- the tables are long, so numerals are compared by a function that gives a Boolean
    have hwide : wideBlanks.all fun n =>
        wordRanges.all fun r => Nat.blt n r.1 || Nat.blt r.2 n := by
      decide +kernel
    rw [isBlank] at h
    rw [isWord]
    rw [if_neg hn] at h ⊢
    rw [inRanges, List.any_eq_false]
    intro r hr
    have hapart := List.all_eq_true.1 (List.all_eq_true.1 hwide _ (by simpa using h)) r hr
    simp only [Bool.or_eq_true, Nat.blt_eq] at hapart
    simp only [Bool.and_eq_true, decide_eq_true_eq]
    omega

lemma isBlank_eq_false_of_isWord (h : isWord c) : isBlank c = false := by
  by_contra hb
  rw [isWord_eq_false_of_isBlank (by simpa using hb)] at h
  exact Bool.noConfusion h

lemma not_mem_of_forall_isWord (h : ∀ d ∈ s, isWord d) (hc : isWord c = false) : c ∉ s := by
  intro hm
  rw [h c hm] at hc
  exact Bool.noConfusion hc

/-- A run of characters of a kind is cut off whole if a character of another kind follows. -/
lemma takeWhile_dropWhile_append {p : CodePoint → Bool} (hs : ∀ c ∈ s, p c)
    (ht : ∀ c ∈ t.head?, p c = false) :
    (s ++ t).takeWhile p = s ∧ (s ++ t).dropWhile p = t := by
  rw [List.takeWhile_append_of_pos hs, List.dropWhile_append_of_pos hs]
  cases t with
  | nil => simp
  | cons c t =>
      have hc : ¬ p c := by simpa using ht c rfl
      simp [hc]

/-! ## Operators -/

/-- The text of an operator that may be missing. -/
def Operator.textOf (o : Option Operator) : Text :=
  (o.map Operator.text).getD []

lemma Operator.isBlank_of_mem_textOf {o : Option Operator} (h : c ∈ Operator.textOf o) :
    isBlank c = false := by
  have hall : (Operator.textOf o).all (!isBlank ·) := by
    rcases o with _ | op
    · rfl
    · cases op <;> rfl
  simpa using List.all_eq_true.1 hall c h

lemma Operator.textOf_injective : Function.Injective Operator.textOf := by
  rintro (_ | op) (_ | op') h
  · rfl
  · cases op' <;> simp [textOf, text] at h
  · cases op <;> simp [textOf, text] at h
  · cases op <;> cases op' <;> simp [textOf, text] at h ⊢

/-- The operator that a text starts with. -/
def Operator.leading? (s : Text) : Option Operator :=
  (Operator.split? s).map Prod.fst

lemma Operator.textOf_leading?_append (s : Text) :
    Operator.textOf (Operator.leading? s) ++ (Operator.split s).2 = s := by
  cases h : Operator.split? s with
  | none => simp [leading?, split, h, textOf]
  | some o =>
      have hsplit : Operator.split s = o := by simp [split, h]
      rw [leading?, h, hsplit]
      exact Operator.text_append_of_split? h

lemma Operator.split_fst (s : Text) :
    (Operator.split s).1 = (Operator.leading? s).getD .eq := by
  cases h : Operator.split? s <;> simp [leading?, split, h]

/-- In front of a double quote an operator is split off as it was written. -/
lemma Operator.split_textOf_append (o : Option Operator) (s : Text) :
    Operator.split (Operator.textOf o ++ chr '"' :: s) = (o.getD .eq, chr '"' :: s) := by
  rcases o with _ | op
  · rfl
  · cases op <;> rfl

/-- An operator has at most two characters, and none of them is a blank.  So what follows two
characters, or starts with a blank, takes no part in it. -/
lemma Operator.split_append (h : 2 ≤ s.length ∨ startsBlank t) :
    (Operator.split (s ++ t)).2 = (Operator.split s).2 ++ t := by
  have hop : ∀ c ∈ [chr '>', chr '<', chr '!', chr '='], isBlank c = false := by simp; decide
  have ht : s.length < 2 → ∀ c r, t = c :: r → c ∉ [chr '>', chr '<', chr '!', chr '='] := by
    rintro hs c r rfl hc
    rcases h with h | h
    · omega
    · exact absurd h (by simp [startsBlank, hop c hc])
  unfold Operator.split
  fun_cases Operator.split? s with
  | case1 s | case2 s | case3 s | case6 s => simp [split?]
  | case4 s hn | case5 s hn =>
      have hne : ∀ r, s ++ t ≠ chr '=' :: r := by
        intro r hr
        rcases s with _ | ⟨b, s⟩
        · exact ht (by simp) _ _ hr (by simp)
        · exact hn s (by grind)
      simp [split?]
  | case7 s h₁ h₂ h₃ h₄ h₅ h₆ =>
      rcases s with _ | ⟨b, s⟩
      · cases t with
        | nil => rfl
        | cons c t =>
            have hc := ht (by simp) c t rfl
            simp only [List.mem_cons, List.not_mem_nil, or_false, not_or] at hc
            simp [split?, hc]
      · have hb : b ≠ chr '>' ∧ b ≠ chr '<' ∧ b ≠ chr '=' :=
          ⟨fun e => h₄ s (e ▸ rfl), fun e => h₅ s (e ▸ rfl), fun e => h₆ s (e ▸ rfl)⟩
        have hne : b = chr '!' → ∀ r, s ++ t ≠ chr '=' :: r := by
          rintro rfl r hr
          rcases s with _ | ⟨d, s⟩
          · exact ht (by simp) _ _ hr (by simp)
          · exact h₃ s ((List.cons.inj hr).1 ▸ rfl)
        by_cases he : b = chr '!'
        · subst he
          simp [split?, hne rfl]
        · simp [split?, hb, he]

/-! ## Values -/

lemma splitQuoted?_eq_some_iff {q : Text} :
    splitQuoted? s = some (q, rest) ↔
      q ++ rest = s ∧ ∃ inner, q = quoted inner ∧ chr '"' ∉ inner := by
  constructor
  · intro h
    refine ⟨splitQuoted?_append h, ?_⟩
    rw [splitQuoted?.eq_def] at h
    split at h
    · rename_i s
      split at h
      · simp at h
      · rename_i close after hd
        simp only [Option.some.injEq, Prod.mk.injEq] at h
        have hclose : close = chr '"' := by
          have := List.head?_dropWhile_not (· ≠ chr '"') s
          rw [hd] at this
          simpa using this
        refine ⟨s.takeWhile (· ≠ chr '"'), ?_, fun hin => ?_⟩
        · rw [← h.1, hclose]
          rfl
        · simpa using List.mem_takeWhile_imp hin
    · simp at h
  · rintro ⟨rfl, inner, rfl, hin⟩
    obtain ⟨htake, hdrop⟩ := takeWhile_dropWhile_append (s := inner) (t := chr '"' :: rest)
      (p := (· ≠ chr '"')) (fun c hc => decide_eq_true fun e => hin (e ▸ hc)) (by simp)
    simp only [quoted, List.cons_append, List.append_assoc, List.nil_append, splitQuoted?]
    rw [hdrop, htake]

lemma splitQuoted?_eq_none_iff : splitQuoted? s = none ↔ ∀ r, s = chr '"' :: r → chr '"' ∉ r := by
  rw [splitQuoted?.eq_def]
  split
  · rename_i s
    have h : s.dropWhile (· ≠ chr '"') = [] ↔ chr '"' ∉ s := by
      rw [List.dropWhile_eq_nil_iff]
      simp only [ne_eq, decide_not, Bool.not_eq_true', decide_eq_false_iff_not]
      exact ⟨fun h hs => h _ hs rfl, fun h c hc e => h (e ▸ hc)⟩
    split
    · rename_i hd
      simpa using h.1 hd
    · rename_i hd
      refine ⟨fun hn => by simp at hn, fun hn => ?_⟩
      rw [h.2 (hn s rfl)] at hd
      simp at hd
  · rename_i hs
    simpa using fun r hr => absurd hr (hs r)

/-- A quoted value: an operator, if any, and a text without double quotes between two of them. -/
def IsQuotedValue (v : Text) : Prop :=
  ∃ op inner, v = Operator.textOf op ++ quoted inner ∧ chr '"' ∉ inner

/-- A bare value in front of a text: it goes on up to a blank.  If it starts with a double quote
after its operator, no other one follows in it or behind it. -/
structure IsBareValue (v rest : Text) : Prop where
  ne_nil : v ≠ []
  no_blank : ∀ c ∈ v, isBlank c = false
  stops : startsBlank rest
  unclosed : ∀ r, (Operator.split v).2 = chr '"' :: r → chr '"' ∉ r ++ rest

lemma IsQuotedValue.startsBlank_append (h : IsQuotedValue v) (rest : Text) :
    startsBlank (v ++ rest) = false := by
  obtain ⟨op, inner, rfl, -⟩ := h
  rcases op with _ | op
  · rfl
  · cases op <;> rfl

lemma splitValue?_eq (h : startsBlank s = false) :
    ∃ op, Operator.textOf op ++ (Operator.split s).2 = s ∧
      splitValue? s = match splitQuoted? (Operator.split s).2 with
        | some (q, r) => some (Operator.textOf op ++ q, r)
        | none => some (splitBare s) := by
  rw [splitValue?, if_neg (by simp [h])]
  cases ho : Operator.split? s with
  | none =>
      have hsplit : Operator.split s = (.eq, s) := by simp [Operator.split, ho]
      rw [hsplit]
      exact ⟨none, rfl, rfl⟩
  | some o =>
      have hsplit : Operator.split s = o := by simp [Operator.split, ho]
      rw [hsplit]
      exact ⟨some o.1, Operator.text_append_of_split? ho, rfl⟩

lemma splitBare_eq_iff : splitBare s = (v, rest) ↔
    v ++ rest = s ∧ (∀ c ∈ v, isBlank c = false) ∧ startsBlank rest := by
  constructor
  · intro h
    obtain ⟨rfl, rfl⟩ : s.takeWhile (!isBlank ·) = v ∧ s.dropWhile (!isBlank ·) = rest := by
      simpa [splitBare] using h
    refine ⟨List.takeWhile_append_dropWhile, fun c hc => ?_, ?_⟩
    · simpa using List.mem_takeWhile_imp hc
    · have hhead := List.head?_dropWhile_not (!isBlank ·) s
      cases hr : s.dropWhile (!isBlank ·) with
      | nil => rfl
      | cons c r => simpa [hr, startsBlank] using hhead
  · rintro ⟨rfl, hb, hstops⟩
    have hhead : ∀ c ∈ rest.head?, (!isBlank c) = false := by
      intro c hc
      obtain ⟨r, hr⟩ := List.head?_eq_some_iff.1 hc
      simpa [hr, startsBlank] using hstops
    obtain ⟨htake, hdrop⟩ := takeWhile_dropWhile_append (by simpa using hb) hhead
    rw [splitBare, htake, hdrop]

lemma IsQuotedValue.splitValue?_eq_some (h : IsQuotedValue v) (rest : Text) :
    splitValue? (v ++ rest) = some (v, rest) := by
  obtain ⟨op, hop, heq⟩ := splitValue?_eq (h.startsBlank_append rest)
  obtain ⟨op', inner, rfl, hin⟩ := h
  have hsplit : (Operator.split (Operator.textOf op' ++ quoted inner ++ rest)).2
      = quoted inner ++ rest := by
    rw [List.append_assoc]
    exact congrArg Prod.snd (Operator.split_textOf_append op' _)
  have hq : splitQuoted? (quoted inner ++ rest) = some (quoted inner, rest) :=
    splitQuoted?_eq_some_iff.2 ⟨rfl, inner, rfl, hin⟩
  rw [hsplit, List.append_assoc] at hop
  rw [heq, hsplit, hq, List.append_cancel_right hop]

lemma IsBareValue.splitValue?_eq_some (h : IsBareValue v rest) :
    splitValue? (v ++ rest) = some (v, rest) := by
  have hs : startsBlank (v ++ rest) = false := by
    rw [startsBlank_append h.ne_nil]
    exact startsBlank_eq_false h.ne_nil h.no_blank
  obtain ⟨op, hop, heq⟩ := splitValue?_eq hs
  have hq : splitQuoted? (Operator.split (v ++ rest)).2 = none := by
    refine splitQuoted?_eq_none_iff.2 fun r hr => ?_
    rw [Operator.split_append (Or.inr h.stops)] at hr
    rcases List.append_eq_cons_iff.1 hr with ⟨-, hr⟩ | ⟨r', hr', rfl⟩
    · -- nothing but an operator: what follows starts with a blank, not with a quote
      have hb : isBlank (chr '"') := by simpa [hr, startsBlank] using h.stops
      exact absurd hb (by decide)
    · exact h.unclosed r' hr'
  rw [heq, hq]
  exact congrArg some (splitBare_eq_iff.2 ⟨rfl, h.no_blank, h.stops⟩)

/-- **The values.**  What is cut off after a colon is a quoted or a bare value. -/
theorem splitValue?_eq_some_iff :
    splitValue? s = some (v, rest) ↔ v ++ rest = s ∧ (IsQuotedValue v ∨ IsBareValue v rest) := by
  constructor
  · intro h
    refine ⟨splitValue?_append h, ?_⟩
    have hs : startsBlank s = false := by
      by_contra hs
      simp [splitValue?, hs] at h
    obtain ⟨op, hop, heq⟩ := splitValue?_eq hs
    rw [h] at heq
    split at heq
    · rename_i q r hq
      obtain ⟨rfl, rfl⟩ : v = Operator.textOf op ++ q ∧ rest = r := by simpa using heq
      obtain ⟨-, inner, rfl, hin⟩ := splitQuoted?_eq_some_iff.1 hq
      exact Or.inl ⟨op, inner, rfl, hin⟩
    · rename_i hq
      obtain ⟨rfl, hb, hstops⟩ := splitBare_eq_iff.1 (Option.some.inj heq).symm
      refine Or.inr ⟨?_, hb, hstops, fun r hr => ?_⟩
      · rintro rfl
        rw [List.nil_append, hstops] at hs
        exact Bool.noConfusion hs
      · refine splitQuoted?_eq_none_iff.1 hq _ ?_
        rw [Operator.split_append (Or.inr hstops), hr, List.cons_append]
  · rintro ⟨rfl, h | h⟩
    · exact h.splitValue?_eq_some rest
    · exact h.splitValue?_eq_some

lemma splitValue?_eq_none_iff : splitValue? s = none ↔ startsBlank s := by
  constructor
  · intro h
    by_contra hs
    obtain ⟨op, -, heq⟩ := splitValue?_eq (s := s) (by simpa using hs)
    rw [h] at heq
    split at heq <;> simp at heq
  · intro h
    simp [splitValue?, h]

/-- Whether a value starts with a double quote, its operator aside, that it does not close. -/
def isUnclosed (v : Text) : Bool :=
  match (Operator.split v).2 with
  | chr '"' :: r => !r.contains (chr '"')
  | _ => false

lemma isUnclosed_iff : isUnclosed v ↔ ∃ r, (Operator.split v).2 = chr '"' :: r ∧ chr '"' ∉ r := by
  rw [isUnclosed]
  split
  · rename_i r hr
    simp [hr]
  · rename_i hr
    simpa using fun r hr' => absurd hr' (hr r)

lemma mem_of_isUnclosed (h : isUnclosed v) : chr '"' ∈ v := by
  obtain ⟨r, hr, -⟩ := isUnclosed_iff.1 h
  rw [← Operator.textOf_leading?_append v, hr]
  simp

lemma IsQuotedValue.isUnclosed_eq_false (h : IsQuotedValue v) : isUnclosed v = false := by
  obtain ⟨op, inner, rfl, -⟩ := h
  have hsplit : (Operator.split (Operator.textOf op ++ quoted inner)).2 = quoted inner :=
    congrArg Prod.snd (Operator.split_textOf_append op _)
  by_contra hu
  obtain ⟨r, hr, hnr⟩ := isUnclosed_iff.1 (by simpa using hu)
  rw [hsplit] at hr
  obtain rfl : inner ++ [chr '"'] = r := (List.cons.inj hr).2
  simp at hnr

end LogSearch
