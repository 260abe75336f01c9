import LogSearch.Query.Operator
import LogSearch.Text.Class

/-!
# Finding filters in a query

A filter is a key, a colon and a value with nothing between them.  The key is a run of word
characters.  The value starts right after the colon: an operator, if there is one, and then either
a text in double quotes, which may hold blanks, or everything up to the next blank.  A double quote
that is never closed is an ordinary character.

* `splitValue?` — cuts the value off the text after a colon.
* `Span.atStart?` — a filter at the start of a text.
* `Span.first?` — the leftmost filter, with the text before and after it.
* `spans` — all filters from left to right, each with the text since the one before, and the text
  after the last.
-/

namespace LogSearch

/-! ## Values -/

/-- Cuts a double-quoted text off the front, both quotes included, if a closing quote follows. -/
def splitQuoted? : Text → Option (Text × Text)
  | chr '"' :: s =>
    match s.dropWhile (· ≠ chr '"') with
    | [] => none
    | close :: rest => some (chr '"' :: s.takeWhile (· ≠ chr '"') ++ [close], rest)
  | _ => none

/-- Cuts the characters up to the next blank off the front. -/
def splitBare (s : Text) : Text × Text :=
  (s.takeWhile (!isBlank ·), s.dropWhile (!isBlank ·))

/-- Cuts the value off the text after a colon; there is none if a blank follows the colon. -/
def splitValue? (s : Text) : Option (Text × Text) :=
  if startsBlank s then none
  else
    let (op, rest) := match Operator.split? s with
      | some (op, rest) => (op.text, rest)
      | none => ([], s)
    match splitQuoted? rest with
    | some (value, after) => some (op ++ value, after)
    | none => some (splitBare s)

/-- Cutting off a quoted text loses nothing. -/
theorem splitQuoted?_append {s value rest : Text} (h : splitQuoted? s = some (value, rest)) :
    value ++ rest = s := by
  unfold splitQuoted? at h
  split at h
  · rename_i s
    split at h
    · simp at h
    · rename_i close after hd
      simp only [Option.some.injEq, Prod.mk.injEq] at h
      obtain ⟨rfl, rfl⟩ := h
      have := List.takeWhile_append_dropWhile (p := (· ≠ chr '"')) (l := s)
      rw [hd] at this
      simpa using this
  · simp at h

/-- Cutting off a value loses nothing. -/
theorem splitValue?_append {s value rest : Text} (h : splitValue? s = some (value, rest)) :
    value ++ rest = s := by
  unfold splitValue? at h
  split at h
  · simp at h
  · cases ho : Operator.split? s with
    | none =>
      rw [ho] at h
      cases hq : splitQuoted? s with
      | none =>
        simp [hq, splitBare] at h
        obtain ⟨rfl, rfl⟩ := h
        exact List.takeWhile_append_dropWhile
      | some q =>
        simp [hq] at h
        obtain ⟨rfl, rfl⟩ := h
        exact splitQuoted?_append hq
    | some o =>
      obtain ⟨op, after⟩ := o
      rw [ho] at h
      have hop := Operator.text_append_of_split? ho
      cases hq : splitQuoted? after with
      | none =>
        simp [hq, splitBare] at h
        obtain ⟨rfl, rfl⟩ := h
        exact List.takeWhile_append_dropWhile
      | some q =>
        simp [hq] at h
        obtain ⟨rfl, rfl⟩ := h
        rw [List.append_assoc, splitQuoted?_append hq, hop]

/-! ## Spans -/

/-- A filter as it stands in a query: its key, and its value with operator and quotes. -/
structure Span where
  key : Text
  value : Text
  deriving DecidableEq

namespace Span

/-- The text that a filter was read from. -/
def text (f : Span) : Text :=
  f.key ++ chr ':' :: f.value

/-- A filter at the start of a text, and the text after it. -/
def atStart? (s : Text) : Option (Span × Text) :=
  let key := s.takeWhile isWord
  if key.isEmpty then none
  else match s.dropWhile isWord with
    | chr ':' :: r => (splitValue? r).map fun (value, rest) => (⟨key, value⟩, rest)
    | _ => none

/-- Cutting off a filter loses nothing. -/
theorem text_append_of_atStart? {s rest : Text} {f : Span} (h : atStart? s = some (f, rest)) :
    f.text ++ rest = s := by
  unfold atStart? at h
  simp only at h
  split at h
  · simp at h
  · split at h
    · rename_i r hr
      simp only [Option.map_eq_some_iff, Prod.exists, Prod.mk.injEq] at h
      obtain ⟨value, after, hv, rfl, rfl⟩ := h
      have hs := List.takeWhile_append_dropWhile (p := isWord) (l := s)
      rw [hr, ← splitValue?_append hv] at hs
      simpa [text] using hs
    · simp at h

/-- The characters at which no filter needs to be looked for next, and the text after them: a whole
run of word characters, or one other character. -/
def skip (c : CodePoint) (cs : Text) : Text × Text :=
  if isWord c then (c :: cs.takeWhile isWord, cs.dropWhile isWord) else ([c], cs)

/-- Skipping makes progress. -/
theorem length_skip_le (c : CodePoint) (cs : Text) : (skip c cs).2.length ≤ cs.length := by
  unfold skip
  split
  · exact (List.dropWhile_suffix _).length_le
  · exact Nat.le_refl _

/-- Skipping loses nothing. -/
theorem skip_append (c : CodePoint) (cs : Text) : (skip c cs).1 ++ (skip c cs).2 = c :: cs := by
  unfold skip
  split
  · simp [List.takeWhile_append_dropWhile]
  · simp

/-- The leftmost filter of a text, between the text before it and the text after it. -/
def first? (s : Text) : Option (Text × Span × Text) :=
  match atStart? s with
  | some (f, rest) => some ([], f, rest)
  | none =>
    match s with
    | [] => none
    | c :: cs =>
      (first? (skip c cs).2).map fun (before, f, rest) => ((skip c cs).1 ++ before, f, rest)
termination_by s.length
decreasing_by
  have := length_skip_le c cs
  simp
  omega

/-- The leftmost filter and the texts around it make up the whole. -/
theorem append_of_first? {s before rest : Text} {f : Span}
    (h : first? s = some (before, f, rest)) : before ++ f.text ++ rest = s := by
  fun_induction first? s generalizing before f rest with
  | case1 s f' rest' hs =>
    simp only [Option.some.injEq, Prod.mk.injEq] at h
    obtain ⟨rfl, rfl, rfl⟩ := h
    simpa using text_append_of_atStart? hs
  | case2 hs => simp at h
  | case3 c cs hs ih =>
    simp only [Option.map_eq_some_iff, Prod.exists, Prod.mk.injEq] at h
    obtain ⟨_, _, _, hf, rfl, rfl, rfl⟩ := h
    have := ih hf
    rw [← skip_append c cs, ← this]
    simp [List.append_assoc]

/-- The text after the leftmost filter is shorter than the whole. -/
theorem length_lt_of_first? {s before rest : Text} {f : Span}
    (h : first? s = some (before, f, rest)) : rest.length < s.length := by
  rw [← append_of_first? h]
  simp [text]
  omega

end Span

/-- The filters of a text from left to right, each after the text that precedes it, and the text
after the last. -/
def spans (s : Text) : List (Text × Span) × Text :=
  match _h : Span.first? s with
  | none => ([], s)
  | some (before, f, rest) =>
    let (fs, tail) := spans rest
    ((before, f) :: fs, tail)
termination_by s.length
decreasing_by exact Span.length_lt_of_first? (by assumption)

/-- Finding filters loses nothing.  The texts between the filters, the filters and the text
after the last make up the whole. -/
theorem spans_append (s : Text) :
    (spans s).1.flatMap (fun p => p.1 ++ p.2.text) ++ (spans s).2 = s := by
  fun_induction spans s with
  | case1 s h => simp
  | case2 s before f rest h fs tail hs ih =>
    rw [hs] at ih
    rw [← Span.append_of_first? h]
    simp only [List.flatMap_cons, List.append_assoc] at ih ⊢
    rw [ih]

end LogSearch
