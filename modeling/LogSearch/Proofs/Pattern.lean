import LogSearch.Proofs.Values

/-!
# Patterns and backtracking

A pattern is matched from left to right.  Where it leaves a choice, the choices are tried in order,
and a later one is tried only if everything after the earlier one fails.  So the meaning of a
pattern is the list of all its matches at the start of a text, in order of preference, and the match
that is found is the first of them.

* `Pattern` — literal texts, kinds of characters, runs, sequences, alternatives, optional parts and
  named groups.  Only single characters are repeated.
* `Pattern.matchesAt` — the matches at the start of a text.  Of a run the longest comes first.
* `Pattern.find?` — the leftmost match, and `Pattern.findAll` — all matches that do not overlap,
  with their places.
* `longestFirst_many` — all runs but the longest are followed by a character that would have
  continued them.  So a run in front of anything else is taken whole
  (`LongestFirst.matchesAt_seq`).
-/

namespace LogSearch

/-- Names of groups. -/
inductive GroupName where
  | key | value | operator
  deriving DecidableEq

/-- Patterns for texts. -/
inductive Pattern where
  /-- A literal text. -/
  | exactly (w : Text)
  /-- One character of a kind. -/
  | one (p : CodePoint → Bool)
  /-- Any number of characters of a kind, as many as possible. -/
  | many (p : CodePoint → Bool)
  | seq (a b : Pattern)
  /-- The first pattern, or else the second. -/
  | alt (a b : Pattern)
  /-- The pattern, or else nothing. -/
  | opt (a : Pattern)
  | group (name : GroupName) (a : Pattern)

/-- A match at the start of a text: what is matched, the groups in it, and the text behind it. -/
structure Match where
  text : Text
  groups : List (GroupName × Text)
  rest : Text
  deriving DecidableEq

namespace Match

/-- A match of nothing. -/
def nothing (s : Text) : Match := ⟨[], [], s⟩

/-- A match followed by another one. -/
def followedBy (m n : Match) : Match :=
  ⟨m.text ++ n.text, m.groups ++ n.groups, n.rest⟩

/-- A match whose text is a group. -/
def named (name : GroupName) (m : Match) : Match :=
  { m with groups := (name, m.text) :: m.groups }

end Match

/-! ## Matching -/

/-- The runs of characters of a kind at the start of a text, the longest first. -/
def runs (p : CodePoint → Bool) : Text → List Match
  | [] => [.nothing []]
  | c :: s =>
    if p c then (runs p s).map (Match.followedBy ⟨[c], [], s⟩) ++ [.nothing (c :: s)]
    else [.nothing (c :: s)]

namespace Pattern

/-- The matches of a pattern at the start of a text, in order of preference. -/
def matchesAt : Pattern → Text → List Match
  | exactly w, s => if w.isPrefixOf s then [⟨w, [], s.drop w.length⟩] else []
  | one _, [] => []
  | one p, c :: s => if p c then [⟨[c], [], s⟩] else []
  | many p, s => runs p s
  | seq a b, s => (a.matchesAt s).flatMap fun m => (b.matchesAt m.rest).map m.followedBy
  | alt a b, s => a.matchesAt s ++ b.matchesAt s
  | opt a, s => a.matchesAt s ++ [.nothing s]
  | group name a, s => (a.matchesAt s).map (Match.named name)

/-- The leftmost match in a text, after the text that is passed over. -/
def find? (p : Pattern) : Text → Option (Text × Match)
  | [] => (p.matchesAt []).head?.map ([], ·)
  | c :: s =>
    match (p.matchesAt (c :: s)).head? with
    | some m => some ([], m)
    | none => (find? p s).map fun (skipped, m) => (c :: skipped, m)

end Pattern

/-- A match at its place in a text. -/
structure Found where
  start : Nat
  stop : Nat
  groups : List (GroupName × Text)
  deriving DecidableEq

/-- The text of a group, if it took part in the match. -/
def Found.group? (m : Found) (name : GroupName) : Option Text :=
  m.groups.lookup name

/-- The matches in a text that starts at a place, each leftmost in what the one before leaves.  The
search ends where a match takes nothing off the text. -/
def Pattern.findAllFrom (p : Pattern) (place : Nat) (s : Text) : List Found :=
  match p.find? s with
  | none => []
  | some (skipped, m) =>
    let start := place + skipped.length
    let stop := start + m.text.length
    ⟨start, stop, m.groups⟩ ::
      if m.rest.length < s.length then p.findAllFrom stop m.rest else []
termination_by s.length

/-- The matches in a text from left to right, without overlap. -/
def Pattern.findAll (p : Pattern) (s : Text) : List Found :=
  p.findAllFrom 0 s

/-! ## Choices -/

namespace Pattern

variable {a b : Pattern} {p : CodePoint → Bool} {s : Text} {m : Match}

/-- One character of a kind or more, as many as possible. -/
def atLeastOne (p : CodePoint → Bool) : Pattern :=
  seq (one p) (many p)

/-- One of several texts, tried in order. -/
def oneOf (w : Text) : List Text → Pattern
  | [] => exactly w
  | v :: vs => alt (exactly w) (oneOf v vs)

lemma mem_matchesAt_oneOf {w : Text} {ws : List Text} (h : m ∈ (oneOf w ws).matchesAt s) :
    m.text ∈ w :: ws ∧ m.groups = [] := by
  have hword : ∀ w, m ∈ (exactly w).matchesAt s → m.text = w ∧ m.groups = [] := by
    intro w h
    rw [matchesAt] at h
    split at h
    · rw [List.mem_singleton.1 h]
      exact ⟨rfl, rfl⟩
    · simp at h
  induction ws generalizing w with
  | nil =>
      obtain ⟨htext, hgroups⟩ := hword w h
      exact ⟨by simp [htext], hgroups⟩
  | cons v vs ih =>
      rcases List.mem_append.1 h with h | h
      · obtain ⟨htext, hgroups⟩ := hword w h
        exact ⟨by simp [htext], hgroups⟩
      · obtain ⟨htext, hgroups⟩ := ih h
        exact ⟨List.mem_cons_of_mem _ htext, hgroups⟩

lemma head?_matchesAt_alt (a b : Pattern) (s : Text) :
    ((alt a b).matchesAt s).head? = (a.matchesAt s).head?.or (b.matchesAt s).head? := by
  rw [matchesAt, List.head?_append]

lemma head?_matchesAt_seq (a b : Pattern) (s : Text) :
    ((seq a b).matchesAt s).head?
      = (a.matchesAt s).findSome? fun m => (b.matchesAt m.rest).head?.map m.followedBy := by
  rw [matchesAt, List.head?_flatMap]
  congr 1
  funext m
  rw [List.head?_map]

lemma matchesAt_seq_exactly_cons (c : CodePoint) (b : Pattern) (s : Text) :
    (seq (exactly [c]) b).matchesAt (c :: s)
      = (b.matchesAt s).map (Match.followedBy ⟨[c], [], s⟩) := by
  simp [matchesAt]

lemma matchesAt_seq_exactly_eq_nil {c : CodePoint} (h : ∀ t, s ≠ c :: t) (b : Pattern) :
    (seq (exactly [c]) b).matchesAt s = [] := by
  have hnone : ¬ [c] <+: s := fun hc => hc.elim fun t ht => h t ht.symm
  simp [matchesAt, hnone]

/-! ## Runs -/

/-- Matches that end with a run of a kind: the first one takes the whole run, and behind each other
one stands a character that would have continued it. -/
def LongestFirst (p : CodePoint → Bool) (m : Match) (ms : List Match) : Prop :=
  ∃ shorter, ms = m :: shorter ∧ ∀ n ∈ shorter, ∃ c t, n.rest = c :: t ∧ p c

lemma LongestFirst.map {ms : List Match} (h : LongestFirst p m ms) {f : Match → Match}
    (hf : ∀ m, (f m).rest = m.rest) : LongestFirst p (f m) (ms.map f) := by
  obtain ⟨shorter, rfl, hstop⟩ := h
  refine ⟨shorter.map f, rfl, fun n hn => ?_⟩
  obtain ⟨n', hn', rfl⟩ := List.mem_map.1 hn
  rw [hf]
  exact hstop n' hn'

lemma longestFirst_many (p : CodePoint → Bool) (s : Text) :
    LongestFirst p ⟨s.takeWhile p, [], s.dropWhile p⟩ ((many p).matchesAt s) := by
  rw [matchesAt]
  induction s with
  | nil => exact ⟨[], rfl, by simp⟩
  | cons c s ih =>
      by_cases hc : p c
      · obtain ⟨shorter, hs, hstop⟩ := ih.map (f := Match.followedBy ⟨[c], [], s⟩) fun _ => rfl
        refine ⟨shorter ++ [.nothing (c :: s)], ?_, ?_⟩
        · simp [runs, hc, hs, Match.followedBy]
        · intro n hn
          rcases List.mem_append.1 hn with hn | hn
          · exact hstop n hn
          · obtain rfl := List.mem_singleton.1 hn
            exact ⟨c, s, rfl, hc⟩
      · exact ⟨[], by simp [runs, hc, Match.nothing], by simp⟩

lemma matchesAt_atLeastOne_eq_nil (h : s.takeWhile p = []) :
    (atLeastOne p).matchesAt s = [] := by
  cases s with
  | nil => rfl
  | cons c s =>
      have hc : ¬ p c := fun hc => by simp [hc] at h
      simp [atLeastOne, matchesAt, hc]

lemma longestFirst_atLeastOne (h : s.takeWhile p ≠ []) :
    LongestFirst p ⟨s.takeWhile p, [], s.dropWhile p⟩ ((atLeastOne p).matchesAt s) := by
  cases s with
  | nil => simp at h
  | cons c s =>
      have hc : p c := by
        by_contra hc
        simp [hc] at h
      have hruns := (longestFirst_many p s).map (f := Match.followedBy ⟨[c], [], s⟩) fun _ => rfl
      simpa [atLeastOne, matchesAt, hc, Match.followedBy] using hruns

/-- **A run in front of something else** is taken whole: the pattern behind it matches at no other
place. -/
lemma LongestFirst.matchesAt_seq (h : LongestFirst p m (a.matchesAt s))
    (hb : ∀ c t, p c → b.matchesAt (c :: t) = []) :
    (seq a b).matchesAt s = (b.matchesAt m.rest).map m.followedBy := by
  obtain ⟨shorter, hs, hstop⟩ := h
  have hnone : ∀ n ∈ shorter, (b.matchesAt n.rest).map n.followedBy = [] := by
    intro n hn
    obtain ⟨c, t, ht, hc⟩ := hstop n hn
    rw [ht, hb c t hc, List.map_nil]
  rw [matchesAt, hs, List.flatMap_cons, List.flatMap_eq_nil_iff.2 hnone, List.append_nil]

end Pattern

end LogSearch
