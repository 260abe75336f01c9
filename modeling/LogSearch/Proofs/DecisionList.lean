import Mathlib.Data.List.Nodup
import LogSearch.Proofs.ClosedNames

/-!
# The decision list of completion

What is offered depends on how the text before the cursor ends.  The rules are documented as a list,
in which the first rule that applies gives the answer.  The engine decides otherwise: it looks for a
key without a value first, and takes the context of the cursor for the rest.

* `Rule`, `decisionList` — the documented rules, each stated on the text before the cursor and its
  last token alone.
* `FirstAnswer` — the answer of the first rule of a list that applies; there is at most one.
* `suggest?_eq_iff_firstAnswer` — the engine gives this answer, unless the text ends in a key
  without a value and a line break.
-/

namespace LogSearch

variable {e : Engine} {before key typed : Text} {g g' : Option Group} {d d' : Definition}

/-! ## The rules -/

/-- Whether a field can still become of what is typed: its key or its label starts with it, ignoring
case. -/
def Definition.StartsWith (d : Definition) (typed : Text) : Prop :=
  lower typed <+: lower d.key ∨ lower typed <+: lower d.label

/-- The only field that what is typed can become. -/
def IsOnlyField (typed : Text) (d : Definition) : Prop :=
  d ∈ catalog ∧ d.StartsWith typed ∧ ∀ d' ∈ catalog, d'.StartsWith typed → d' = d

/-- A rule gives an answer for the text before the cursor, or does not apply. -/
abbrev Rule := Engine → Text → Option Group → Prop

namespace Rule

/-- After a blank or at the start: all keys. -/
def newToken : Rule := fun e before g =>
  (before = [] ∨ endsBlank before) ∧ g = some (e.keyGroup [])

/-- After `key:`, the values of the key. -/
def bareKey : Rule := fun e before g =>
  ∃ key, IsKey key ∧ lastToken before = key ++ [chr ':'] ∧ g = e.valueGroup? key []

/-- After `key:typed`, all keys if the value is complete, and otherwise the values of the key that
contain what is typed. -/
def value : Rule := fun e before g =>
  ∃ key typed, IsKey key ∧ lastToken before = key ++ chr ':' :: typed ∧
    g = if isComplete key typed then some (e.keyGroup []) else e.valueGroup? key typed

/-- After a closed quoted value that is complete, all keys. -/
def closedName : Rule := fun e before g =>
  ∃ key name, EndsInQuoted before key name ∧ isComplete key (quoted name) ∧
    g = some (e.keyGroup [])

/-- After a bare word, the values of the only field that it can become, or else the keys that it can
become. -/
def word : Rule := fun e before g =>
  IsKey (lastToken before) ∧
    ((∃ d, IsOnlyField (lastToken before) d ∧ g = e.valueGroup? d.key []) ∨
      (¬ ∃ d, IsOnlyField (lastToken before) d) ∧ g = some (e.keyGroup (lastToken before)))

/-- Nothing. -/
def nothing : Rule := fun _ _ g => g = none

end Rule

/-- The rules of completion, in order. -/
def decisionList : List Rule :=
  [.newToken, .bareKey, .value, .closedName, .word, .nothing]

/-- The answer of the first rule that applies. -/
inductive FirstAnswer (e : Engine) (before : Text) : List Rule → Option Group → Prop
  | here {r : Rule} {rs : List Rule} {g : Option Group} (h : r e before g) :
      FirstAnswer e before (r :: rs) g
  | later {r : Rule} {rs : List Rule} {g : Option Group} (hr : ∀ g', ¬ r e before g')
      (h : FirstAnswer e before rs g) : FirstAnswer e before (r :: rs) g

/-! ## One answer -/

/-- A rule that gives at most one answer. -/
def Rule.IsFunctional (r : Rule) : Prop :=
  ∀ e before g g', r e before g → r e before g' → g = g'

lemma FirstAnswer.unique {rs : List Rule} (hrs : ∀ r ∈ rs, Rule.IsFunctional r)
    (h : FirstAnswer e before rs g) (h' : FirstAnswer e before rs g') : g = g' := by
  induction h with
  | here h =>
      cases h' with
      | here h' => exact hrs _ List.mem_cons_self e before _ _ h h'
      | later hr _ => exact absurd h (hr _)
  | later hr _ ih =>
      cases h' with
      | here h' => exact absurd h' (hr _)
      | later _ h' => exact ih (fun r hr => hrs r (List.mem_cons_of_mem _ hr)) h'

lemma bareKey_iff : Rule.bareKey e before g ↔
    ∃ key, keyAndRest? (lastToken before) = some (key, []) ∧ g = e.valueGroup? key [] := by
  simp only [Rule.bareKey, keyAndRest?_eq_some_iff, and_assoc, and_left_comm]

lemma value_iff : Rule.value e before g ↔
    ∃ key typed, keyAndRest? (lastToken before) = some (key, typed) ∧
      g = if isComplete key typed then some (e.keyGroup []) else e.valueGroup? key typed := by
  simp only [Rule.value, keyAndRest?_eq_some_iff, and_assoc, and_left_comm]

lemma IsOnlyField.unique (h : IsOnlyField typed d) (h' : IsOnlyField typed d') : d = d' :=
  h'.2.2 d h.1 h.2.1

lemma isFunctional_of_mem_decisionList {r : Rule} (hr : r ∈ decisionList) : r.IsFunctional := by
  intro e before g g' h h'
  simp only [decisionList, List.mem_cons, List.not_mem_nil, or_false] at hr
  rcases hr with rfl | rfl | rfl | rfl | rfl | rfl
  · exact h.2.trans h'.2.symm
  · obtain ⟨key, hk, rfl⟩ := bareKey_iff.1 h
    obtain ⟨key', hk', rfl⟩ := bareKey_iff.1 h'
    simp_all
  · obtain ⟨key, typed, hk, rfl⟩ := value_iff.1 h
    obtain ⟨key', typed', hk', rfl⟩ := value_iff.1 h'
    simp_all
  · obtain ⟨_, _, _, _, rfl⟩ := h
    obtain ⟨_, _, _, _, rfl⟩ := h'
    rfl
  · obtain ⟨-, ⟨d, hd, rfl⟩ | ⟨hn, rfl⟩⟩ := h <;> obtain ⟨-, ⟨d', hd', rfl⟩ | ⟨hn', rfl⟩⟩ := h'
    · rw [hd.unique hd']
    · exact absurd ⟨d, hd⟩ hn'
    · exact absurd ⟨d', hd'⟩ hn
    · rfl
  · exact h.trans h'.symm

/-! ## Words -/

lemma mem_matchingDefinitions :
    d ∈ matchingDefinitions typed ↔ d ∈ catalog ∧ d.StartsWith typed := by
  simp [matchingDefinitions, startsWithTyped, Definition.StartsWith, List.isPrefixOf_iff_prefix]

lemma matchingDefinitions_eq_singleton_iff :
    matchingDefinitions typed = [d] ↔ IsOnlyField typed d := by
  have hcatalog : catalog.Nodup := List.Nodup.of_map (·.key) (by decide +kernel)
  have hnodup : (matchingDefinitions typed).Nodup := hcatalog.filter _
  rw [← List.perm_singleton, List.perm_ext_iff_of_nodup hnodup (List.nodup_singleton d)]
  simp only [mem_matchingDefinitions, List.mem_singleton]
  constructor
  · intro h
    obtain ⟨hd, hs⟩ := (h d).2 rfl
    exact ⟨hd, hs, fun d' hd' hs' => (h d').1 ⟨hd', hs'⟩⟩
  · rintro ⟨hd, hs, honly⟩ d'
    exact ⟨fun h => honly d' h.1 h.2, fun h => h ▸ ⟨hd, hs⟩⟩

lemma suggestWord_of_isOnlyField (hne : typed ≠ []) (h : IsOnlyField typed d) :
    e.suggestWord typed = e.valueGroup? d.key [] := by
  obtain ⟨c, typed, rfl⟩ := List.exists_cons_of_ne_nil hne
  rw [Engine.suggestWord.eq_def, matchingDefinitions_eq_singleton_iff.2 h]

lemma suggestWord_of_not_isOnlyField (h : ¬ ∃ d, IsOnlyField typed d) :
    e.suggestWord typed = some (e.keyGroup typed) := by
  rw [Engine.suggestWord.eq_def]
  split
  · rename_i d hd
    exact absurd ⟨d, matchingDefinitions_eq_singleton_iff.1 hd⟩ h
  · rfl

/-! ## A key and a line break -/

/-- A text that ends in `key:` and one line break, with the key at the start of a token. -/
def EndsInKeyLine (before key : Text) : Prop :=
  ∃ pre, before = pre ++ key ++ [chr ':', chr '\n'] ∧ (pre = [] ∨ endsBlank pre) ∧ IsKey key

lemma EndsInKeyLine.endsBlank (h : EndsInKeyLine before key) : endsBlank before := by
  obtain ⟨pre, rfl, -, -⟩ := h
  rw [endsBlank_append (by simp)]
  decide

/-- After a blank, a key is taken to be without a value only across one line break. -/
lemma bareKey?_eq_some_iff_of_endsBlank (h : before = [] ∨ endsBlank before) :
    Engine.bareKey? before = some key ↔ EndsInKeyLine before key := by
  rw [bareKey?_eq_some]
  split
  · rename_i hlast
    obtain ⟨line, rfl⟩ := List.getLast?_eq_some_iff.1 hlast
    rw [List.dropLast_concat, keyAndRest?_lastToken_iff]
    refine exists_congr fun pre => and_congr_left fun _ => ?_
    rw [← List.append_left_inj [chr '\n']]
    simp
  · rename_i hlast
    refine iff_of_false ?_ ?_
    · simp [lastToken_eq_nil_iff.2 h, keyAndRest?]
    · rintro ⟨pre, rfl, -, -⟩
      simp at hlast

/-! ## The answer of the engine, by the end of the text -/

lemma suggestAfter?_of_ready (h : before = [] ∨ endsBlank before)
    (hline : ∀ key, ¬ EndsInKeyLine before key) :
    e.suggestAfter? before = some (e.keyGroup []) := by
  have hbare : Engine.bareKey? before = none := by
    refine Option.eq_none_iff_forall_ne_some.2 fun key hk => ?_
    exact hline key ((bareKey?_eq_some_iff_of_endsBlank h).1 hk)
  have hc : Context.ofBefore before = .initial := by
    simp [Context.ofBefore, lastToken_eq_nil_iff.2 h, keyAndRest?]
  simp only [Engine.suggestAfter?, hbare, hc, Engine.suggestWord]

lemma suggestAfter?_of_key (h : endsBlank before = false)
    (hk : keyAndRest? (lastToken before) = some (key, [])) :
    e.suggestAfter? before = e.valueGroup? key [] := by
  rw [Engine.suggestAfter?, (bareKey?_eq_some_iff h).2 hk]

lemma bareKey?_eq_none (h : endsBlank before = false)
    (hk : ∀ key, keyAndRest? (lastToken before) ≠ some (key, [])) :
    Engine.bareKey? before = none :=
  Option.eq_none_iff_forall_ne_some.2 fun key hbare =>
    hk key ((bareKey?_eq_some_iff h).1 hbare)

/-- Without a key that waits for its value, the context decides. -/
lemma suggestAfter?_of_bareKey?_eq_none (h : Engine.bareKey? before = none) :
    e.suggestAfter? before = match Context.ofBefore before with
      | .initial => some (e.keyGroup [])
      | .key typed _ _ => e.suggestWord typed
      | .value key typed _ _ => e.valueGroup? key typed
      | .free => none := by
  rw [Engine.suggestAfter?, h]
  cases Context.ofBefore before <;> rfl

lemma suggestAfter?_of_value (h : endsBlank before = false) (htyped : typed ≠ [])
    (hk : keyAndRest? (lastToken before) = some (key, typed)) :
    e.suggestAfter? before
      = if isComplete key typed then some (e.keyGroup []) else e.valueGroup? key typed := by
  have hbare : ∀ key', keyAndRest? (lastToken before) ≠ some (key', []) := by
    intro key' hk'
    rw [hk] at hk'
    simp_all
  rw [suggestAfter?_of_bareKey?_eq_none (bareKey?_eq_none h hbare)]
  cases hcomplete : isComplete key typed <;>
    simp [Context.ofBefore, hk, htyped, hcomplete]

lemma suggestAfter?_of_no_key (h : endsBlank before = false) (htoken : lastToken before ≠ [])
    (hk : keyAndRest? (lastToken before) = none) : e.suggestAfter? before
      = if endsInClosedName before then some (e.keyGroup [])
        else if isBareWord (lastToken before) then e.suggestWord (lastToken before)
        else none := by
  rw [suggestAfter?_of_bareKey?_eq_none (bareKey?_eq_none h (by simp [hk]))]
  cases hclosed : endsInClosedName before <;> cases hword : isBareWord (lastToken before) <;>
    simp [Context.ofBefore, hk, htoken, hclosed, hword]

/-- The engine gives the answer of the first rule that applies, unless the text ends in a key
without a value and a line break. -/
lemma firstAnswer_suggestAfter? (hline : ∀ key, ¬ EndsInKeyLine before key) :
    FirstAnswer e before decisionList (e.suggestAfter? before) := by
  by_cases hready : before = [] ∨ endsBlank before
  · exact .here ⟨hready, suggestAfter?_of_ready hready hline⟩
  refine .later (fun g h => hready h.1) ?_
  have hblank : endsBlank before = false := by simpa using fun h => hready (Or.inr h)
  have htoken : lastToken before ≠ [] := fun h => hready (lastToken_eq_nil_iff.1 h)
  cases hk : keyAndRest? (lastToken before) with
  | some p =>
      obtain ⟨key, typed⟩ := p
      by_cases htyped : typed = []
      · subst htyped
        exact .here (bareKey_iff.2 ⟨key, hk, suggestAfter?_of_key hblank hk⟩)
      · refine .later (fun g h => ?_)
          (.here (value_iff.2 ⟨key, typed, hk, suggestAfter?_of_value hblank htyped hk⟩))
        obtain ⟨key', hk', -⟩ := bareKey_iff.1 h
        simp_all
  | none =>
      refine .later (fun g h => ?_) (.later (fun g h => ?_) ?_)
      · obtain ⟨key, hk', -⟩ := bareKey_iff.1 h
        simp_all
      · obtain ⟨key, typed, hk', -⟩ := value_iff.1 h
        simp_all
      rw [suggestAfter?_of_no_key hblank htoken hk]
      split
      · rename_i hclosed
        obtain ⟨key, name, hends, hkey⟩ := endsInClosedName_iff.1 hclosed
        exact .here ⟨key, name, hends, (isComplete_quoted hends.ne_nil).trans hkey, rfl⟩
      · rename_i hclosed
        refine .later (fun g h => ?_) ?_
        · obtain ⟨key, name, hends, hcomplete, -⟩ := h
          rw [isComplete_quoted hends.ne_nil] at hcomplete
          exact hclosed (endsInClosedName_iff.2 ⟨key, name, hends, hcomplete⟩)
        split
        · rename_i hword
          refine .here ⟨isBareWord_iff.1 hword, ?_⟩
          by_cases hfield : ∃ d, IsOnlyField (lastToken before) d
          · obtain ⟨d, hd⟩ := hfield
            exact Or.inl ⟨d, hd, suggestWord_of_isOnlyField htoken hd⟩
          · exact Or.inr ⟨hfield, suggestWord_of_not_isOnlyField hfield⟩
        · rename_i hword
          exact .later (fun g h => hword (isBareWord_iff.2 h.1)) (.here rfl)

/-- Values of a key are not keys. -/
lemma valueGroup?_ne_keys {suggestions : List Suggestion} :
    e.valueGroup? key typed ≠ some (.keys suggestions) := by
  rw [Engine.valueGroup?]
  split <;> simp

/-- **The documented decision list.**  At every cursor the engine gives the answer of the first rule
that applies to the text before the cursor, and no other, if and only if that text does not end in a
key without a value and a line break.  If it does, the values of that key are offered, where the
first rule offers all keys. -/
theorem suggest?_eq_iff_firstAnswer (e : Engine) (text : Text) (cursor : Option Int) :
    ((∀ g, e.suggest? text cursor = g ↔ FirstAnswer e (beforeCursor text cursor) decisionList g) ↔
        ∀ key, ¬ EndsInKeyLine (beforeCursor text cursor) key) ∧
      ∀ key, EndsInKeyLine (beforeCursor text cursor) key →
        e.suggest? text cursor = e.valueGroup? key [] ∧
          FirstAnswer e (beforeCursor text cursor) decisionList (some (e.keyGroup [])) := by
  have hsuggest : e.suggest? text cursor = e.suggestAfter? (beforeCursor text cursor) := rfl
  rw [hsuggest]
  generalize beforeCursor text cursor = before
  have hbreak : ∀ key, EndsInKeyLine before key →
      e.suggestAfter? before = e.valueGroup? key [] ∧
        FirstAnswer e before decisionList (some (e.keyGroup [])) := by
    intro key hline
    have hbare := (bareKey?_eq_some_iff_of_endsBlank (Or.inr hline.endsBlank)).2 hline
    refine ⟨?_, .here ⟨Or.inr hline.endsBlank, rfl⟩⟩
    rw [Engine.suggestAfter?, hbare]
  refine ⟨⟨fun h key hline => ?_, fun hline g => ?_⟩, hbreak⟩
  · obtain ⟨hvalues, hkeys⟩ := hbreak key hline
    exact valueGroup?_ne_keys (hvalues.symm.trans ((h _).2 hkeys))
  · have hfirst := firstAnswer_suggestAfter? (e := e) hline
    refine ⟨fun h => h ▸ hfirst, fun h => ?_⟩
    exact hfirst.unique (fun _ => isFunctional_of_mem_decisionList) h

/-- After a closed name with a blank, in the middle of a text, the fourth rule applies; and after a
key and a line break the values of the key are offered. -/
theorem suggest?_eq_iff_firstAnswer_report :
    let e : Engine := ⟨["Daily report".text], []⟩
    let text := "cost:>0.01 workflow:\"Daily report\" now".text
    let lined := "refund\nworkflow:\n".text
    (∀ key, ¬ EndsInKeyLine (beforeCursor text (some 34)) key) ∧
      e.suggest? text (some 34) = some (e.keyGroup []) ∧
      FirstAnswer e (beforeCursor text (some 34)) decisionList (some (e.keyGroup [])) ∧
      EndsInKeyLine (beforeCursor lined none) "workflow".text ∧
      e.suggest? lined none = e.valueGroup? "workflow".text [] := by
  intro e text lined
  have hline : ∀ key, ¬ EndsInKeyLine (beforeCursor text (some 34)) key := by
    intro key h
    have hb : endsBlank (beforeCursor text (some 34)) = false := by decide +kernel
    rw [h.endsBlank] at hb
    exact Bool.noConfusion hb
  have hkeys : e.suggest? text (some 34) = some (e.keyGroup []) := by decide +kernel
  have hlined : EndsInKeyLine (beforeCursor lined none) "workflow".text :=
    ⟨"refund\n".text, by decide +kernel, Or.inr (by decide +kernel), by
      simp only [IsKey, ← List.all_eq_true]
      decide +kernel⟩
  have hfirst := (suggest?_eq_iff_firstAnswer e text (some 34)).1.2 hline
  have hbreak := (suggest?_eq_iff_firstAnswer e lined none).2 _ hlined
  exact ⟨hline, hkeys, (hfirst _).1 hkeys, hlined, hbreak.1⟩

/-- **A key and a line break.**  The text ends in a blank, so the first rule asks for the keys, but
the values of the key are offered. -/
theorem suggest?_after_line_break :
    let text := "level:\n".text
    endsBlank (beforeCursor text none) ∧
      FirstAnswer .empty (beforeCursor text none) decisionList (some (Engine.empty.keyGroup [])) ∧
      Engine.empty.suggest? text none
        = some (.values "level".text (Engine.choiceSuggestions levelDefinition [])) ∧
      ¬ FirstAnswer .empty (beforeCursor text none) decisionList
        (Engine.empty.suggest? text none) := by
  intro text
  have hb : endsBlank (beforeCursor text none) := by decide +kernel
  have hkeys : FirstAnswer .empty (beforeCursor text none) decisionList
      (some (Engine.empty.keyGroup [])) := .here ⟨Or.inr hb, rfl⟩
  have hne : some (Engine.empty.keyGroup []) ≠ Engine.empty.suggest? text none := by
    decide +kernel
  refine ⟨hb, hkeys, by decide +kernel, fun h => hne ?_⟩
  exact hkeys.unique (fun _ => isFunctional_of_mem_decisionList) h

end LogSearch
