import LogSearch.Proofs.AcceptedNames
import LogSearch.Proofs.LowerCase

/-!
# Completing a name

Names of workflows and folders are offered if they contain what is typed, ignoring case.  They keep
the order in which the host gave them, and at most eight are offered.  So what is offered can be
judged place by place in the list of the host.

* `Offered` — what holds of every name on offer.
* `KeptOrCut` — a name at its place is on offer, or eight names before it are.
* `valueGroup?_names_iff` — a name that contains what is typed, as it is spelled, is kept or cut in
  every list of names if and only if nothing typed is an open sigma.
-/

namespace LogSearch

variable {e : Engine} {k : KeyInfo} {key typed name : Text} {before after : List Text}
  {suggestions : List Suggestion}

/-! ## The names on offer -/

/-- What is offered of a list of names for a typed text: at most eight of them, in their order, each
in double quotes, and each containing the text if case is ignored. -/
structure Offered (typed : Text) (names : List Text) (suggestions : List Suggestion) : Prop where
  length_le : suggestions.length ≤ 8
  inOrder : (suggestions.map (·.label)).Sublist names
  isQuoted : ∀ s ∈ suggestions, s.value = quoted s.label
  found : ∀ s ∈ suggestions, lower typed <:+: lower s.label

/-- A name that stands before `after` and behind `before` in a list of names is among those listed,
at its place; or eight names that stand before it are, and there is no room for it. -/
def KeptOrCut (listed before : List Text) (name : Text) (after : List Text) : Prop :=
  (∃ l r, listed = l ++ name :: r ∧ l.Sublist before ∧ r.Sublist after) ∨
    (listed.length = 8 ∧ listed.Sublist before)

/-- Every name that contains the typed text, as it is spelled, is kept or cut. -/
def KeepsSpelled (typed : Text) (names listed : List Text) : Prop :=
  ∀ before name after, names = before ++ name :: after → typed <:+: name →
    KeptOrCut listed before name after

/-- The values of a key of names are those that are found in the list of the key. -/
lemma exists_valueGroup?_names (hk : (nameKey? key).isSome) (e : Engine) (typed : Text) :
    ∃ k, k.key = key ∧
      e.valueGroup? key typed = some (.values key (e.nameSuggestions k typed)) := by
  obtain ⟨k, hkey⟩ := Option.isSome_iff_exists.1 hk
  refine ⟨k, nameKey?_eq_some hkey, ?_⟩
  simp only [Engine.valueGroup?, definition?_eq_none_of_nameKey hk, hkey]

/-- The names that are found, up to the eighth. -/
lemma labels_nameSuggestions (e : Engine) (k : KeyInfo) (typed : Text) :
    (e.nameSuggestions k typed).map (·.label)
      = ((e.names k.key).filter fun name =>
          contains (lower (trim (· == chr '"') typed)) (lower name)).take 8 := by
  rw [Engine.nameSuggestions, List.map_map]
  exact List.map_id _

/-- **Names on offer** are found in the list of their key. -/
lemma offered_nameSuggestions (e : Engine) (k : KeyInfo) (typed : Text) :
    Offered (trim (· == chr '"') typed) (e.names k.key) (e.nameSuggestions k typed) := by
  have hlabels := labels_nameSuggestions e k typed
  constructor
  · rw [← List.length_map (·.label), hlabels]
    exact List.length_take_le ..
  · rw [hlabels]
    exact (List.take_sublist ..).trans List.filter_sublist
  · intro s hs
    obtain ⟨name, -, rfl⟩ := List.mem_map.1 hs
    rfl
  · intro s hs
    have hmem := List.mem_map_of_mem (f := (·.label)) hs
    rw [hlabels] at hmem
    exact contains_iff.1 (List.mem_filter.1 (List.mem_of_mem_take hmem)).2

/-! ## Names kept at their places -/

/-- The first eight that pass a test keep a name that does, unless there are eight before it. -/
lemma keptOrCut_take_filter {p : Text → Bool} (hp : p name) (before after : List Text) :
    KeptOrCut (((before ++ name :: after).filter p).take 8) before name after := by
  have hsplit : (before ++ name :: after).filter p
      = before.filter p ++ name :: after.filter p := by
    rw [List.filter_append, List.filter_cons_of_pos hp]
  rw [hsplit]
  by_cases hroom : (before.filter p).length < 8
  · obtain ⟨n, hn⟩ := Nat.exists_eq_add_of_lt hroom
    refine Or.inl ⟨before.filter p, (after.filter p).take n, ?_, List.filter_sublist,
      (List.take_sublist ..).trans List.filter_sublist⟩
    rw [hn, Nat.add_assoc, List.take_length_add_append, List.take_succ_cons]
  · have hfull : 8 ≤ (before.filter p).length := Nat.not_lt.1 hroom
    rw [List.take_append_of_le_length hfull]
    exact Or.inr ⟨List.length_take_of_le hfull,
      (List.take_sublist ..).trans List.filter_sublist⟩

/-- A name that is found is kept or cut. -/
lemma keptOrCut_nameSuggestions (h : e.names k.key = before ++ name :: after)
    (hfound : lower (trim (· == chr '"') typed) <:+: lower name) :
    KeptOrCut ((e.nameSuggestions k typed).map (·.label)) before name after := by
  rw [labels_nameSuggestions, h]
  refine keptOrCut_take_filter ?_ before after
  exact contains_iff.2 hfound

/-- The engine that knows one name. -/
def Engine.ofName (name : Text) : Engine :=
  ⟨[name], [name]⟩

lemma names_ofName (name key : Text) : (Engine.ofName name).names key = [name] := by
  rw [Engine.names]
  split <;> rfl

/-- A name that stands alone is kept only if it is found. -/
lemma infix_lower_of_keepsSpelled
    (hoffered : Offered typed [name] suggestions)
    (h : KeepsSpelled typed [name] (suggestions.map (·.label))) (hname : typed <:+: name) :
    lower typed <:+: lower name := by
  rcases h [] name [] rfl hname with ⟨l, r, hl, -, -⟩ | ⟨hlength, hsub⟩
  · have hmem : name ∈ suggestions.map (·.label) := by simp [hl]
    obtain ⟨s, hs, rfl⟩ := List.mem_map.1 hmem
    exact hoffered.found s hs
  · rw [List.sublist_nil.1 hsub] at hlength
    simp at hlength

/-- **Completing a name.**  For every key of names and every text typed, whose double quotes at the
ends do not count, the group of values holds at most eight names, in the order of the list, in
double quotes, and each contains the text if case is ignored.  A name with a part that is spelled
like the text is kept, unless eight names before it are, if the same sigmas end words in that part
as in the text.  And every name that contains the text as it is spelled is kept so, in every list of
names, if and only if the text has no open sigma. -/
theorem valueGroup?_names_iff (key typed : Text) (hk : (nameKey? key).isSome) :
    let part := trim (· == chr '"') typed
    (∀ e : Engine, ∃ suggestions, e.valueGroup? key typed = some (.values key suggestions) ∧
      Offered part (e.names key) suggestions ∧
      ∀ before a b after, e.names key = before ++ (a ++ part ++ b) :: after → SameEnds a part b →
        KeptOrCut (suggestions.map (·.label)) before (a ++ part ++ b) after) ∧
    ((∀ (e : Engine) suggestions, e.valueGroup? key typed = some (.values key suggestions) →
      KeepsSpelled part (e.names key) (suggestions.map (·.label))) ↔ ¬ HasOpenSigma part) := by
  intro part
  refine ⟨fun e => ?_, fun h => ?_, fun h e suggestions hg => ?_⟩
  · obtain ⟨k, rfl, hg⟩ := exists_valueGroup?_names hk e typed
    exact ⟨_, hg, offered_nameSuggestions e k typed, fun before a b after hnames hsame =>
      keptOrCut_nameSuggestions hnames (infix_lower_of_sameEnds hsame)⟩
  · refine forall_infix_lower_iff.1 fun name hname => ?_
    obtain ⟨k, rfl, hg⟩ := exists_valueGroup?_names hk (.ofName name) typed
    have hoffered := offered_nameSuggestions (.ofName name) k typed
    have hkeeps := h _ _ hg
    rw [names_ofName] at hoffered hkeeps
    exact infix_lower_of_keepsSpelled hoffered hkeeps hname
  · obtain ⟨k, rfl, hg'⟩ := exists_valueGroup?_names hk e typed
    rw [hg'] at hg
    obtain ⟨-, rfl⟩ := Group.values.inj (Option.some.inj hg)
    exact fun before name after hnames hname =>
      keptOrCut_nameSuggestions hnames (forall_infix_lower_iff.2 h name hname)

/-- A part of a name with a sigma between letters, behind an open quote.  The name is held nine
times, behind one that ends where it goes on, and offered eight times. -/
theorem valueGroup?_names_iff_odos :
    let key := "workflow".text
    let name := "ΟΔΟΣΩ".text
    let e : Engine := ⟨"ΟΔΟΣ".text :: List.replicate 9 name, []⟩
    let offers := List.replicate 8 (Suggestion.ofName
      (keyInfo "workflow" "Workflow" "Filter by workflow name") name)
    (nameKey? key).isSome ∧ trim (· == chr '"') "\"ΔΟΣΩ".text = "ΔΟΣΩ".text ∧
      e.valueGroup? key "\"ΔΟΣΩ".text = some (.values key offers) ∧
      Offered "ΔΟΣΩ".text e.workflows offers ∧ ¬ HasOpenSigma "ΔΟΣΩ".text ∧
      KeepsSpelled "ΔΟΣΩ".text e.workflows (offers.map (·.label)) := by
  intro key name e offers
  have hk : (nameKey? key).isSome := by decide +kernel
  have hpart : trim (· == chr '"') "\"ΔΟΣΩ".text = "ΔΟΣΩ".text := by decide +kernel
  have hg : e.valueGroup? key "\"ΔΟΣΩ".text = some (.values key offers) := by decide +kernel
  have hopen : ¬ HasOpenSigma "ΔΟΣΩ".text := by decide +kernel
  obtain ⟨hoffers, hiff⟩ := valueGroup?_names_iff key "\"ΔΟΣΩ".text hk
  rw [hpart] at hoffers hiff
  obtain ⟨offers', hg', hoffered, -⟩ := hoffers e
  rw [hg] at hg'
  obtain ⟨-, rfl⟩ := Group.values.inj (Option.some.inj hg')
  exact ⟨hk, hpart, hg, hoffered, hopen, hiff.2 hopen e offers hg⟩

/-- **A name that is missed.**  The first name contains what is typed, as it is spelled.  But the
sigma ends a word in what is typed and none in the name, and a later name is offered alone. -/
theorem spelled_name_missed :
    let e : Engine := ⟨["ΟΔΟΣΩ".text, "ΟΔΟΣ".text], []⟩
    let offer := Suggestion.ofName (keyInfo "workflow" "Workflow" "Filter by workflow name")
      "ΟΔΟΣ".text
    "ΟΔΟΣ".text <:+: "ΟΔΟΣΩ".text ∧
      e.suggest? "workflow:ΟΔΟΣ".text none = some (.values "workflow".text [offer]) ∧
      ¬ KeepsSpelled "ΟΔΟΣ".text e.workflows [offer.label] := by
  intro e offer
  have hpart : "ΟΔΟΣ".text <:+: "ΟΔΟΣΩ".text := ⟨[], "Ω".text, by decide +kernel⟩
  refine ⟨hpart, by decide +kernel, fun h => ?_⟩
  rcases h [] _ ["ΟΔΟΣ".text] rfl hpart with ⟨l, r, hl, -, -⟩ | ⟨hlength, -⟩
  · have hmem : "ΟΔΟΣΩ".text ∈ [offer.label] := by simp [hl]
    exact absurd hmem (by decide +kernel)
  · exact absurd hlength (by decide +kernel)

end LogSearch
