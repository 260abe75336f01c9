import LogSearch.Proofs.Tokens
import LogSearch.Service.Service

/-!
# Configured names

The names that the service starts with are configured as two texts, in which the names are separated
by commas.  Blanks around a name and empty items are there for the eye and mean nothing.

* `IsItem` — the names that such a text can hold.
* `Csv` — the texts that list given names, with any blanks and any empty items.
* `splitCsv_eq_iff` — splitting a text gives certain names if and only if it lists them and they are
  such names.
* `start_engine_iff` — so the service starts with exactly the names that are listed, in order.
-/

namespace LogSearch

variable {a b name s t v w : Text} {names : List Text}

/-! ## Blanks at the ends -/

lemma exists_strip (s : Text) :
    ∃ a b, s = a ++ strip s ++ b ∧ (∀ c ∈ a, isBlank c) ∧ ∀ c ∈ b, isBlank c := by
  have hback : strip s ++ (s.dropWhile isBlank).rtakeWhile isBlank = s.dropWhile isBlank :=
    List.rdropWhile_append_rtakeWhile
  refine ⟨s.takeWhile isBlank, _, ?_, fun c hc => List.mem_takeWhile_imp hc,
    isBlank_of_mem_rtakeWhile (s := s.dropWhile isBlank)⟩
  rw [List.append_assoc, hback, List.takeWhile_append_dropWhile]

lemma endsBlank_strip (s : Text) : endsBlank (strip s) = false :=
  endsBlank_rdropWhile _

lemma startsBlank_strip (h : strip s ≠ []) : startsBlank (strip s) = false := by
  obtain ⟨c, r, hc⟩ := List.exists_cons_of_ne_nil h
  have hfront : strip s <+: s.dropWhile isBlank := List.rdropWhile_prefix isBlank _
  obtain ⟨r', hr⟩ := hfront
  have hhead := List.head?_dropWhile_not isBlank s
  rw [← hr, hc] at hhead
  rw [hc]
  exact hhead

/-- Blanks around a text that has none at its ends are dropped. -/
lemma strip_padded (ha : ∀ c ∈ a, isBlank c) (hb : ∀ c ∈ b, isBlank c)
    (hstart : startsBlank s = false) (hend : endsBlank s = false) : strip (a ++ s ++ b) = s := by
  have hfront : (a ++ s ++ b).dropWhile isBlank = s ++ b := by
    rw [List.append_assoc]
    refine (takeWhile_dropWhile_append ha fun c hc => ?_).2
    cases s with
    | nil => simp [startsBlank] at hstart
    | cons d s =>
        obtain rfl := Option.some.inj hc
        exact hstart
  have hback : (s ++ b).reverse.dropWhile isBlank = s.reverse := by
    rw [List.reverse_append]
    refine (takeWhile_dropWhile_append (fun c hc => hb c (List.mem_reverse.1 hc))
      fun c hc => ?_).2
    rw [List.head?_reverse] at hc
    rw [← endsBlank_of_getLast? hc]
    exact hend
  rw [strip, trim, hfront, hback, List.reverse_reverse]

lemma strip_of_forall_isBlank (h : ∀ c ∈ w, isBlank c) : strip w = [] := by
  have hdrop : w.dropWhile isBlank = [] := List.dropWhile_eq_nil_iff.2 h
  rw [strip, trim, hdrop]
  rfl

/-! ## Texts that list names -/

/-- A name that can stand in a comma-separated list: it is not empty, holds no comma, and has no
blanks at its ends. -/
structure IsItem (name : Text) : Prop where
  ne_nil : name ≠ []
  no_comma : chr ',' ∉ name
  start : startsBlank name = false
  stop : endsBlank name = false

instance (name : Text) : Decidable (IsItem name) :=
  decidable_of_iff
    (name ≠ [] ∧ chr ',' ∉ name ∧ startsBlank name = false ∧ endsBlank name = false)
    ⟨fun h => ⟨h.1, h.2.1, h.2.2.1, h.2.2.2⟩, fun h => ⟨h.ne_nil, h.no_comma, h.start, h.stop⟩⟩

/-- The texts that list names: items between commas, each of them empty or a name, with any blanks
around. -/
inductive Csv : List Text → Text → Prop
  | empty {w : Text} (h : ∀ c ∈ w, isBlank c) : Csv [] w
  | item {a name b : Text} (ha : ∀ c ∈ a, isBlank c) (hb : ∀ c ∈ b, isBlank c) :
      Csv [name] (a ++ name ++ b)
  | comma {xs ys : List Text} {s t : Text} (hs : Csv xs s) (ht : Csv ys t) :
      Csv (xs ++ ys) (s ++ chr ',' :: t)

lemma comma_not_mem_of_forall_isBlank (h : ∀ c ∈ w, isBlank c) : chr ',' ∉ w :=
  fun hm => absurd (h (chr ',') hm) (by decide)

/-- Names that are set out with single commas are listed. -/
lemma csv_intercalate (names : List Text) : Csv names ([chr ','].intercalate names) := by
  have hitem : ∀ name, Csv [name] name := by
    intro name
    simpa using @Csv.item [] name [] (by simp) (by simp)
  induction names with
  | nil => exact .empty (by simp)
  | cons name names ih =>
      cases names with
      | nil => simpa using hitem name
      | cons next names =>
          rw [List.intercalate_cons_cons, List.append_assoc]
          exact .comma (hitem name) ih

/-! ## Splitting -/

/-- **A text is split at each comma**, and the parts do not see each other. -/
theorem splitCsv_append_comma (s t : Text) :
    splitCsv (s ++ chr ',' :: t) = splitCsv s ++ splitCsv t := by
  rw [splitCsv, List.splitOn_eq_splitOnP, List.splitOnP_append_cons s t (by decide),
    List.map_append, List.filter_append]
  rfl

lemma splitCsv_of_not_mem (h : chr ',' ∉ s) :
    splitCsv s = if strip s = [] then [] else [strip s] := by
  have hsplit : s.splitOn (chr ',') = [s] := by
    refine List.splitOnP_eq_singleton fun c hc => ?_
    have hne : c ≠ chr ',' := fun hcomma => h (hcomma ▸ hc)
    simpa using hne
  rw [splitCsv, hsplit]
  by_cases hnil : strip s = [] <;> simp [hnil]

/-- The piece between two commas is empty or a name, with blanks around. -/
lemma csv_splitCsv_of_not_mem (h : chr ',' ∉ s) :
    Csv (splitCsv s) s ∧ ∀ item ∈ splitCsv s, IsItem item := by
  obtain ⟨a, b, hs, ha, hb⟩ := exists_strip s
  rw [splitCsv_of_not_mem h]
  by_cases hnil : strip s = []
  · rw [hnil, List.append_nil] at hs
    have hblank : ∀ c ∈ s, isBlank c := by
      rw [hs]
      exact List.forall_mem_append.2 ⟨ha, hb⟩
    rw [if_pos hnil]
    exact ⟨.empty hblank, by simp⟩
  · have hitem : IsItem (strip s) :=
      ⟨hnil, fun hm => h (by rw [hs]; simp [hm]), startsBlank_strip hnil, endsBlank_strip s⟩
    rw [if_neg hnil]
    refine ⟨?_, by simpa using hitem⟩
    nth_rewrite 2 [hs]
    exact .item ha hb

/-- What is split off a text is listed in it, from comma to comma. -/
lemma csv_splitCsv (v : Text) : Csv (splitCsv v) v ∧ ∀ item ∈ splitCsv v, IsItem item := by
  by_cases h : chr ',' ∈ v
  · obtain ⟨s, t, hv, hs⟩ := List.eq_append_cons_of_mem h
    have hshorter : t.length < v.length := by
      simp [hv]
      omega
    obtain ⟨hcsv, hitems⟩ := csv_splitCsv_of_not_mem hs
    obtain ⟨hcsv', hitems'⟩ := csv_splitCsv t
    rw [hv, splitCsv_append_comma]
    exact ⟨.comma hcsv hcsv', List.forall_mem_append.2 ⟨hitems, hitems'⟩⟩
  · exact csv_splitCsv_of_not_mem h
termination_by v.length

/-- The names that a text lists are split off it. -/
lemma splitCsv_of_csv (h : Csv names v) (hitems : ∀ name ∈ names, IsItem name) :
    splitCsv v = names := by
  induction h with
  | empty hw =>
      rw [splitCsv_of_not_mem (comma_not_mem_of_forall_isBlank hw),
        if_pos (strip_of_forall_isBlank hw)]
  | @item a name b ha hb =>
      obtain ⟨hne, hcomma, hstart, hstop⟩ := hitems name List.mem_cons_self
      have hmem : chr ',' ∉ a ++ name ++ b := by
        simp [comma_not_mem_of_forall_isBlank ha, comma_not_mem_of_forall_isBlank hb, hcomma]
      rw [splitCsv_of_not_mem hmem, strip_padded ha hb hstart hstop, if_neg hne]
  | comma _ _ ihs iht =>
      obtain ⟨hs, ht⟩ := List.forall_mem_append.1 hitems
      rw [splitCsv_append_comma, ihs hs, iht ht]

/-- **Splitting gives exactly the names that a text lists.** -/
theorem splitCsv_eq_iff :
    splitCsv v = names ↔ Csv names v ∧ ∀ name ∈ names, IsItem name :=
  ⟨fun h => h ▸ csv_splitCsv v, fun h => splitCsv_of_csv h.1 h.2⟩

/-! ## The names at the start -/

/-- **Configured names are kept.**  Whatever text is split, each item is not empty, holds no comma
and has no blanks at its ends, and the items set out with commas are split into the items again.
For names of this kind, the texts that are split into them are those that list them, with any blanks
and any empty items around the commas, the names set out with single commas among them.  So the
service starts with certain names if and only if its settings list them, in order. -/
theorem start_engine_iff :
    (∀ v, (∀ item ∈ splitCsv v, IsItem item) ∧
      splitCsv ([chr ','].intercalate (splitCsv v)) = splitCsv v) ∧
    (∀ names, (∀ name ∈ names, IsItem name) → Csv names ([chr ','].intercalate names) ∧
      ∀ v, splitCsv v = names ↔ Csv names v) ∧
    ∀ (s : Settings) (e : Engine), (∀ name ∈ e.workflows ++ e.folders, IsItem name) →
      ((Service.start s).engine = e ↔
        Csv e.workflows s.initialWorkflows ∧ Csv e.folders s.initialFolders) := by
  refine ⟨fun v => ?_, fun names hitems => ?_, fun s e hitems => ?_⟩
  · have hitems := (csv_splitCsv v).2
    exact ⟨hitems, splitCsv_of_csv (csv_intercalate _) hitems⟩
  · refine ⟨csv_intercalate names, fun v => ?_⟩
    rw [splitCsv_eq_iff]
    exact and_iff_left hitems
  · obtain ⟨hworkflows, hfolders⟩ := List.forall_mem_append.1 hitems
    obtain ⟨workflows, folders⟩ := e
    rw [Service.start, Engine.mk.injEq, Settings.workflows, Settings.folders, splitCsv_eq_iff,
      splitCsv_eq_iff]
    exact and_congr (and_iff_left hworkflows) (and_iff_left hfolders)

/-- Blanks of several kinds, empty items, a colon in a name, and a name that is listed twice. -/
theorem start_engine_iff_padded :
    let v := " Daily report ,,\u2003Sync: prod\t, ,Sync: prod,".text
    let names := ["Daily report".text, "Sync: prod".text, "Sync: prod".text]
    let s : Settings := { initialWorkflows := v, initialFolders := " , ".text }
    (∀ name ∈ names, IsItem name) ∧ Csv names v ∧
      splitCsv "Daily report,Sync: prod,Sync: prod".text = names ∧
      (Service.start s).engine = ⟨names, []⟩ := by
  intro v names s
  have hitems : ∀ name ∈ names, IsItem name := by decide +kernel
  obtain ⟨-, hlists, hstart⟩ := start_engine_iff
  obtain ⟨hjoined, hsplit⟩ := hlists names hitems
  have hengine : (Service.start s).engine = ⟨names, []⟩ := by decide +kernel
  have hcsv := ((hstart s ⟨names, []⟩ (by simpa using hitems)).1 hengine).1
  have htext : [chr ','].intercalate names = "Daily report,Sync: prod,Sync: prod".text := by
    decide +kernel
  rw [htext] at hjoined
  exact ⟨hitems, hcsv, (hsplit _).2 hjoined, hengine⟩

end LogSearch
