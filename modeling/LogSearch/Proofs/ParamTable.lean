import LogSearch.Proofs.Words
import LogSearch.Query.Params
import Mathlib.Data.List.Induction
import Mathlib.Data.List.TakeWhile

/-!
# The table of parameters, name by name

The parameters of a query come about by a run of writes into one table: each filter writes under at
most one name, and the free text comes last.  Most names keep the last text that was written; two
of them collect all texts.  This module says what the table holds in the end, from the filters
alone.

* `Params.put`, `Params.run` — one write, and a run of writes.
* `Params.names_run`, `Params.get?_run` — the names after a run, and the text under each.
* `Filter.write?`, `Query.params_eq_run` — the write of a filter; without date filters the
  parameters of a query are the run of its writes.
* `params_by_name` — so each parameter is told by the filters that write it.
-/

namespace LogSearch

variable {z : Zone} {now : Moment} {p : Params} {f : Filter} {fld : Field} {c : CodePoint}

/-! ## Joined texts -/

/-- Texts joined by a separator, without the empty ones in front. -/
def joined (separator : CodePoint) (values : List Text) : Text :=
  List.intercalate [separator] (values.dropWhile List.isEmpty)

/-- Texts joined by a separator, if there are any. -/
def joined? (separator : CodePoint) (values : List Text) : Option Text :=
  if values = [] then none else some (joined separator values)

/-- One more text goes behind the separator, unless nothing was there so far. -/
lemma joined_concat (c : CodePoint) (values : List Text) (v : Text) :
    joined c (values ++ [v])
      = if joined c values = [] then v else joined c values ++ c :: v := by
  rw [joined, joined, List.dropWhile_append]
  rcases hrest : values.dropWhile List.isEmpty with _ | ⟨u, us⟩
  · cases v <;> simp
  · -- the first text that is not empty stays in front
    have hu : u.isEmpty = false := by
      simpa [hrest] using List.head?_dropWhile_not List.isEmpty values
    obtain ⟨a, u, rfl⟩ := List.exists_cons_of_ne_nil (List.isEmpty_eq_false_iff.1 hu)
    have hne : List.intercalate [c] ((a :: u) :: us) ≠ [] := by
      simp [List.intercalate_cons_cons_left]
    rw [if_neg hne, if_neg (by simp), intercalate_append (by simp) (by simp)]
    simp

/-! ## Runs of writes -/

namespace Params

/-- The names under which texts are collected, with the separators. -/
def separators : List (Text × CodePoint) :=
  [("triggers".text, chr ','), ("search".text, chr ' ')]

/-- The names of a table, in order. -/
def names (p : Params) : List Text :=
  p.entries.map Prod.fst

/-- Writes a text under a name: it is appended if the name collects texts, and replaces the text
that was there otherwise. -/
def put (p : Params) (name value : Text) : Params :=
  match separators.lookup name with
  | some separator => p.append name separator value
  | none => p.set name value

/-- The table after a run of writes. -/
def run (writes : List (Text × Text)) : Params :=
  writes.foldl (fun p w => p.put w.1 w.2) empty

/-- The texts that a run writes under a name, in order. -/
def textsUnder (name : Text) (writes : List (Text × Text)) : List Text :=
  (writes.filter (·.1 = name)).map Prod.snd

/-- A name that is there keeps its place, and a new one goes to the end. -/
lemma names_set (p : Params) (name value : Text) :
    (p.set name value).names = if name ∈ p.names then p.names else p.names ++ [name] := by
  obtain ⟨entries⟩ := p
  simp only [set, names]
  induction entries with
  | nil => simp [setEntry]
  | cons e rest ih =>
      obtain ⟨n, v⟩ := e
      by_cases hn : n = name
      · simp [setEntry, hn]
      · have hne : name ≠ n := fun h => hn h.symm
        rw [setEntry, if_neg hn, List.map_cons, ih]
        by_cases hmem : name ∈ rest.map Prod.fst <;> simp [hmem, hne]

/-- Whatever is written, it is written under its name alone. -/
lemma exists_put_eq_set (p : Params) (name value : Text) :
    ∃ text, p.put name value = p.set name text := by
  rw [put]
  split
  · rw [append]
    split <;> exact ⟨_, rfl⟩
  · exact ⟨value, rfl⟩

lemma run_concat (ws : List (Text × Text)) (w : Text × Text) :
    run (ws ++ [w]) = (run ws).put w.1 w.2 := by
  rw [run, List.foldl_append]
  rfl

/-- **The names after a run** are in the order in which they were first written. -/
theorem names_run (ws : List (Text × Text)) : (run ws).names = (ws.map Prod.fst).eraseDups := by
  induction ws using List.reverseRecOn with
  | nil => rfl
  | append_singleton ws w ih =>
      obtain ⟨text, hput⟩ := exists_put_eq_set (run ws) w.1 w.2
      rw [run_concat, hput, names_set, ih, List.map_append, List.eraseDups_append]
      by_cases hmem : w.1 ∈ ws.map Prod.fst
      · simp [List.mem_eraseDups, hmem, List.removeAll]
      · simp [List.mem_eraseDups, hmem, List.removeAll, List.eraseDups_cons]

lemma textsUnder_concat_self (name value : Text) (ws : List (Text × Text)) :
    textsUnder name (ws ++ [(name, value)]) = textsUnder name ws ++ [value] := by
  simp [textsUnder]

lemma textsUnder_concat_of_ne {name other : Text} (h : other ≠ name) (value : Text)
    (ws : List (Text × Text)) : textsUnder name (ws ++ [(other, value)]) = textsUnder name ws := by
  simp [textsUnder, h]

/-- A text is appended to what is there, unless that is empty. -/
lemma get?_append (p : Params) (name : Text) (c : CodePoint) (value : Text) :
    (p.append name c value).get? name = some (if (p.get? name).getD [] = [] then value
      else (p.get? name).getD [] ++ c :: value) := by
  rw [append]
  split
  · rename_i hold
    rw [get?_set, if_pos rfl, hold]
    simp
  · rename_i hold
    rw [get?_set, if_pos rfl]
    cases hp : p.get? name with
    | none => simp
    | some text =>
        cases text with
        | nil => simp
        | cons a text => exact absurd hp (hold a text)

/-- **The text under a name after a run**: all texts that were written under it, joined, or the last
of them. -/
theorem get?_run (name : Text) (ws : List (Text × Text)) :
    (run ws).get? name = match separators.lookup name with
      | some separator => joined? separator (textsUnder name ws)
      | none => (textsUnder name ws).getLast? := by
  induction ws using List.reverseRecOn with
  | nil =>
      cases separators.lookup name <;> rfl
  | append_singleton ws w ih =>
      obtain ⟨n, v⟩ := w
      rw [run_concat]
      by_cases hn : n = name
      · subst hn
        rw [textsUnder_concat_self]
        cases hsep : separators.lookup n with
        | none => rw [put, hsep, get?_set, if_pos rfl, List.getLast?_concat]
        | some c =>
            rw [hsep] at ih
            rw [put, hsep, get?_append, ih]
            cases textsUnder n ws with
            | nil => cases v <;> simp [joined?, joined]
            | cons t ts => simpa [joined?] using (joined_concat c (t :: ts) v).symm
      · obtain ⟨text, hput⟩ := exists_put_eq_set (run ws) n v
        rw [hput, get?_set, if_neg (Ne.symm hn), ih, textsUnder_concat_of_ne hn]

end Params

/-! ## The writes of a query -/

/-- The parameters that equality filters write, by the field of the filter. -/
def paramNames : List (Text × Text) :=
  [("level".text, "level".text), ("status".text, "level".text),
    ("trigger".text, "triggers".text), ("workflow".text, "workflowName".text),
    ("folder".text, "folderName".text), ("execution".text, "search".text),
    ("workflowId".text, "workflowId".text), ("executionId".text, "executionId".text)]

/-- The fields whose filters raise a flag, with any operator. -/
def flagFields : List Text :=
  ["cost".text, "duration".text]

/-- What a filter writes, and under which name. -/
def Filter.write? (f : Filter) : Option (Text × Text) :=
  match paramNames.lookup f.field with
  | some param => if f.operator = .eq then some (param, f.value.written) else none
  | none => if f.field ∈ flagFields then some (f.flagName, "true".text) else none

/-- What a query writes: its filters in order, then its free text. -/
def Query.writes (q : Query) : List (Text × Text) :=
  q.filters.filterMap Filter.write? ++
    if q.freeText.isEmpty then [] else [("search".text, q.freeText)]

/-! ### The tables and the roles of the fields -/

namespace Field

lemma lookup_of_single {param : Text} (h : fld.role = .single param) :
    paramNames.lookup fld.name = some param ∧ Params.separators.lookup param = none := by
  cases fld <;> cases h <;> decide

lemma lookup_of_joined {param : Text} (h : fld.role = .joined param c) :
    paramNames.lookup fld.name = some param ∧ Params.separators.lookup param = some c := by
  cases fld <;> cases h <;> decide

lemma lookup_of_comparison (h : fld.role = .comparison) :
    paramNames.lookup fld.name = none ∧ fld.name ∈ flagFields := by
  cases fld <;> cases h <;> decide

/-- A text in one of the tables names a field. -/
lemma exists_ofName?_eq {s : Text} (h : s ∈ paramNames.map Prod.fst ++ flagFields) :
    ∃ fld, ofName? s = some fld := by
  have htable : ∀ t ∈ paramNames.map Prod.fst ++ flagFields, (ofName? t).isSome := by decide
  exact Option.isSome_iff_exists.1 (htable s h)

end Field

lemma Filter.write?_eq_none (h : Field.ofName? f.field = none) : f.write? = none := by
  have hmem : f.field ∉ paramNames.map Prod.fst ++ flagFields := fun hmem => by
    obtain ⟨fld, hfld⟩ := Field.exists_ofName?_eq hmem
    exact absurd (h.symm.trans hfld) (by simp)
  rw [List.mem_append, not_or] at hmem
  have hlookup : paramNames.lookup f.field = none := by
    rw [List.lookup_eq_none_iff]
    intro e he
    simp only [bne_iff_ne]
    intro heq
    exact hmem.1 (heq ▸ List.mem_map_of_mem he)
  rw [write?, hlookup]
  exact if_neg hmem.2

/-- No parameter has a name like a flag. -/
lemma ne_of_underscore_mem {name : Text} (h : chr '_' ∈ name) :
    name ∉ paramNames.map Prod.snd ∧ Params.separators.lookup name = none := by
  have hparam : ∀ t ∈ paramNames.map Prod.snd, chr '_' ∉ t := by decide
  have hsep : ∀ e ∈ Params.separators, chr '_' ∉ e.1 := by decide
  refine ⟨fun hmem => hparam name hmem h, List.lookup_eq_none_iff.2 fun e he => ?_⟩
  simp only [bne_iff_ne]
  rintro rfl
  exact hsep e he h

/-- **One filter.**  A filter that is not on the date makes its write, if it has one. -/
lemma Filter.addTo_eq (hf : f.field ≠ "date".text) :
    f.addTo z now p = .ok (match f.write? with
      | some w => p.put w.1 w.2
      | none => p) := by
  cases hfld : Field.ofName? f.field with
  | none =>
      rw [addTo, hfld, write?_eq_none hfld]
      rfl
  | some fld =>
      have hname := Field.name_of_ofName? hfld
      cases hrole : fld.role with
      | single param =>
          obtain ⟨hparam, hsep⟩ := Field.lookup_of_single hrole
          rw [hname] at hparam
          by_cases hop : f.operator = .eq <;>
            simp [addTo, hfld, hrole, write?, hparam, hop, Params.put, hsep]
      | joined param c =>
          obtain ⟨hparam, hsep⟩ := Field.lookup_of_joined hrole
          rw [hname] at hparam
          by_cases hop : f.operator = .eq <;>
            simp [addTo, hfld, hrole, write?, hparam, hop, Params.put, hsep]
      | comparison =>
          obtain ⟨hparam, hflag⟩ := Field.lookup_of_comparison hrole
          rw [hname] at hparam hflag
          have hsep := (ne_of_underscore_mem f.underscore_mem_flagName).2
          simp [addTo, hfld, hrole, write?, hparam, hflag, Params.put, hsep]
      | window =>
          obtain rfl := Field.role_eq_window_iff.1 hrole
          exact absurd hname.symm hf

/-- All filters of a query, from any table on. -/
lemma foldlM_addTo_eq (fs : List Filter) (hfs : ∀ f ∈ fs, f.field ≠ "date".text) (p : Params) :
    fs.foldlM (fun p f => f.addTo z now p) p
      = .ok ((fs.filterMap Filter.write?).foldl (fun p w => p.put w.1 w.2) p) := by
  induction fs generalizing p with
  | nil => rfl
  | cons f fs ih =>
      rw [List.foldlM_cons, Filter.addTo_eq (hfs f List.mem_cons_self), List.filterMap_cons]
      have hrest := ih fun g hg => hfs g (List.mem_cons_of_mem _ hg)
      cases f.write? with
      | none => exact hrest p
      | some w => exact hrest (p.put w.1 w.2)

/-- **All filters.**  Without date filters the parameters can be computed, and are the run of the
writes of the query. -/
theorem Query.params_eq_run (q : Query) (z : Zone) (now : Moment)
    (hq : ∀ f ∈ q.filters, f.field ≠ "date".text) :
    q.params z now = .ok (Params.run q.writes) := by
  rw [params, foldlM_addTo_eq q.filters hq, writes, Params.run, List.foldl_append]
  by_cases htext : q.freeText.isEmpty
  · simp only [htext, if_true]
    rfl
  · simp only [htext]
    rfl

/-! ## Name by name -/

/-- The texts that equality filters write under a parameter, in order. -/
def Query.equalities (q : Query) (param : Text) : List Text :=
  (q.filters.filter fun f => paramNames.lookup f.field = some param ∧ f.operator = .eq).map
    (·.value.written)

/-- What stands under the name of a parameter comes from the equality filters of its fields. -/
lemma Filter.write?_under {param : Text} (hparam : chr '_' ∉ param) (f : Filter) :
    if paramNames.lookup f.field = some param ∧ f.operator = .eq
      then f.write? = some (param, f.value.written)
      else ∀ w, f.write? = some w → w.1 ≠ param := by
  split
  · rename_i h
    rw [write?, h.1]
    exact if_pos h.2
  · rename_i h
    intro w hw
    rw [write?] at hw
    split at hw <;> split at hw <;> cases hw
    · rename_i _ _ hlookup hop
      exact fun heq => h ⟨heq ▸ hlookup, hop⟩
    · exact fun heq => hparam (heq ▸ f.underscore_mem_flagName)

/-- Under the name of a parameter stand the texts of the equality filters, then the free text. -/
lemma textsUnder_writes (q : Query) {param : Text} (hparam : chr '_' ∉ param) :
    Params.textsUnder param q.writes = q.equalities param ++
      if q.freeText ≠ [] ∧ "search".text = param then [q.freeText] else [] := by
  rw [Query.writes, Params.textsUnder, List.filter_append, List.map_append, Query.equalities]
  congr 1
  · generalize q.filters = fs
    induction fs with
    | nil => rfl
    | cons f fs ih =>
        have hf := Filter.write?_under hparam f
        rw [List.filterMap_cons, List.filter_cons]
        split at hf
        · rename_i h
          rw [hf, if_pos (by simpa using h)]
          simp [ih]
        · rename_i h
          rw [if_neg (by simpa using h), ← ih]
          cases hw : f.write? with
          | none => rfl
          | some w => simp [hf w hw]
  · generalize "search".text = name
    cases q.freeText with
    | nil => rfl
    | cons c t => by_cases h : name = param <;> simp [h]

/-- A write under a name with an underscore raises a flag. -/
lemma value_of_mem_writes {q : Query} {w : Text × Text} (hw : w ∈ q.writes)
    (hname : chr '_' ∈ w.1) :
    w.2 = "true".text := by
  rw [Query.writes, List.mem_append] at hw
  rcases hw with hw | hw
  · obtain ⟨f, -, hf⟩ := List.mem_filterMap.1 hw
    rw [Filter.write?] at hf
    split at hf <;> split at hf <;> cases hf
    · rename_i param hlookup _
      obtain ⟨front, rest, htable, -⟩ := List.lookup_eq_some_iff.1 hlookup
      have hmem : param ∈ paramNames.map Prod.snd := by simp [htable]
      exact absurd hmem (ne_of_underscore_mem hname).1
    · rfl
  · split at hw
    · simp at hw
    · obtain rfl := List.mem_singleton.1 hw
      exact absurd (show chr '_' ∈ "search".text from hname) (by decide)

/-- The flags of a query are raised. -/
lemma get?_flagName {q : Query} (hf : f ∈ q.filters) (hflag : f.field ∈ flagFields) :
    (Params.run q.writes).get? f.flagName = some "true".text := by
  have hname := f.underscore_mem_flagName
  have hwrite : f.write? = some (f.flagName, "true".text) := by
    have hlookup : ∀ t ∈ flagFields, paramNames.lookup t = none := by decide
    rw [Filter.write?, hlookup f.field hflag]
    exact if_pos hflag
  have hmem : "true".text ∈ Params.textsUnder f.flagName q.writes := by
    refine List.mem_map.2 ⟨(f.flagName, "true".text), List.mem_filter.2 ⟨?_, by simp⟩, rfl⟩
    exact List.mem_append_left _ (List.mem_filterMap.2 ⟨f, hf, hwrite⟩)
  rw [Params.get?_run, (ne_of_underscore_mem hname).2]
  -- all that stands under the name is that the flag is raised
  obtain ⟨last, hlast⟩ := Option.isSome_iff_exists.1
    (List.getLast?_isSome.2 (List.ne_nil_of_mem hmem))
  obtain ⟨w, hw, rfl⟩ := List.mem_map.1 (List.mem_of_getLast? hlast)
  obtain ⟨hw, hwname⟩ := List.mem_filter.1 hw
  have hwname : w.1 = f.flagName := by simpa using hwname
  rw [hlast, value_of_mem_writes hw (hwname ▸ hname)]

/-- **The parameters of a query, name by name.**  Without date filters the parameters can be
computed.  Five of them are the last text that an equality filter of their fields compares with.
The triggers are all such texts, joined by commas, and the search is all such texts and then the
free text, joined by spaces.  Every filter on a cost or a duration raises its flag.  The names are
those that are written, in the order of the first time, so there is no other one. -/
theorem params_by_name (q : Query) (z : Zone) (now : Moment)
    (hq : ∀ f ∈ q.filters, f.field ≠ "date".text) :
    ∃ p, q.params z now = .ok p ∧
      (∀ param ∈ ["level".text, "workflowName".text, "folderName".text, "workflowId".text,
        "executionId".text], p.get? param = (q.equalities param).getLast?) ∧
      p.get? "triggers".text = joined? (chr ',') (q.equalities "triggers".text) ∧
      p.get? "search".text = joined? (chr ' ') (q.equalities "search".text ++
        if q.freeText ≠ [] then [q.freeText] else []) ∧
      (∀ f ∈ q.filters, f.field ∈ flagFields → p.get? f.flagName = some "true".text) ∧
      p.names = (q.writes.map Prod.fst).eraseDups := by
  refine ⟨_, q.params_eq_run z now hq, ?_, ?_, ?_, fun f => get?_flagName, Params.names_run _⟩
  · intro param hparam
    have hsingle : ∀ t ∈ ["level".text, "workflowName".text, "folderName".text,
        "workflowId".text, "executionId".text],
        chr '_' ∉ t ∧ Params.separators.lookup t = none ∧ "search".text ≠ t := by decide
    obtain ⟨hunderscore, hsep, hsearch⟩ := hsingle param hparam
    rw [Params.get?_run, hsep, textsUnder_writes q hunderscore, if_neg fun h => hsearch h.2,
      List.append_nil]
  · rw [Params.get?_run, textsUnder_writes q (by decide), if_neg fun h => absurd h.2 (by decide),
      List.append_nil]
    rfl
  · rw [Params.get?_run, textsUnder_writes q (by decide)]
    simp only [and_true]
    rfl

/-- Two names of one parameter, a trigger that is empty, a filter that asks for a difference, an
unknown field, and free text. -/
theorem params_by_name_mixed :
    let q : Query := ⟨[⟨"trigger".text, .eq, .text [], []⟩,
      ⟨"level".text, .eq, .text "error".text, []⟩,
      ⟨"trigger".text, .eq, .text "api".text, []⟩,
      ⟨"cost".text, .gt, .number (.ofInt 5), []⟩,
      ⟨"execution".text, .eq, .text "e1".text, []⟩,
      ⟨"workflow".text, .ne, .text "sync".text, []⟩,
      ⟨"owner".text, .eq, .text "me".text, []⟩,
      ⟨"trigger".text, .eq, .text [], []⟩,
      ⟨"status".text, .eq, .text "info".text, []⟩], "refund".text⟩
    (∀ f ∈ q.filters, f.field ≠ "date".text) ∧
      ∃ p, q.params .utc (.wall 0) = .ok p ∧
        p.names = ["triggers".text, "level".text, "cost_>_5".text, "search".text] ∧
        p.get? "level".text = some "info".text ∧
        p.get? "workflowName".text = none ∧
        p.get? "triggers".text = some "api,".text ∧
        p.get? "search".text = some "e1 refund".text := by
  intro q
  have hq : ∀ f ∈ q.filters, f.field ≠ "date".text := by decide
  obtain ⟨p, hp, hsingle, htriggers, hsearch, -, hnames⟩ := params_by_name q .utc (.wall 0) hq
  refine ⟨hq, p, hp, hnames.trans (by decide +kernel), ?_, ?_, htriggers.trans (by decide +kernel),
    hsearch.trans (by decide +kernel)⟩
  · exact (hsingle _ (by decide)).trans (by decide +kernel)
  · exact (hsingle _ (by decide)).trans (by decide +kernel)

end LogSearch
