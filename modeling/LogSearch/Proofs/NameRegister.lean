import LogSearch.Proofs.AdminKey
import LogSearch.Proofs.NameCompletion

/-!
# The names as a register

The service holds two lists of names, and all that it says about names comes from them.  A request
that replaces names writes the lists that it gives; nothing else changes them.  Seen from outside,
the lists should be those that were given last by a request that was answered with 200.  They are,
as long as every name can be encoded: a request that leaves another name fails when it is answered,
and by then the lists are written.

* `Service.after`, `Service.run_snd` — what the service becomes, told by the events alone.
* `Engine.after` — the names as they are seen from outside.
* `Service.Loses` — a request that writes names and fails.  `Service.register_iff`: without such
  requests, and only then, the names are always those seen from outside.
* `Engine.OffersFrom` — how completion uses a list.
* `names_last_writer_iff` — all of this for a run of the service.
-/

namespace LogSearch

variable {json : Json} {s next : Service} {host : Host} {r : Request} {e : Engine}

/-! ## Events -/

namespace Service

lemma checkKey_eq_ok_iff {settings : Settings} :
    checkKey settings r = .ok () ↔ settings.Admits r ∧ ¬ settings.CannotCompare r := by
  by_cases hcompare : settings.CannotCompare r
  · simp [checkKey_of_cannotCompare hcompare, hcompare]
  · by_cases hadmits : settings.Admits r
    · simp [checkKey_of_admits hadmits hcompare, hadmits, hcompare]
    · simp [checkKey_of_not_admits hadmits hcompare, hadmits]

/-- Names are replaced by requests that are accepted, and by no others. -/
lemma accepts_of_perform (haction : r.action = .ok .replaceNames)
    (h : s.perform host r .replaceNames = .ok (json, next)) : s.settings.Accepts r := by
  have hgives := givesNames_of_perform h
  rw [s.perform_replaceNames host hgives] at h
  have hkey : checkKey s.settings r = .ok () := by
    cases hkey : checkKey s.settings r with
    | ok => rfl
    | error refusal => simp [hkey, Except.map] at h
  obtain ⟨hadmits, hcompare⟩ := checkKey_eq_ok_iff.1 hkey
  exact ⟨action_eq_replaceNames_iff.1 haction, hgives, hadmits, hcompare⟩

/-- The service after an event: a request that is accepted replaces the names, and a change of the
settings changes them. -/
def after (s : Service) : Event → Service
  | .request _ r => if s.settings.Accepts r then { s with engine := s.engine.given r } else s
  | .configure setting => { s with settings := s.settings.assign setting }

/-- **One event.**  Whatever it is answered with, the event alone tells what the service becomes. -/
theorem step_snd (s : Service) (event : Event) : (s.step event).2 = s.after event := by
  cases event with
  | configure setting => rfl
  | request host r =>
      rw [after]
      by_cases haccepts : s.settings.Accepts r
      · rw [if_pos haccepts]
        exact congrArg Prod.snd (s.answer_of_accepts host haccepts)
      · rw [if_neg haccepts]
        rcases s.answer_cases host r with ⟨refusal, h⟩ | ⟨action, json, next, haction, hperform, h⟩
        · exact congrArg Prod.snd h
        · have hother : action ≠ .replaceNames := by
            rintro rfl
            exact haccepts (accepts_of_perform haction hperform)
          rw [perform_of_ne hother hperform] at h
          exact congrArg Prod.snd h

/-- **A run.** -/
theorem run_snd (s : Service) (events : List Event) :
    (s.run events).2 = events.foldl after s := by
  induction events generalizing s with
  | nil => rfl
  | cons event events ih =>
      rw [run, List.foldl_cons, ← step_snd, ← ih]

/-- Only a request that is accepted is answered with 200, of those that replace names. -/
lemma accepts_of_status (hr : r.ReplacesNames) (h : (s.answer host r).1.status = 200) :
    s.settings.Accepts r := by
  rcases s.answer_cases host r with ⟨refusal, hanswer⟩ | ⟨action, json, next, haction, hperform, -⟩
  · rw [hanswer] at h
    exact absurd h refusal.status_ne
  · obtain rfl : action = .replaceNames :=
      Except.ok.inj (haction.symm.trans (action_eq_replaceNames_iff.2 hr))
    exact accepts_of_perform haction hperform

/-- In a run too, a request that replaces names and is answered with 200 gives them. -/
lemma run_givesNames (s : Service) (events : List Event) (response : Response)
    (hmem : (.request host r, some response) ∈ events.zip (s.run events).1)
    (hr : r.ReplacesNames) (h : response.status = 200) : r.GivesNames := by
  induction events generalizing s with
  | nil => simp [run] at hmem
  | cons event events ih =>
      rw [run] at hmem
      simp only [List.zip_cons_cons, List.mem_cons, Prod.mk.injEq] at hmem
      rcases hmem with ⟨rfl, hresponse⟩ | hmem
      · obtain rfl : response = (s.answer host r).1 := Option.some_inj.1 hresponse
        exact (accepts_of_status hr h).gives
      · exact ih _ hmem

end Service

/-! ## The register -/

/-- The names after an event as they are seen from outside: an answer of 200 to a request that
replaces names says that the lists of the request have taken the place of those from before. -/
def Engine.after (e : Engine) : Service.Event × Option Response → Engine
  | (.request _ r, some response) =>
    if r.ReplacesNames ∧ response.status = 200 then e.given r else e
  | _ => e

namespace Service

/-- A request replaces names by others, one of which cannot be encoded for the answer. -/
def Loses (s : Service) (r : Request) : Prop :=
  s.settings.Accepts r ∧ ¬ (s.engine.given r).IsWellFormed ∧ s.engine.given r ≠ s.engine

/-- The names are seen from outside, unless a request writes them and fails. -/
lemma after_eq_iff (s : Service) (host : Host) (r : Request) :
    (s.after (.request host r)).engine
        = s.engine.after (.request host r, some (s.answer host r).1) ↔ ¬ s.Loses r := by
  rw [after, Engine.after, Loses]
  by_cases haccepts : s.settings.Accepts r
  · rw [if_pos haccepts]
    by_cases hnames : (s.engine.given r).IsWellFormed
    · rw [if_pos ⟨haccepts.replaces, (s.status_of_accepts host haccepts).2 hnames⟩]
      exact iff_of_true rfl fun h => h.2.1 hnames
    · rw [if_neg fun h => hnames ((s.status_of_accepts host haccepts).1 h.2)]
      simp [haccepts, hnames]
  · rw [if_neg haccepts, if_neg fun h => haccepts (accepts_of_status h.1 h.2)]
    exact iff_of_true rfl fun h => haccepts h.1

/-- **The register.**  At every moment of a run the names are those seen from outside, if and only
if no request writes them and fails. -/
theorem register_iff (s : Service) (events : List Event) :
    (∀ n, ((events.take n).foldl after s).engine
        = ((events.take n).zip (s.run events).1).foldl Engine.after s.engine) ↔
      ∀ n host r, events[n]? = some (.request host r) →
        ¬ ((events.take n).foldl after s).Loses r := by
  induction events generalizing s with
  | nil => simp
  | cons event events ih =>
      -- the first event, and then the run that goes on from there
      have hrun : (s.run (event :: events)).1
          = (s.step event).1 :: ((s.after event).run events).1 := by
        rw [run, ← step_snd]
      have hsplit : (∀ n, (((event :: events).take n).foldl after s).engine
            = (((event :: events).take n).zip (s.run (event :: events)).1).foldl Engine.after
              s.engine) ↔
          ∀ n, ((events.take n).foldl after (s.after event)).engine
            = ((events.take n).zip ((s.after event).run events).1).foldl Engine.after
              (s.engine.after (event, (s.step event).1)) := by
        rw [hrun, ← Nat.and_forall_add_one]
        simp
      have hlater : (∀ n host r, (event :: events)[n]? = some (.request host r) →
            ¬ (((event :: events).take n).foldl after s).Loses r) ↔
          (∀ host r, event = .request host r → ¬ s.Loses r) ∧
            ∀ n host r, events[n]? = some (.request host r) →
              ¬ ((events.take n).foldl after (s.after event)).Loses r := by
        rw [← Nat.and_forall_add_one]
        simp
      have hfirst : (s.after event).engine = s.engine.after (event, (s.step event).1) ↔
          ∀ host r, event = .request host r → ¬ s.Loses r := by
        cases event with
        | configure setting => simp [after, Engine.after]
        | request host r =>
            rw [step, s.after_eq_iff host r]
            simp
      rw [hsplit, hlater]
      by_cases hseen : (s.after event).engine = s.engine.after (event, (s.step event).1)
      · rw [← hseen, ih]
        exact ⟨fun h => ⟨hfirst.1 hseen, h⟩, And.right⟩
      · exact iff_of_false (fun h => hseen (by simpa using h 0)) fun h => hseen (hfirst.2 h.1)

end Service

/-! ## What comes from the names -/

/-- Completion uses a list for a key: the key is offered if and only if the list is not empty, and
of its values the first eight are offered in which the typed text is found. -/
structure Engine.OffersFrom (e : Engine) (key : Text) (list : List Text) : Prop where
  key_iff : (∃ typed, ∃ x ∈ (e.keyGroup typed).suggestions, x.value = key ++ [chr ':']) ↔ list ≠ []
  values : ∀ typed, ∃ suggestions, e.valueGroup? key typed = some (.values key suggestions) ∧
    suggestions.map (·.label) = (list.filter fun name =>
      contains (lower (trim (· == chr '"') typed)) (lower name)).take 8

/-- A key of names is offered for the list of its names. -/
lemma Engine.offersFrom_names (e : Engine) {k : KeyInfo} (hk : k ∈ nameKeys) :
    e.OffersFrom k.key (e.names k.key) := by
  have hother : (∀ d ∈ catalog, d.key ≠ k.key) ∧ ∀ i ∈ idKeys, i.key ≠ k.key := by
    have hkeys : ∀ k ∈ nameKeys, (∀ d ∈ catalog, d.key ≠ k.key) ∧ ∀ i ∈ idKeys, i.key ≠ k.key := by
      decide +kernel
    exact hkeys k hk
  refine ⟨⟨?offered, fun hne => ?held⟩, fun typed => ?values⟩
  case offered =>
    rintro ⟨typed, x, hx, hvalue⟩
    simp only [keyGroup, Group.suggestions, List.mem_append, List.mem_map] at hx
    rcases hx with (⟨d, hd, rfl⟩ | ⟨k', hk', rfl⟩) | ⟨i, hi, rfl⟩
    · exact absurd (List.append_cancel_right hvalue) (hother.1 d (List.mem_filter.1 hd).1)
    · have hkey : k'.key = k.key := List.append_cancel_right hvalue
      have hheld := (List.mem_filter.1 hk').2
      simp only [Bool.and_eq_true, Bool.not_eq_true', List.isEmpty_eq_false_iff] at hheld
      exact hkey ▸ hheld.1
    · exact absurd (List.append_cancel_right hvalue) (hother.2 i (List.mem_filter.1 hi).1)
  case held =>
    have hmem : k ∈ nameKeys.filter fun k =>
        !(e.names k.key).isEmpty && startsWithTyped [] [k.key, k.label] := by
      simp [hk, hne, startsWithTyped, lower, lowerAfter]
    refine ⟨[], Suggestion.ofKey k.key k.label k.description, ?_, rfl⟩
    simp only [keyGroup, Group.suggestions, List.mem_append, List.mem_map]
    exact Or.inl (Or.inr ⟨k, hmem, rfl⟩)
  case values =>
    have hsome : (nameKey? k.key).isSome := List.find?_isSome.2 ⟨k, hk, by simp⟩
    obtain ⟨k', hkey, hg⟩ := exists_valueGroup?_names hsome e typed
    exact ⟨_, hg, hkey ▸ labels_nameSuggestions e k' typed⟩

namespace Service

/-- Asked for the names, the service answers with both lists and is not changed. -/
lemma answer_names (hmethod : r.method = "GET".text) (hroute : r.route = "/v1/domains".text) :
    s.answer host r = (s.respond host r (.ok s.engine.toJson), s) := by
  have haction : r.action = .ok .names :=
    Request.action_eq_ok_iff.2 (by simp [routes, hmethod, hroute])
  exact answer_of_perform haction rfl

/-- Asked for suggestions, the service offers those of its engine. -/
lemma answer_suggest (hmethod : r.method = "POST".text)
    (hroute : r.route = "/v1/query/suggest".text) (h : (s.answer host r).1.status = 200) :
    ∃ body b, r.json? = .ok body ∧ checkBody SuggestBody.ofMembers body = .ok b ∧
      (s.answer host r).1.body = some (Json.portable (.record
        [("context", (Context.atCursor b.query b.cursor).toJson),
          ("group", Group.toJson? (s.engine.suggest? b.query b.cursor))])) := by
  have haction : r.action = .ok .suggest :=
    Request.action_eq_ok_iff.2 (by simp [routes, hmethod, hroute])
  rcases s.answer_cases host r with
    ⟨refusal, hanswer⟩ | ⟨action, json, next, haction', hperform, hanswer⟩
  · rw [hanswer] at h
    exact absurd h refusal.status_ne
  · obtain rfl : action = .suggest := Except.ok.inj (haction'.symm.trans haction)
    rw [hanswer] at h ⊢
    rw [respond_of_isEncodable (status_respond_iff.1 h)]
    simp only [perform, suggest, bind_eq_ok_iff, pure, Except.pure, Except.ok.injEq,
      Prod.mk.injEq] at hperform
    obtain ⟨body, hjson, b, hb, -, ⟨-, -, rfl⟩, rfl, -⟩ := hperform
    exact ⟨body, b, hjson, hb, rfl⟩

end Service

/-- **The names are those that were written last**, as long as they can be encoded.  Over any run of
requests and changes of the settings, the events alone tell the lists: they are those that the
service started with, overwritten in order by the requests that are accepted.  A request that
replaces names and is answered with 200 is one of them and gives its lists in a plain way.  At every
moment the lists are those written by requests that were answered with 200, if and only if no
request writes other names and fails because one of them cannot be encoded.  Asked for the names,
the service always answers with just these lists, or fails for the same reason; and all that it
suggests comes from them. -/
theorem names_last_writer_iff (settings : Settings) (events : List Service.Event) :
    let start := Service.start settings
    let answers := (start.run events).1
    let state (n : Nat) := (start.run (events.take n)).2
    (∀ n, state n = (events.take n).foldl Service.after start) ∧
    (∀ host r response, (.request host r, some response) ∈ events.zip answers →
      r.ReplacesNames → response.status = 200 → r.GivesNames) ∧
    ((∀ n, (state n).engine = ((events.take n).zip answers).foldl Engine.after
        ⟨settings.workflows, settings.folders⟩) ↔
      ∀ n host r, events[n]? = some (.request host r) → ¬ (state n).Loses r) ∧
    ∀ n,
      (∀ host r, r.method = "GET".text → r.route = "/v1/domains".text →
        (state n).answer host r =
          (if (state n).engine.IsWellFormed then
            ⟨200, (state n).headers host r none, some (.record
              [("workflows", .ofTexts (state n).engine.workflows),
                ("folders", .ofTexts (state n).engine.folders)])⟩
          else .failure, state n)) ∧
      (∀ host r, r.method = "POST".text → r.route = "/v1/query/suggest".text →
        ((state n).answer host r).1.status = 200 →
        ∃ body b, r.json? = .ok body ∧ checkBody SuggestBody.ofMembers body = .ok b ∧
          ((state n).answer host r).1.body = some (Json.portable (.record
            [("context", (Context.atCursor b.query b.cursor).toJson),
              ("group", Group.toJson? ((state n).engine.suggest? b.query b.cursor))]))) ∧
      (state n).engine.OffersFrom "workflow".text (state n).engine.workflows ∧
      (state n).engine.OffersFrom "folder".text (state n).engine.folders := by
  intro start answers state
  have hstate : ∀ n, state n = (events.take n).foldl Service.after start :=
    fun n => start.run_snd (events.take n)
  refine ⟨hstate, fun host r response => start.run_givesNames events response, ?_, fun n =>
    ⟨fun host r hmethod hroute => ?_, fun host r => Service.answer_suggest,
      Engine.offersFrom_names _ (k := keyInfo "workflow" "Workflow" "Filter by workflow name")
        (by decide),
      Engine.offersFrom_names _ (k := keyInfo "folder" "Folder" "Filter by folder name")
        (by decide)⟩⟩
  · simp only [hstate]
    exact start.register_iff events
  · rw [Service.answer_names hmethod hroute,
      Service.respond_eq_ite (Engine.portable_toJson _) Engine.isEncodable_toJson_iff]
    rfl

/-- A wrong key, a list with a number in it, one list alone, a change of the settings, and a list
that is cleared beside one that stays. -/
theorem names_last_writer_iff_update :
    let settings : Settings := { adminKey := "k".text, initialWorkflows := "a, b".text }
    let host : Host := ⟨.utc, .wall 0, []⟩
    let key := [("x-api-key".text, "k".text)]
    let put (headers : List (Text × Text)) (body : String) : Service.Event :=
      .request host ⟨"PUT".text, "/v1/domains".text, headers, body.text⟩
    let events := [put [] "\x7b\"workflows\": [\"c\"]\x7d",
      put key "\x7b\"workflows\": [\"c\"], \"folders\": [1]\x7d",
      put key "\x7b\"folders\": [\"f\"]\x7d", .configure (.initialWorkflows "d".text),
      put key "\x7b\"workflows\": [], \"folders\": null\x7d"]
    let s := ((Service.start settings).run events).2
    ((Service.start settings).run events).1.map (·.map Response.status)
        = [some 401, some 422, some 200, none, some 200] ∧
      ∀ r : Request, r.method = "GET".text → r.route = "/v1/domains".text →
        (s.answer host r).1.body
          = some (.record [("workflows", .ofTexts []), ("folders", .ofTexts ["f".text])]) := by
  intro settings host key put events s
  have hstatus : ((Service.start settings).run events).1.map (·.map Response.status)
      = [some 401, some 422, some 200, none, some 200] := by decide +kernel
  have hengine : s.engine = ⟨[], ["f".text]⟩ := by decide +kernel
  have hnames : s.engine.IsWellFormed := by
    rw [hengine]
    decide
  obtain ⟨-, -, -, hget⟩ := names_last_writer_iff settings events
  refine ⟨hstatus, fun r hmethod hroute => ?_⟩
  have hanswer := (hget events.length).1 host r hmethod hroute
  simp only [List.take_length] at hanswer
  rw [hanswer, if_pos hnames, hengine]

/-- **Names that are written by a failure.**  A request gives two lists, and one of them has a name
that is half a surrogate pair.  It is answered with 500, and another list of names can still be read
from the suggestions: it is the one that was given. -/
theorem names_written_by_failure :
    let host : Host := ⟨.utc, .wall 0, []⟩
    let put : Service.Event := .request host ⟨"PUT".text, "/v1/domains".text, [],
      "\x7b\"workflows\": [\"\\ud800\"], \"folders\": [\"new\"]\x7d".text⟩
    let start := Service.start {}
    let run := start.run [put]
    run.1.map (·.map Response.status) = [some 500] ∧
      ([put].zip run.1).foldl Engine.after start.engine = ⟨[], []⟩ ∧
      run.2.engine.folders = ["new".text] ∧
      (run.2.engine.suggest? "folder:".text none).map (·.suggestions.map (·.label))
        = some ["new".text] := by
  decide +kernel

end LogSearch
