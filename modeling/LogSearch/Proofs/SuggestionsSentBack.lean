import LogSearch.Proofs.Answers
import LogSearch.Proofs.JsonText
import LogSearch.Proofs.WellFormedOffers

/-!
# Suggestions sent back

A host asks for suggestions, and to preview one of them it sends the object that it was given back
as it is, with the same query and cursor.  Two requests and two answers lie between the engine and
the text that is shown; nothing is lost on the way.

Suggestions for a query with a surrogate may be answered, since the answer need not repeat it.  The
preview does, and cannot be encoded.

* `Request.Suggests`, `Request.Previews` — requests that ask for suggestions, and for the preview of
  a suggestion.  Query and cursor may be given under any name and in any form that is read.
* `Suggestion.ofMembers_toJson` — a suggestion is read from its object.
* `Json.offered` — the suggestions in an answer, as JSON.
* `suggestions_sent_back_iff` — every suggestion that is offered is read as the engine meant it, and
  its preview is answered if and only if the query is well-formed.
* `Request.previews_previewText` — a request that sends a suggestion back can always be written.
-/

namespace LogSearch

variable {s : Service} {host : Host} {r : Request} {json : Json} {members : List (Text × Json)}
  {query : Text} {cursor : Option Int} {e : Engine}

/-! ## Requests -/

/-- A request for the suggestions at a cursor in a query. -/
structure Request.Suggests (r : Request) (query : Text) (cursor : Option Int) : Prop where
  method : r.method = "POST".text
  route : r.route = "/v1/query/suggest".text
  body : ∃ members, r.json? = .ok (some (.object members)) ∧
    queryMember (.object members) = .valid query ∧ cursorMember (.object members) = .valid cursor

/-- A request for the preview of a suggestion, which is given as JSON, at a cursor in a query. -/
structure Request.Previews (r : Request) (json : Json) (query : Text) (cursor : Option Int) :
    Prop where
  method : r.method = "POST".text
  route : r.route = "/v1/query/preview".text
  body : ∃ members, r.json? = .ok (some (.object members)) ∧
    (Json.object members).field? "suggestion".text = some json ∧
    queryMember (.object members) = .valid query ∧ cursorMember (.object members) = .valid cursor

lemma checkBody_object {α : Type} {check : Json → Checked α} {a : α}
    (h : check (.object members) = .valid a) :
    checkBody check (some (.object members)) = .ok a := by
  rw [checkBody, checkObject, h]

lemma Service.checkLength_eq_ok (h : query.length ≤ s.settings.maxQueryLength) :
    Service.checkLength s.settings query = .ok () := by
  rw [Service.checkLength, if_neg (by omega)]

/-! ## Suggestions as JSON -/

/-- **A suggestion is read from its object.** -/
theorem Suggestion.ofMembers_toJson (x : Suggestion) :
    Suggestion.ofMembers x.toJson = .valid x := by
  obtain ⟨id, value, label, description, category⟩ := x
  cases description <;> rfl

/-- The suggestions in the body of an answer. -/
def Json.offered (body : Json) : List Json :=
  match (body.field? "group".text).bind (·.field? "suggestions".text) with
  | some (.array items) => items
  | _ => []

/-- The answer to a request for suggestions. -/
def suggestionsBody (e : Engine) (query : Text) (cursor : Option Int) : Json :=
  .record [("context", (Context.atCursor query cursor).toJson),
    ("group", Group.toJson? (e.suggest? query cursor))]

lemma portable_suggestionsBody : (suggestionsBody e query cursor).portable
    = suggestionsBody e query cursor := by
  have hgroup : (Group.toJson? (e.suggest? query cursor)).portable
      = Group.toJson? (e.suggest? query cursor) := by
    cases e.suggest? query cursor with
    | none => rfl
    | some group => exact group.portable_toJson
  rw [suggestionsBody, Json.record]
  simp [Json.portable, Json.portableMembers, Context.portable_toJson, hgroup]

/-- Of an answer the suggestions of the engine are left, in order. -/
lemma offered_suggestionsBody : (suggestionsBody e query cursor).offered
    = ((e.suggest? query cursor).elim [] Group.suggestions).map Suggestion.toJson := by
  have hgroup : (suggestionsBody e query cursor).field? "group".text
      = some (Group.toJson? (e.suggest? query cursor)) := rfl
  rw [Json.offered, hgroup]
  cases e.suggest? query cursor with
  | none => rfl
  | some group => cases group <;> rfl

/-- An answer with suggestions can be encoded if its context and its group can. -/
lemma isEncodable_suggestionsBody_iff : (suggestionsBody e query cursor).isEncodable ↔
    (Context.atCursor query cursor).toJson.isEncodable ∧
      ∀ g ∈ e.suggest? query cursor, g.toJson.isEncodable := by
  rw [suggestionsBody, Json.isEncodable_record_iff (by simp)]
  cases e.suggest? query cursor <;> simp [Group.toJson?, Json.isEncodable]

/-- **A preview of what was offered is well-formed if and only if the query is.** -/
lemma isWellFormed_preview_of_offered (h : (suggestionsBody e query cursor).isEncodable)
    {x : Suggestion} (hx : x ∈ (e.suggest? query cursor).elim [] Group.suggestions) :
    isWellFormed (preview x query cursor) ↔ isWellFormed query := by
  obtain ⟨hcontext, hgroup⟩ := isEncodable_suggestionsBody_iff.1 h
  cases hsuggest : e.suggest? query cursor with
  | none => simp [hsuggest] at hx
  | some g =>
      rw [hsuggest] at hx
      exact isWellFormed_preview_iff (Group.isEncodable_of_mem (hgroup g hsuggest) hx) hcontext

/-! ## Answers -/

/-- Asked for suggestions for a query that is short enough, the service offers those of its
engine. -/
lemma answer_of_suggests (h : r.Suggests query cursor)
    (hlength : query.length ≤ s.settings.maxQueryLength) :
    s.answer host r = (s.respond host r (.ok (suggestionsBody s.engine query cursor)), s) := by
  obtain ⟨hmethod, hroute, members, hjson, hquery, hcursor⟩ := h
  have haction : r.action = .ok .suggest :=
    Request.action_eq_ok_iff.2 (by simp [routes, hmethod, hroute])
  have hbody : SuggestBody.ofMembers (.object members) = .valid ⟨query, cursor⟩ := by
    rw [SuggestBody.ofMembers, hquery, hcursor]
    rfl
  have hperform : s.perform host r .suggest
      = .ok (suggestionsBody s.engine query cursor, s) := by
    simp only [Service.perform, Service.suggest, hjson, checkBody_object hbody,
      Service.checkLength_eq_ok hlength, bind, Except.bind, pure, Except.pure, suggestionsBody]
  exact Service.answer_of_perform haction hperform

/-- A suggestion that is sent as its object is read as it was. -/
lemma checkBody_of_previews {x : Suggestion} (h : r.Previews x.toJson query cursor) :
    ∃ body, r.json? = .ok body ∧
      checkBody PreviewBody.ofMembers body = .ok ⟨x, query, cursor⟩ := by
  obtain ⟨-, -, members, hjson, hfield, hquery, hcursor⟩ := h
  have hsuggestion : member (.object members) "suggestion"
      (checkObject .notBody Suggestion.ofMembers) = .valid x := by
    rw [member, hfield]
    exact congrArg (Checked.inside _) x.ofMembers_toJson
  have hbody : PreviewBody.ofMembers (.object members) = .valid ⟨x, query, cursor⟩ := by
    rw [PreviewBody.ofMembers, hsuggestion, hquery, hcursor]
    rfl
  exact ⟨_, hjson, checkBody_object hbody⟩

/-- Asked for the preview of a suggestion, the service accepts it. -/
lemma answer_of_previews {x : Suggestion} (h : r.Previews x.toJson query cursor)
    (hlength : query.length ≤ s.settings.maxQueryLength) :
    s.answer host r = (if isWellFormed (preview x query cursor) then
      ⟨200, s.headers host r none, some (.record [("preview", .string (preview x query cursor))])⟩
    else .failure, s) := by
  obtain ⟨body, hjson, hbody⟩ := checkBody_of_previews h
  have haction : r.action = .ok .preview :=
    Request.action_eq_ok_iff.2 (by simp [routes, h.method, h.route])
  have hperform : s.perform host r .preview
      = .ok (.record [("preview", .string (preview x query cursor))], s) := by
    simp only [Service.perform, Service.accept, hjson, hbody, Service.checkLength_eq_ok hlength,
      bind, Except.bind, pure, Except.pure]
  have hencodable : (Json.record [("preview", .string (preview x query cursor))]).isEncodable
      ↔ isWellFormed (preview x query cursor) := by
    simp [Json.isEncodable_record_iff, Json.isEncodable]
  rw [Service.answer_of_perform haction hperform, Service.respond_eq_ite rfl hencodable]

/-! ## Texts of requests -/

/-- A cursor as JSON. -/
def cursorJson (cursor : Option Int) : Json :=
  (cursor.map Json.integer).getD .null

/-- The text of a body that sends a suggestion back. -/
def previewText (json : Json) (query : Text) (cursor : Option Int) : Text :=
  Json.write (.record [("suggestion", json), ("query", .string query),
    ("cursorPosition", cursorJson cursor)])

lemma Suggestion.isPlain_toJson (x : Suggestion) : x.toJson.IsPlain := by
  obtain ⟨id, value, label, description, category⟩ := x
  have hdescription : (Json.ofText? description).IsPlain := by
    cases description with
    | none => exact .null
    | some text => exact .string text
  refine .object fun m hm => ?_
  simp only [List.map_cons, List.map_nil, List.mem_cons, List.not_mem_nil, or_false] at hm
  rcases hm with rfl | rfl | rfl | rfl | rfl
  · exact .string id
  · exact .string value
  · exact .string label
  · exact hdescription
  · exact .string category

lemma isPlain_cursorJson (h : ∀ i ∈ cursor, (digitsOf i.natAbs).length ≤ Json.maxDigits) :
    (cursorJson cursor).IsPlain := by
  cases cursor with
  | none => exact .null
  | some i => exact .integer (h i rfl)

/-- The body of a request is read from the text of a plain object. -/
lemma Request.json?_of_body (hplain : (Json.object members).IsPlain)
    (h : r.body = (Json.object members).write) : r.json? = .ok (some (.object members)) := by
  have hbrace : ∃ w, (Json.object members).write = chr '\x7b' :: w := by
    cases members <;> exact ⟨_, rfl⟩
  obtain ⟨w, hw⟩ := hbrace
  have hread := Json.read_write hplain
  rw [hw] at hread h
  have hmark : ¬ some (chr '\x7b') = some (chr '\uFEFF') := by decide
  simp [Request.json?, h, hread, hmark]

/-- **A suggestion can always be sent back**, unless the cursor has more digits than are read. -/
theorem Request.previews_previewText (x : Suggestion)
    (hcursor : ∀ i ∈ cursor, (digitsOf i.natAbs).length ≤ Json.maxDigits)
    (hmethod : r.method = "POST".text) (hroute : r.route = "/v1/query/preview".text)
    (hbody : r.body = previewText x.toJson query cursor) : r.Previews x.toJson query cursor := by
  have hplain : (Json.record [("suggestion", x.toJson), ("query", .string query),
      ("cursorPosition", cursorJson cursor)]).IsPlain := by
    refine .object fun m hm => ?_
    simp only [List.map_cons, List.map_nil, List.mem_cons, List.not_mem_nil, or_false] at hm
    rcases hm with rfl | rfl | rfl
    · exact x.isPlain_toJson
    · exact .string query
    · exact isPlain_cursorJson hcursor
  refine ⟨hmethod, hroute, _, Request.json?_of_body hplain hbody, rfl, rfl, ?_⟩
  cases cursor <;> rfl

/-! ## The way there and back -/

/-- **Suggestions sent back are read as they were meant.**  In whatever state a service is, it
offers the suggestions of its engine, each as an object that is read back from its text, if the
query is not longer than allowed.  The answer is 200 unless one of its texts cannot be encoded, for
which a surrogate must have been in the query or in a name.  Sent to any service for a preview, with
the same query and cursor, such an object is decoded to the suggestion that the engine produced.  If
the query is not too long there, the answer is 200 with the preview of that suggestion, if and only
if the preview can be encoded.  Of what was offered with 200, the preview can be encoded if and only
if the query is well-formed. -/
theorem suggestions_sent_back_iff (h : r.Suggests query cursor)
    (hlength : query.length ≤ s.settings.maxQueryLength) :
    ∃ body : Json,
      s.answer host r
        = (if body.isEncodable then ⟨200, s.headers host r none, some body⟩ else .failure, s) ∧
      body.offered = ((s.engine.suggest? query cursor).elim [] Group.suggestions).map
        Suggestion.toJson ∧
      (isWellFormed query → s.engine.IsWellFormed → body.isEncodable) ∧
      ∀ x ∈ (s.engine.suggest? query cursor).elim [] Group.suggestions,
        Json.read x.toJson.write = .ok x.toJson ∧
        (body.isEncodable → (isWellFormed (preview x query cursor) ↔ isWellFormed query)) ∧
        ∀ (s' : Service) host' r', r'.Previews x.toJson query cursor →
          query.length ≤ s'.settings.maxQueryLength →
          (∃ body', r'.json? = .ok body' ∧
            checkBody PreviewBody.ofMembers body' = .ok ⟨x, query, cursor⟩) ∧
          s'.answer host' r' = (if isWellFormed (preview x query cursor) then
            ⟨200, s'.headers host' r' none,
              some (.record [("preview", .string (preview x query cursor))])⟩
          else .failure, s') := by
  refine ⟨suggestionsBody s.engine query cursor, ?_, offered_suggestionsBody, fun hquery hnames =>
    isEncodable_suggestionsBody_iff.2 ⟨Context.isEncodable_atCursor hquery, fun g hg =>
      Engine.isEncodable_of_suggest? hnames hquery hg⟩, fun x hx =>
    ⟨Json.read_write x.isPlain_toJson, fun hbody => isWellFormed_preview_of_offered hbody hx,
      fun _ _ _ hpreviews hlength' =>
        ⟨checkBody_of_previews hpreviews, answer_of_previews hpreviews hlength'⟩⟩⟩
  rw [answer_of_suggests h hlength, Service.respond_eq_ite portable_suggestionsBody Iff.rfl]

/-- A name with quotes in it, and a cursor under its other name and beyond the query. -/
theorem suggestions_sent_back_quotes :
    let s := Service.start { initialWorkflows := "say \"hi\", b".text }
    let host : Host := ⟨.utc, .wall 0, []⟩
    let query := "workflow:s".text
    let r : Request := ⟨"POST".text, "/v1/query/suggest".text, [],
      Json.write (.record [("query", .string query), ("cursor_position", .integer 99)])⟩
    let x : Suggestion := ⟨"filter-value-workflow-say \"hi\"".text, "\"say \"hi\"\"".text,
      "say \"hi\"".text, some "Workflow: say \"hi\"".text, "workflow".text⟩
    let r' : Request := ⟨"POST".text, "/v1/query/preview".text, [],
      previewText x.toJson query (some 99)⟩
    (∃ body, (s.answer host r).1.body = some body ∧ body.offered = [x.toJson]) ∧
      (s.answer host r').1.body
        = some (.record [("preview", .string "workflow:\"say \"hi\"\"".text)]) := by
  intro s host query r x r'
  have hplain :
      (Json.record [("query", .string query), ("cursor_position", .integer 99)]).IsPlain := by
    refine .object fun m hm => ?_
    simp only [List.map_cons, List.map_nil, List.mem_cons, List.not_mem_nil, or_false] at hm
    rcases hm with rfl | rfl
    · exact .string query
    · exact .integer (by decide)
  have hr : r.Suggests query (some 99) :=
    ⟨rfl, rfl, _, Request.json?_of_body hplain rfl, rfl, rfl⟩
  have hr' : r'.Previews x.toJson query (some 99) :=
    Request.previews_previewText x (by simp; decide) rfl rfl rfl
  have hoffered : (s.engine.suggest? query (some 99)).elim [] Group.suggestions = [x] := by
    decide +kernel
  have hlength : query.length ≤ s.settings.maxQueryLength := by decide
  have htext : preview x query (some 99) = "workflow:\"say \"hi\"\"".text := by decide +kernel
  obtain ⟨body, hanswer, hbody, hencodable, hback⟩ :=
    @suggestions_sent_back_iff s host r query (some 99) hr hlength
  obtain ⟨-, -, hpreview⟩ := hback x (by rw [hoffered]; exact List.mem_singleton_self x)
  have hwell := hencodable (String.isWellFormed_text _) (by decide +kernel)
  refine ⟨⟨body, by rw [hanswer, if_pos hwell], by rw [hbody, hoffered]; rfl⟩, ?_⟩
  rw [(hpreview s host r' hr' hlength).2, htext, if_pos (String.isWellFormed_text _)]

/-- **A preview that cannot be encoded.**  Half a surrogate pair stands before the word for which a
value is offered.  The suggestions are answered with 200.  Sent back with the same query, one of
them is answered with 500. -/
theorem suggestions_sent_back_half_pair :
    let s := Service.start {}
    let host : Host := ⟨.utc, .wall 0, []⟩
    let query : Text := .surrogate 0 :: " lev".text
    let r : Request := ⟨"POST".text, "/v1/query/suggest".text, [],
      "\x7b\"query\": \"\\ud800 lev\"\x7d".text⟩
    let x : Suggestion := ⟨"filter-value-level-error".text, "error".text, "Error".text,
      some "Error logs only".text, "level".text⟩
    let r' : Request := ⟨"POST".text, "/v1/query/preview".text, [],
      previewText x.toJson query none⟩
    r.Suggests query none ∧ (s.answer host r).1.status = 200 ∧
      x ∈ (s.engine.suggest? query none).elim [] Group.suggestions ∧
      r'.Previews x.toJson query none ∧ (s.answer host r').1.status = 500 := by
  intro s host query r x r'
  have hr : r.Suggests query none :=
    ⟨rfl, rfl, [("query".text, .string query)], by with_unfolding_all rfl, rfl, rfl⟩
  have hr' : r'.Previews x.toJson query none :=
    Request.previews_previewText x (by simp) rfl rfl rfl
  exact ⟨hr, by decide +kernel, by decide +kernel, hr', by decide +kernel⟩

end LogSearch
