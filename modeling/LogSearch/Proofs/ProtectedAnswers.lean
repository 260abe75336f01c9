import LogSearch.Proofs.ReplacedNames

/-!
# Which answers are protected

Every answer should be tagged with an identifier of its request and carry the headers that protect a
browser.  They are added by a layer around the service, and two kinds of answers come from further
out.  An unforeseen failure is caught outside that layer.  And questions that a browser asks before
it turns to another origin are answered by a layer in front, before the service sees the request;
that layer is not part of this library and is taken as a parameter.

* `Response.Protected` — what an answer should carry, said of its headers alone.
* `Service.runBehind` — a run behind a layer in front, with one lemma for what is answered at each
  place and one for the settings that are in force there.
* `isProtected_iff` — an answer is protected, except exactly if it comes from the layer in front or
  has status 500; then it carries none of these headers.
-/

namespace LogSearch

variable {s : Service} {host : Host} {r : Request} {settings : Settings} {response : Response}
  {front : Request → Option Response} {events : List Service.Event}

/-! ## Protected answers -/

/-- The characters of an identifier. -/
def idChars : Text :=
  "ABCDEFGHIJKLMNOPQRSTUVWXYZabcdefghijklmnopqrstuvwxyz0123456789._-".text

/-- A text can be the identifier of a request. -/
def IsIdentifier (id : Text) : Prop :=
  1 ≤ id.length ∧ id.length ≤ 128 ∧ ∀ c ∈ id, c ∈ idChars

/-- The names of the headers that an answer should carry. -/
def protectiveNames : List String :=
  ["x-request-id", "x-content-type-options", "x-frame-options", "strict-transport-security"]

namespace Response

/-- The values of all headers with a name. -/
def headerValues (response : Response) (name : String) : List Text :=
  (response.headers.filter fun h => h.1 == name.text).map (·.2)

/-- An answer to a request is tagged and protected: it carries one identifier, which is the first
one that came if that is well-formed and a fresh one otherwise, and the headers that the settings
ask for. -/
structure Protected (response : Response) (settings : Settings) (host : Host) (r : Request) :
    Prop where
  kept : ∀ id, r.header? "x-request-id" = some id → IsIdentifier id →
    response.headerValues "x-request-id" = [id]
  fresh : (∀ id, r.header? "x-request-id" = some id → ¬ IsIdentifier id) →
    response.headerValues "x-request-id" = [host.freshId]
  nosniff : response.headerValues "x-content-type-options" = ["nosniff".text]
  unframed : response.headerValues "x-frame-options" = ["DENY".text]
  secured : response.headerValues "strict-transport-security" ≠ [] ↔
    settings.environment = "production".text ∧ settings.debug = false

/-- An answer carries none of the headers that it should carry. -/
def Bare (response : Response) : Prop :=
  ∀ name ∈ protectiveNames, response.headerValues name = []

instance (response : Response) : Decidable response.Bare :=
  inferInstanceAs (Decidable (∀ _ ∈ _, _))

lemma Bare.not_protected (h : response.Bare) : ¬ response.Protected settings host r := fun hp => by
  have hnosniff := h "x-content-type-options" (by decide)
  rw [hp.nosniff] at hnosniff
  simp at hnosniff

end Response

/-! ## Identifiers -/

lemma mem_idChars_iff {c : CodePoint} : c ∈ idChars ↔
    c.toNat ∈ List.range' 65 26 ++ List.range' 97 26 ++ List.range' 48 10 ++ [46, 95, 45] := by
  have hcodes : idChars.map CodePoint.toNat =
      List.range' 65 26 ++ List.range' 97 26 ++ List.range' 48 10 ++ [46, 95, 45] := by
    decide +kernel
  rw [← hcodes, List.mem_map]
  exact ⟨fun h => ⟨c, h, rfl⟩, fun ⟨d, hd, heq⟩ => CodePoint.toNat_inj.1 heq ▸ hd⟩

lemma isIdChar_iff {c : CodePoint} : isIdChar c ↔ c ∈ idChars := by
  rw [mem_idChars_iff]
  simp only [isIdChar, CodePoint.isAlphanum, Bool.or_eq_true, CodePoint.isAlpha_iff_toNat,
    CodePoint.isDigit_iff_toNat, beq_iff_eq, ← CodePoint.toNat_inj (c := c), CodePoint.toNat_chr,
    List.mem_append, List.mem_range'_1, List.mem_cons, List.not_mem_nil, or_false,
    Char.reduceToNat]
  omega

lemma isRequestId_iff {id : Text} : isRequestId id ↔ IsIdentifier id := by
  rw [isRequestId, IsIdentifier]
  simp [isIdChar_iff, Nat.succ_le_iff, List.length_pos_iff, and_assoc]

lemma requestId_eq_of_isIdentifier {id fresh : Text} (h : r.header? "x-request-id" = some id)
    (hid : IsIdentifier id) : requestId r fresh = id := by
  rw [requestId, h, Option.filter_some, if_pos (isRequestId_iff.2 hid), Option.getD_some]

lemma requestId_eq_fresh {fresh : Text}
    (h : ∀ id, r.header? "x-request-id" = some id → ¬ IsIdentifier id) :
    requestId r fresh = fresh := by
  rw [requestId]
  cases hcame : r.header? "x-request-id" with
  | none => rfl
  | some id =>
      rw [Option.filter_some, if_neg fun hid => h id hcame (isRequestId_iff.1 hid)]
      rfl

/-- The headers that the service adds protect an answer. -/
lemma protected_of_headers
    (h : response.headers = protectiveHeaders settings (requestId r host.freshId)) :
    response.Protected settings host r := by
  have hproduction : settings.isProduction ↔
      settings.environment = "production".text ∧ settings.debug = false := by
    simp [Settings.isProduction]
  have hid : response.headerValues "x-request-id" = [requestId r host.freshId] := by
    rw [Response.headerValues, h, protectiveHeaders]
    split <;> simp
  refine ⟨?kept, ?fresh, ?nosniff, ?unframed, ?secured⟩
  case kept =>
    intro id hcame hwell
    rw [hid, requestId_eq_of_isIdentifier hcame hwell]
  case fresh =>
    intro hnone
    rw [hid, requestId_eq_fresh hnone]
  case nosniff | unframed =>
    rw [Response.headerValues, h, protectiveHeaders]
    split <;> simp
  case secured =>
    rw [← hproduction, Response.headerValues, h, protectiveHeaders]
    split <;> simp [*]

/-! ## One answer -/

namespace Service

/-- An answer of the service is protected, or it is the bare answer to an unforeseen failure. -/
lemma answer_protected (s : Service) (host : Host) (r : Request) :
    (s.answer host r).1.Protected s.settings host r ∧ (s.answer host r).1.status ≠ 500 ∨
      (s.answer host r).1.Bare ∧ (s.answer host r).1.status = 500 := by
  rcases s.answer_cases host r with ⟨refusal, h⟩ | ⟨action, json, next, -, -, h⟩
  · rw [h]
    cases refusal with
    | unexpected mishap => exact Or.inr ⟨fun _ _ => rfl, rfl⟩
    | _ => exact Or.inl ⟨protected_of_headers rfl, by simp [Refusal.status]⟩
  · rw [h]
    rcases s.respond_cases host r json with ⟨-, hanswer⟩ | ⟨-, hanswer⟩
    · rw [hanswer]
      exact Or.inl ⟨protected_of_headers rfl, by simp⟩
    · rw [hanswer]
      exact Or.inr ⟨fun _ _ => rfl, rfl⟩

/-! ## Runs behind a layer in front -/

/-- The answer to an event behind a layer in front, and the service after it.  A request that the
layer answers does not reach the service. -/
def stepBehind (front : Request → Option Response) (s : Service) (event : Event) :
    Option Response × Service :=
  match event with
  | .request host r =>
    match front r with
    | some response => (some response, s)
    | none => s.step (.request host r)
  | .configure setting => s.step (.configure setting)

/-- The answers to a sequence of events behind a layer in front, and the service after it. -/
def runBehind (front : Request → Option Response) (s : Service) :
    List Event → List (Option Response) × Service
  | [] => ([], s)
  | event :: rest =>
    let (response, next) := s.stepBehind front event
    let (responses, last) := next.runBehind front rest
    (response :: responses, last)

/-- The settings after an event. -/
def settingsAfter (settings : Settings) : Event → Settings
  | .request _ _ => settings
  | .configure setting => settings.assign setting

/-- No request changes the settings. -/
lemma answer_settings (s : Service) (host : Host) (r : Request) :
    (s.answer host r).2.settings = s.settings := by
  rcases s.answer_cases host r with ⟨refusal, h⟩ | ⟨action, json, next, -, hperform, h⟩
  · rw [h]
  · rw [h]
    by_cases hreplace : action = .replaceNames
    · subst hreplace
      simp only [perform, bind_eq_ok_iff, pure, Except.pure, Except.ok.injEq,
        Prod.mk.injEq] at hperform
      obtain ⟨-, -, -, -, b, -, -, rfl⟩ := hperform
      rfl
    · rw [perform_of_ne hreplace hperform]

lemma stepBehind_settings (front : Request → Option Response) (s : Service) (event : Event) :
    (s.stepBehind front event).2.settings = settingsAfter s.settings event := by
  cases event with
  | configure setting => rfl
  | request host r =>
      rw [stepBehind, settingsAfter]
      split
      · rfl
      · exact s.answer_settings host r

/-- The settings after a run are those from before it, with all changes since. -/
lemma runBehind_settings (front : Request → Option Response) (s : Service) (events : List Event) :
    (s.runBehind front events).2.settings = events.foldl settingsAfter s.settings := by
  induction events generalizing s with
  | nil => rfl
  | cons event events ih => rw [runBehind, ih, stepBehind_settings, List.foldl_cons]

/-- What is answered at a place of a run is what the service answers there after the events up to
that place. -/
lemma runBehind_getElem? (front : Request → Option Response) (s : Service) (events : List Event)
    (i : Nat) : (s.runBehind front events).1[i]?
      = events[i]?.map fun event =>
        ((s.runBehind front (events.take i)).2.stepBehind front event).1 := by
  induction events generalizing s i with
  | nil => rfl
  | cons event events ih =>
      rw [runBehind]
      cases i with
      | zero => rfl
      | succ i => simp [ih, runBehind]

end Service

/-- **Which answers are protected.**  Over any run of requests and changes of the settings, behind
any layer in front whose own answers are bare, every request is answered.  The answer is tagged and
protected as the settings of that moment ask for, if and only if it does not come from the layer in
front and is no unforeseen failure; otherwise it is bare. -/
theorem isProtected_iff (front : Request → Option Response)
    (hfront : ∀ r response, front r = some response → response.Bare) (settings : Settings)
    (events : List Service.Event) (i : Nat) (hi : events[i]? = some (.request host r)) :
    let now := (events.take i).foldl Service.settingsAfter settings
    ∃ response, ((Service.start settings).runBehind front events).1[i]? = some (some response) ∧
      (response.Protected now host r ↔ front r = none ∧ response.status ≠ 500) ∧
      (¬ response.Protected now host r → response.Bare) := by
  intro now
  have hanswer := Service.runBehind_getElem? front (.start settings) events i
  have hnow := Service.runBehind_settings front (.start settings) (events.take i)
  rw [hi, Option.map_some] at hanswer
  generalize ((Service.start settings).runBehind front (events.take i)).2 = s at hanswer hnow
  have hsettings : s.settings = now := hnow
  rw [← hsettings]
  cases hf : front r with
  | some response =>
      have hbare := hfront r response hf
      refine ⟨response, ?_, ?_, fun _ => hbare⟩
      · rw [hanswer, Service.stepBehind, hf]
      · exact iff_of_false hbare.not_protected (by simp)
  | none =>
      refine ⟨(s.answer host r).1, ?_, ?_⟩
      · rw [hanswer, Service.stepBehind, hf]
        rfl
      · rcases s.answer_protected host r with ⟨hprotected, hstatus⟩ | ⟨hbare, hstatus⟩
        · exact ⟨iff_of_true hprotected ⟨rfl, hstatus⟩, fun h => absurd hprotected h⟩
        · exact ⟨iff_of_false hbare.not_protected fun h => h.2 hstatus, fun _ => hbare⟩

/-- In production, a request with a malformed identifier before a well-formed one gets a fresh one.
The layer in front answers a browser that asks beforehand. -/
theorem isProtected_iff_production :
    let front : Request → Option Response := fun r =>
      if r.method = "OPTIONS".text ∧ r.header? "origin" ≠ none ∧
          r.header? "access-control-request-method" ≠ none then
        some ⟨200, [("access-control-allow-origin".text, "*".text)], some (.string "OK".text)⟩
      else none
    let host : Host := ⟨.utc, .wall 0, "fresh".text⟩
    let r : Request := ⟨"GET".text, "/v1/domains".text,
      [("X-Request-Id".text, "no id".text), ("X-Request-Id".text, "ui-7".text)], []⟩
    let events := [.configure (.environment "production".text), .request host r]
    ∃ response, ((Service.start {}).runBehind front events).1[1]? = some (some response) ∧
      response.headerValues "x-request-id" = ["fresh".text] ∧
      response.headerValues "strict-transport-security" ≠ [] := by
  intro front host r events
  have hfront : ∀ r response, front r = some response → response.Bare := by
    intro r response h
    simp only [front] at h
    split at h
    · obtain rfl := Option.some_inj.1 h
      decide
    · simp at h
  have hevent : events[1]? = some (.request host r) := rfl
  obtain ⟨response, hanswer, hprotected, -⟩ := isProtected_iff front hfront {} events 1 hevent
  have hstatus : response.status ≠ 500 := by
    have hall : ∀ answer ∈ ((Service.start {}).runBehind front events).1[1]?,
        answer.map Response.status ≠ some 500 := by decide +kernel
    simpa using hall _ hanswer
  have h := hprotected.2 ⟨by decide +kernel, hstatus⟩
  refine ⟨response, hanswer, h.fresh fun id hid => ?_, h.secured.2 (by decide +kernel)⟩
  obtain rfl : "no id".text = id := Option.some_inj.1 (Eq.trans (by decide +kernel) hid)
  rw [← isRequestId_iff]
  decide +kernel

/-- **A bare answer.**  A key that is not ASCII is an unforeseen failure, and the answer has no
header at all, although the request came with a well-formed identifier. -/
theorem bare_answer :
    let host : Host := ⟨.utc, .wall 0, "fresh".text⟩
    let r : Request := ⟨"PUT".text, "/v1/domains".text,
      [("X-API-Key".text, "é".text), ("X-Request-Id".text, "ui-7".text)], "\x7b\x7d".text⟩
    let s := Service.start { adminKey := "k".text }
    IsIdentifier "ui-7".text ∧ r.header? "x-request-id" = some "ui-7".text ∧
      (s.answer host r).1.status = 500 ∧ (s.answer host r).1.headers = [] ∧
      ¬ (s.answer host r).1.Protected s.settings host r := by
  intro host r s
  have hheaders : (s.answer host r).1.headers = [] := by decide +kernel
  refine ⟨isRequestId_iff.1 (by decide +kernel), by decide +kernel, by decide +kernel, hheaders, ?_⟩
  intro h
  have hnosniff := h.nosniff
  rw [Response.headerValues, hheaders] at hnosniff
  simp at hnosniff

end LogSearch
