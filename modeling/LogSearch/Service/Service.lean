import LogSearch.Json.Read
import LogSearch.Service.Body
import LogSearch.Service.Encode
import LogSearch.Service.Http
import LogSearch.Service.Refusal

/-!
# The service

The service answers requests about queries and holds one completion engine, whose names can be
replaced while it runs.

* `Action`, `routes` — what can be asked for, and under which method and path.
* `Service.checkKey` — the key that a change of the names needs.
* `Service.perform` — carries out an action.  A body is read first; then the key is compared, the
  body is checked, and the query is measured, in this order.
* `Service.answer` — the answer to a request, and the service after it.
* `Service.step`, `Service.run` — requests mixed with changes of the settings.
-/

namespace LogSearch

/-- The version that the service reports. -/
def serviceVersion : Text :=
  "0.1.0".text

/-- What the machine supplies with each request: its time zone, its clock and a fresh
identifier. -/
structure Host where
  zone : Zone
  now : Moment
  freshId : Text

/-! ## Routes -/

/-- What can be asked for. -/
inductive Action where
  | health | about | filters | names | replaceNames | parse | suggest | preview | validate
  deriving DecidableEq

/-- The method and the path of every action. -/
def routes : List (Text × Text × Action) :=
  [("GET".text, "/health".text, .health),
    ("GET".text, "/".text, .about),
    ("POST".text, "/v1/query/parse".text, .parse),
    ("POST".text, "/v1/query/suggest".text, .suggest),
    ("POST".text, "/v1/query/preview".text, .preview),
    ("POST".text, "/v1/query/validate".text, .validate),
    ("GET".text, "/v1/filters".text, .filters),
    ("GET".text, "/v1/domains".text, .names),
    ("PUT".text, "/v1/domains".text, .replaceNames)]

/-- Whether some action has a path. -/
def isKnownPath (path : Text) : Bool :=
  routes.any fun r => r.2.1 == path

/-- A path with its end spelled the other way: without slashes, or with one where there is none. -/
def respelled (path : Text) : Text :=
  if path.getLast? = some (chr '/') then (path.reverse.dropWhile (· == chr '/')).reverse
  else path ++ [chr '/']

/-- The action that a request asks for. -/
def Request.action (r : Request) : Except Refusal Action :=
  match routes.find? fun route => route.1 == r.method && route.2.1 == r.route with
  | some (_, _, action) => .ok action
  | none =>
    if isKnownPath r.route then .error .methodNotAllowed
    else if isKnownPath (respelled r.route) then .error .redirected
    else .error .notFound

/-! ## Bodies -/

/-- A body as JSON; an empty one is none.  A byte order mark in front does not count. -/
def Request.json? (r : Request) : Except Refusal (Option Json) :=
  if r.body.isEmpty then .ok none
  else
    let text := if r.body.head? = some (chr '\uFEFF') then r.body.drop 1 else r.body
    match Json.read text with
    | .ok json => .ok (some json)
    | .error (.malformed place) =>
      .error (.invalid [⟨[.name "body".text, .position place], .notJson⟩])
    | .error .oversized => .error .unreadable

/-- The part of a value at the end of a path. -/
def Json.part? : Json → List PathStep → Option Json
  | json, [] => some json
  | .array items, .position n :: path => items[n]?.bind (·.part? path)
  | json, .name s :: path => (json.field? s).bind (·.part? path)
  | _, _ => none

/-- What the answer repeats of a body with a fault: the part at fault or, where a member is missing,
the object that should have it. -/
def Fault.repeated (f : Fault) (body : Json) : Json :=
  (body.part? (if f.reason = .missing then f.path.dropLast else f.path)).getD .null

/-- Refuses a body for its faults.  The answer repeats the parts at fault, so it may fail itself. -/
def refuseBody (body : Json) (faults : List Fault) : Refusal :=
  if faults.all fun f => (f.repeated body).isEncodable then
    .invalid (faults.map fun f => ⟨.name "body".text :: f.path, f.reason⟩)
  else .unexpected .notEncodable

/-- Checks a body by its members. -/
def checkBody {α : Type} (check : Json → Checked α) (body : Option Json) : Except Refusal α :=
  let checked : Checked α :=
    match body with
    | none => .refuse .missing
    | some json => checkObject .notBody check json
  match checked with
  | .valid a => .ok a
  | .refused faults => .error (refuseBody (body.getD .null) faults)

/-- The parameters of a query, or an unexpected refusal. -/
def paramsOrRefuse (host : Host) (q : Query) : Except Refusal Params :=
  match q.params host.zone host.now with
  | .ok p => .ok p
  | .error e => .error (.unexpected (.date e))

/-! ## The service -/

/-- The service: its settings and its completion engine. -/
structure Service where
  settings : Settings
  engine : Engine

namespace Service

/-- The service as it starts under some settings. -/
def start (s : Settings) : Service :=
  ⟨s, ⟨s.workflows, s.folders⟩⟩

/-- Whether every character is ASCII. -/
def isAscii (s : Text) : Bool :=
  s.all fun c => c.toNat < 0x80

/-- Compares the key that comes with a request with the configured one.  Without a configured key
every request passes. -/
def checkKey (s : Settings) (r : Request) : Except Refusal Unit :=
  if s.adminKey.isEmpty then .ok ()
  else match r.header? "x-api-key" with
    | none | some [] => .error .wrongKey
    | some key =>
      if !(isAscii key && isAscii s.adminKey) then .error (.unexpected .keyNotAscii)
      else if key = s.adminKey then .ok ()
      else .error .wrongKey

/-- Refuses a query that is too long. -/
def checkLength (s : Settings) (query : Text) : Except Refusal Unit :=
  if s.maxQueryLength < query.length then .error (.tooLong s.maxQueryLength) else .ok ()

/-- The state of health, with the time of the host in UTC. -/
def health (host : Host) : Except Refusal Json :=
  match host.now.toInstant host.zone with
  | .error e => .error (.unexpected (.date e))
  | .ok instant =>
    .ok <| .record [("status", .string "healthy".text), ("version", .string serviceVersion),
      ("timestamp", .string (preciseText instant))]

/-- What the service is and where its pages are. -/
def about : Json :=
  .record [("name", .string "Log Query Server".text), ("version", .string serviceVersion),
    ("docs", .string "/docs".text), ("health", .string "/health".text)]

/-- Parses a query.  If asked to be strict, an unfinished one is refused. -/
def parse (s : Service) (host : Host) (b : ParseBody) : Except Refusal Json := do
  checkLength s.settings b.query
  let finished := isFinished b.query
  if b.strict && !finished then
    throw .incomplete
  let query := Query.parse b.query
  let params ← paramsOrRefuse host query
  return .record [("parsed", query.toJson), ("params", params.toJson), ("valid", .bool finished)]

/-- The context of a cursor and the suggestions for it. -/
def suggest (s : Service) (b : SuggestBody) : Except Refusal Json := do
  checkLength s.settings b.query
  return .record [("context", (Context.atCursor b.query b.cursor).toJson),
    ("group", Group.toJson? (s.engine.suggest? b.query b.cursor))]

/-- The query after a suggestion is accepted. -/
def accept (s : Service) (b : PreviewBody) : Except Refusal Json := do
  checkLength s.settings b.query
  return .record [("preview", .string (preview b.suggestion b.query b.cursor))]

/-- Whether a query is finished. -/
def validate (s : Service) (b : ValidateBody) : Except Refusal Json := do
  checkLength s.settings b.query
  return .record [("valid", .bool (isFinished b.query))]

/-- The service with new names. -/
def replaceNames (s : Service) (b : NamesBody) : Service :=
  { s with engine := s.engine.update b.workflows b.folders }

/-! ## Answers -/

/-- A result as it is written in an answer, if it can be encoded. -/
def encode (json : Json) : Except Refusal Json :=
  if json.portable.isEncodable then .ok json.portable else .error (.unexpected .notEncodable)

/-- Carries out an action: the body of the answer, and the service after it. -/
def perform (s : Service) (host : Host) (r : Request) (action : Action) :
    Except Refusal (Json × Service) := do
  match action with
  | .health => return (← health host, s)
  | .about => return (about, s)
  | .filters => return (.array (catalog.map Definition.toJson), s)
  | .names => return (s.engine.toJson, s)
  | .replaceNames =>
    let json ← r.json?
    checkKey s.settings r
    let next := s.replaceNames (← checkBody NamesBody.ofMembers json)
    return (next.engine.toJson, next)
  | .parse => return (← s.parse host (← checkBody ParseBody.ofMembers (← r.json?)), s)
  | .suggest => return (← s.suggest (← checkBody SuggestBody.ofMembers (← r.json?)), s)
  | .preview => return (← s.accept (← checkBody PreviewBody.ofMembers (← r.json?)), s)
  | .validate => return (← s.validate (← checkBody ValidateBody.ofMembers (← r.json?)), s)

/-- The headers of the answer to a request.  An unexpected failure leaves none. -/
def headers (s : Service) (host : Host) (r : Request) : Option Refusal → List (Text × Text)
  | some (.unexpected _) => []
  | _ => protectiveHeaders s.settings (requestId r host.freshId)

/-- The answer to a request with a result, which is encoded for it. -/
def respond (s : Service) (host : Host) (r : Request) (result : Except Refusal Json) : Response :=
  match result >>= encode with
  | .ok json => ⟨200, s.headers host r none, some json⟩
  | .error refusal => ⟨refusal.status, s.headers host r (some refusal), refusal.body⟩

/-- The answer to a request, and the service after it.  A request that is refused changes nothing.
What an action has changed stays changed, even if its result cannot be encoded. -/
def answer (s : Service) (host : Host) (r : Request) : Response × Service :=
  match r.action >>= s.perform host r with
  | .ok (json, next) => (s.respond host r (.ok json), next)
  | .error refusal => (s.respond host r (.error refusal), s)

/-! ## Runs -/

/-- What happens to a running service. -/
inductive Event where
  | request (host : Host) (r : Request)
  | configure (setting : Setting)

/-- The service after an event, and the answer if the event is a request. -/
def step (s : Service) : Event → Option Response × Service
  | .request host r =>
    let (response, next) := s.answer host r
    (some response, next)
  | .configure setting => (none, { s with settings := s.settings.assign setting })

/-- The answers to a sequence of events, and the service after it. -/
def run (s : Service) : List Event → List (Option Response) × Service
  | [] => ([], s)
  | event :: rest =>
    let (response, next) := s.step event
    let (responses, last) := next.run rest
    (response :: responses, last)

end Service

end LogSearch
