import LogSearch.Proofs.Encoding
import LogSearch.Proofs.Outcomes
import LogSearch.Service.Service

/-!
# What becomes of a result

A request is refused, or its action is carried out.  The result of an action still has to be encoded
for the answer, and it cannot be if one of its texts holds a surrogate.  Then the answer is that to
an unforeseen failure, although the action has been carried out.

* `Request.action_eq_ok_iff` — what a request asks for.
* `Response.failure` — the answer to an unforeseen failure.
* `Service.answer_cases` — a request is refused, or its result becomes an answer.
* `Service.respond_cases`, `Service.respond_eq_ite` — what becomes of a result.
-/

namespace LogSearch

variable {json : Json} {s next : Service} {host : Host} {r : Request} {action : Action}

/-- **What a request asks for** is told by the table of routes. -/
theorem Request.action_eq_ok_iff :
    r.action = .ok action ↔ (r.method, r.route, action) ∈ routes := by
  have hfind : ∀ a ∈ routes,
      routes.find? (fun route => route.1 == a.1 && route.2.1 == a.2.1) = some a := by decide
  constructor
  · intro h
    rw [Request.action] at h
    split at h
    · rename_i method path action' hroute
      obtain rfl : action' = action := Except.ok.inj h
      have hsame := List.find?_some hroute
      simp only [Bool.and_eq_true, beq_iff_eq] at hsame
      rw [← hsame.1, ← hsame.2]
      exact List.mem_of_find?_eq_some hroute
    · split at h
      · simp at h
      · split at h <;> simp at h
  · intro h
    rw [Request.action, hfind _ h]

/-! ## Answers -/

/-- The answer to an unforeseen failure: it has no headers and tells nothing. -/
def Response.failure : Response :=
  ⟨500, [], some (errorBody generalMessage)⟩

lemma Refusal.status_ne (refusal : Refusal) : refusal.status ≠ 200 := by
  cases refusal <;> simp [status]

namespace Service

/-- A result that can be encoded is the body of the answer. -/
lemma respond_of_isEncodable (h : json.portable.isEncodable) :
    s.respond host r (.ok json) = ⟨200, s.headers host r none, some json.portable⟩ := by
  have hencode : (Except.ok json >>= encode) = .ok json.portable := if_pos h
  rw [respond, hencode]

/-- A result that cannot be encoded ends in a failure. -/
lemma respond_of_not_isEncodable (h : ¬ json.portable.isEncodable) :
    s.respond host r (.ok json) = .failure := by
  have hencode : (Except.ok json >>= encode) = .error (.unexpected .notEncodable) := if_neg h
  have hmessage : publicMessage (Mishap.message .notEncodable) = generalMessage := by
    decide +kernel
  rw [respond, hencode, Response.failure, ← hmessage]
  rfl

/-- **What becomes of a result**: it is encoded, or a failure. -/
theorem respond_cases (s : Service) (host : Host) (r : Request) (json : Json) :
    json.portable.isEncodable ∧
        s.respond host r (.ok json) = ⟨200, s.headers host r none, some json.portable⟩ ∨
      ¬ json.portable.isEncodable ∧ s.respond host r (.ok json) = .failure := by
  by_cases h : json.portable.isEncodable
  · exact Or.inl ⟨h, respond_of_isEncodable h⟩
  · exact Or.inr ⟨h, respond_of_not_isEncodable h⟩

/-- What becomes of a result without infinite numbers, if it is known when it can be encoded. -/
lemma respond_eq_ite {p : Prop} [Decidable p] (hportable : json.portable = json)
    (hp : json.isEncodable ↔ p) : s.respond host r (.ok json)
      = if p then ⟨200, s.headers host r none, some json⟩ else .failure := by
  rw [← hportable] at hp
  split
  · rename_i h
    rw [respond_of_isEncodable (hp.2 h), hportable]
  · rename_i h
    exact respond_of_not_isEncodable (mt hp.1 h)

lemma status_respond_iff :
    (s.respond host r (.ok json)).status = 200 ↔ json.portable.isEncodable := by
  rcases s.respond_cases host r json with ⟨h, hanswer⟩ | ⟨h, hanswer⟩
  · simp [hanswer, h]
  · simp [hanswer, h, Response.failure]

/-- **A request is refused, which changes nothing, or its action is carried out**, and the result
becomes the answer. -/
theorem answer_cases (s : Service) (host : Host) (r : Request) :
    (∃ refusal : Refusal, s.answer host r
      = (⟨refusal.status, s.headers host r (some refusal), refusal.body⟩, s)) ∨
    ∃ action json next, r.action = .ok action ∧ s.perform host r action = .ok (json, next) ∧
      s.answer host r = (s.respond host r (.ok json), next) := by
  rw [answer]
  split
  · rename_i json next h
    obtain ⟨action, haction, hperform⟩ := bind_eq_ok_iff.1 h
    exact Or.inr ⟨action, json, next, haction, hperform, rfl⟩
  · rename_i refusal h
    exact Or.inl ⟨refusal, rfl⟩

/-- An action that is carried out gives the answer. -/
lemma answer_of_perform (haction : r.action = .ok action)
    (h : s.perform host r action = .ok (json, next)) :
    s.answer host r = (s.respond host r (.ok json), next) := by
  rw [answer, haction]
  simp only [bind, Except.bind, h]

/-- Only the request that replaces names changes the service. -/
lemma perform_of_ne (haction : action ≠ .replaceNames)
    (h : s.perform host r action = .ok (json, next)) : next = s := by
  cases action with
  | replaceNames => exact absurd rfl haction
  | about | filters | names =>
      simp only [perform, pure, Except.pure, Except.ok.injEq, Prod.mk.injEq] at h
      exact h.2.symm
  | health =>
      simp only [perform, bind_eq_ok_iff, pure, Except.pure, Except.ok.injEq, Prod.mk.injEq] at h
      obtain ⟨-, -, -, rfl⟩ := h
      rfl
  | parse | suggest | preview | validate =>
      simp only [perform, bind_eq_ok_iff, pure, Except.pure, Except.ok.injEq, Prod.mk.injEq] at h
      obtain ⟨-, -, -, -, -, -, -, rfl⟩ := h
      rfl

end Service

end LogSearch
