import LogSearch.Proofs.Answers

/-!
# Requests that replace names

A request that replaces names may give one list, both or none.

* `Request.ReplacesNames`, `Request.names?` — such requests, and the list that one gives.
* `Request.GivesNames`, `Request.givesNames_iff` — the bodies that pass their check, said without
  the check.
* `Engine.given` — the names with the lists of a request in their places.
* `Service.perform_replaceNames` — what the service has after such a request.
-/

namespace LogSearch

variable {json : Json} {name : Text} {s next : Service} {host : Host} {r : Request} {e : Engine}

/-! ## Lists in requests -/

/-- What an object gives under a name: a list of texts, or nothing if the name is left out or stands
for `null`. -/
inductive Json.Gives (json : Json) (name : Text) : Option (List Text) → Prop
  | absent : json.field? name = none → Gives json name none
  | null : json.field? name = some .null → Gives json name none
  | texts (ts : List Text) : json.field? name = some (.ofTexts ts) → Gives json name (some ts)

/-- A text. -/
def Json.text? : Json → Option Text
  | string s => some s
  | _ => none

/-- The list that an object gives under a name. -/
def Json.texts? (json : Json) (name : Text) : Option (List Text) :=
  match json.field? name with
  | some (array items) => some (items.filterMap text?)
  | _ => none

lemma Json.texts?_eq {given : Option (List Text)} (h : json.Gives name given) :
    json.texts? name = given := by
  rw [texts?]
  cases h with
  | absent h => rw [h]
  | null h => rw [h]
  | texts ts h =>
      rw [h, ofTexts]
      simp [List.filterMap_map, Function.comp_def, text?]

/-- The list that the body of a request gives under a name. -/
def Request.names? (r : Request) (name : String) : Option (List Text) :=
  match r.json? with
  | .ok (some json) => json.texts? name.text
  | _ => none

/-! ## Checked bodies -/

namespace Checked

variable {α β : Type} {f : Checked (α → β)} {a : Checked α} {b : β}

lemma seq_eq_valid_iff : f <*> a = valid b ↔ ∃ g x, f = valid g ∧ a = valid x ∧ g x = b := by
  cases f <;> cases a <;> simp [Seq.seq, seq, map]

lemma map_eq_valid_iff {g : α → β} : g <$> a = valid b ↔ ∃ x, a = valid x ∧ g x = b := by
  cases a <;> simp [Functor.map, map]

lemma inside_eq_valid_iff {step : PathStep} {x : α} : a.inside step = valid x ↔ a = valid x := by
  cases a <;> simp [inside]

end Checked

lemma eq_string_of_checkText {t : Text} (h : checkText json = .valid t) : json = .string t := by
  cases json <;> simp_all [checkText, Checked.refuse]

lemma items_checkText {items : List Json} {n : Nat} {ts : List Text}
    (h : Checked.items checkText n items = .valid ts) : items = ts.map .string := by
  induction items generalizing n ts with
  | nil =>
      obtain rfl : ts = [] := by simpa [Checked.items] using h.symm
      rfl
  | cons json items ih =>
      rw [Checked.items, Checked.seq_eq_valid_iff] at h
      obtain ⟨cons, rest, hcons, hrest, rfl⟩ := h
      obtain ⟨t, ht, rfl⟩ := Checked.map_eq_valid_iff.1 hcons
      rw [eq_string_of_checkText (Checked.inside_eq_valid_iff.1 ht), ih hrest]
      rfl

lemma texts_of_checkTexts {ts : List Text} (h : checkTexts json = .valid ts) :
    json = .ofTexts ts := by
  cases json with
  | array items => rw [items_checkText h, Json.ofTexts]
  | _ => simp [checkTexts, Checked.refuse] at h

/-- A list that passes the check is given. -/
lemma gives_of_memberOr {name : String} {given : Option (List Text)}
    (h : memberOr json [name] none (checkOrNull checkTexts) = .valid given) :
    json.Gives name.text given := by
  rw [memberOr, Json.firstField?, List.findSome?_cons, List.findSome?_nil] at h
  cases hfield : json.field? name.text with
  | none =>
      obtain rfl : none = given := by simpa [hfield, pure] using h
      exact .absent hfield
  | some value =>
      simp only [hfield, Option.map_some, Checked.inside_eq_valid_iff] at h
      cases value with
      | null =>
          obtain rfl : none = given := by simpa [checkOrNull] using h
          exact .null hfield
      | _ =>
          obtain ⟨ts, hts, rfl⟩ := Checked.map_eq_valid_iff.1 h
          exact .texts ts (hfield.trans (congrArg some (texts_of_checkTexts hts)))

/-- What a body that passes the check gives. -/
lemma gives_of_checkBody {body : Option Json} {b : NamesBody}
    (h : checkBody NamesBody.ofMembers body = .ok b) :
    ∃ members, body = some (.object members) ∧
      (Json.object members).Gives "workflows".text b.workflows ∧
      (Json.object members).Gives "folders".text b.folders := by
  simp only [checkBody] at h
  split at h
  · rename_i b' hchecked
    obtain rfl : b' = b := by simpa using h
    cases body with
    | none => simp [Checked.refuse] at hchecked
    | some json =>
        cases json with
        | object members =>
            obtain ⟨g, folders, hg, hfolders, rfl⟩ := Checked.seq_eq_valid_iff.1 hchecked
            obtain ⟨workflows, hworkflows, rfl⟩ := Checked.map_eq_valid_iff.1 hg
            exact ⟨members, rfl, gives_of_memberOr hworkflows, gives_of_memberOr hfolders⟩
        | _ => simp [checkObject, Checked.refuse] at hchecked
  · simp at h

lemma items_checkText_map (ts : List Text) (n : Nat) :
    Checked.items checkText n (ts.map .string) = .valid ts := by
  induction ts generalizing n with
  | nil => rfl
  | cons t ts ih =>
      rw [List.map_cons, Checked.items, ih]
      rfl

/-- A list that is given passes the check. -/
lemma memberOr_of_gives {json : Json} {name : String} {given : Option (List Text)}
    (h : json.Gives name.text given) :
    memberOr json [name] none (checkOrNull checkTexts) = .valid given := by
  rw [memberOr, Json.firstField?, List.findSome?_cons, List.findSome?_nil]
  cases h with
  | absent h => simp [h, pure]
  | null h => simp [h, checkOrNull, Checked.inside]
  | texts ts h =>
      have hts : checkTexts (.ofTexts ts) = .valid ts := items_checkText_map ts 0
      simp only [h, Option.map_some]
      rw [Checked.inside_eq_valid_iff, Json.ofTexts, checkOrNull, Checked.map_eq_valid_iff]
      · exact ⟨ts, hts, rfl⟩
      · simp

/-! ## Requests -/

/-- The request asks to replace names. -/
def Request.ReplacesNames (r : Request) : Prop :=
  r.method = "PUT".text ∧ r.route = "/v1/domains".text

instance (r : Request) : Decidable r.ReplacesNames :=
  inferInstanceAs (Decidable (_ ∧ _))

/-- The action that replaces names is asked for in no other way. -/
lemma action_eq_replaceNames_iff : r.action = .ok .replaceNames ↔ r.ReplacesNames := by
  rw [Request.action_eq_ok_iff, Request.ReplacesNames]
  simp [routes]

/-- The body of the request is an object in which both lists may be given, and nothing else under
their names. -/
def Request.GivesNames (r : Request) : Prop :=
  ∃ members, r.json? = .ok (some (.object members)) ∧
    ∀ name ∈ ["workflows", "folders"], (Json.object members).Gives name.text (r.names? name)

/-- **Bodies that pass.**  The body of a request passes the check for names if and only if it is an
object that gives both lists in a plain way. -/
theorem Request.givesNames_iff : r.GivesNames ↔
    ∃ body b, r.json? = .ok body ∧ checkBody NamesBody.ofMembers body = .ok b := by
  constructor
  · rintro ⟨members, hjson, hgives⟩
    have hworkflows := memberOr_of_gives (hgives "workflows" (by simp))
    have hfolders := memberOr_of_gives (hgives "folders" (by simp))
    refine ⟨_, ⟨r.names? "workflows", r.names? "folders"⟩, hjson, ?_⟩
    rw [checkBody, checkObject, NamesBody.ofMembers, hworkflows, hfolders]
    rfl
  · rintro ⟨body, b, hjson, hb⟩
    obtain ⟨members, rfl, hworkflows, hfolders⟩ := gives_of_checkBody hb
    refine ⟨members, hjson, ?_⟩
    simp only [Request.names?, hjson, List.forall_mem_cons]
    rw [Json.texts?_eq hworkflows, Json.texts?_eq hfolders]
    exact ⟨hworkflows, hfolders, by simp⟩

instance (r : Request) : Decidable r.GivesNames :=
  decidable_of_iff ((r.json? >>= checkBody NamesBody.ofMembers).isOk) <| by
    rw [Request.givesNames_iff]
    cases hjson : r.json? with
    | error refusal => simp [bind, Except.bind, Except.isOk, Except.toBool]
    | ok body =>
        cases hb : checkBody NamesBody.ofMembers body <;>
          simp [bind, Except.bind, Except.isOk, Except.toBool, hb]

/-- A body that passes gives the lists of its request. -/
lemma Request.names_of_checkBody {body : Option Json} {b : NamesBody} (hjson : r.json? = .ok body)
    (hb : checkBody NamesBody.ofMembers body = .ok b) :
    b = ⟨r.names? "workflows", r.names? "folders"⟩ := by
  obtain ⟨members, rfl, hworkflows, hfolders⟩ := gives_of_checkBody hb
  simp only [Request.names?, hjson]
  rw [Json.texts?_eq hworkflows, Json.texts?_eq hfolders]

/-! ## New names -/

namespace Engine

/-- The names of an engine with the lists that a request gives in their places. -/
def given (e : Engine) (r : Request) : Engine :=
  ⟨(r.names? "workflows").getD e.workflows, (r.names? "folders").getD e.folders⟩

end Engine

namespace Service

/-- **New names.**  Once its key and its body have passed, a request that replaces names gives the
engine its lists, and its result are the names that the engine has then. -/
theorem perform_replaceNames (s : Service) (host : Host) (hgives : r.GivesNames) :
    s.perform host r .replaceNames = (checkKey s.settings r).map fun _ =>
      ((s.engine.given r).toJson, { s with engine := s.engine.given r }) := by
  obtain ⟨body, b, hjson, hb⟩ := Request.givesNames_iff.1 hgives
  obtain rfl := Request.names_of_checkBody hjson hb
  cases hkey : checkKey s.settings r <;>
    simp [bind, Except.bind, perform, hjson, hkey, hb, pure, Except.pure, Except.map,
      replaceNames, Engine.update, Engine.given]

/-- Only with a body that passes are names replaced. -/
lemma givesNames_of_perform (h : s.perform host r .replaceNames = .ok (json, next)) :
    r.GivesNames := by
  simp only [perform, bind_eq_ok_iff] at h
  obtain ⟨body, hjson, -, -, b, hb, -⟩ := h
  exact Request.givesNames_iff.2 ⟨body, b, hjson, hb⟩

end Service

end LogSearch
