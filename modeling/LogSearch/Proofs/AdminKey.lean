import LogSearch.Proofs.ReplacedNames

/-!
# The key for replacing names

Names are replaced by requests that come with the configured key, or by all if none is configured.
The service compares keys in constant time, which works on ASCII texts only, and there the check has
a gap: a key with another character, be it the configured one or the one that came, is no wrong key
but an unforeseen failure.  So is a request that leaves a name which cannot be encoded; but then the
names have been replaced.

* `Settings.Admits` — the requests that may replace names, and `Settings.CannotCompare` — those
  whose key cannot be compared.
* `Settings.Accepts` — the requests that replace names, and `Service.answer_of_accepts` — what they
  do.
* `key_decides_iff` — the key decides a request whose body passes its check, except exactly in
  these two cases.
-/

namespace LogSearch

variable {s : Service} {host : Host} {r : Request} {settings : Settings}

/-! ## Comparing keys -/

lemma Service.isAscii_and_eq_false_iff {key key' : Text} :
    (isAscii key && isAscii key') = false ↔ ∃ c ∈ key ++ key', 0x80 ≤ c.toNat := by
  rw [isAscii, isAscii, ← List.all_append, List.all_eq_false]
  simp

namespace Settings

/-- A request may replace names: no key is configured, or the first one that came is the
configured one. -/
def Admits (settings : Settings) (r : Request) : Prop :=
  settings.adminKey = [] ∨ r.header? "x-api-key" = some settings.adminKey

instance (settings : Settings) (r : Request) : Decidable (settings.Admits r) :=
  inferInstanceAs (Decidable (_ ∨ _))

/-- A key is configured and a key came, and one of the two has a character that is not ASCII. -/
def CannotCompare (settings : Settings) (r : Request) : Prop :=
  settings.adminKey ≠ [] ∧ ∃ key ∈ r.header? "x-api-key", key ≠ [] ∧
    ∃ c ∈ key ++ settings.adminKey, 0x80 ≤ c.toNat

-- The characters are looked at in the two keys only, not among all that exist.
instance (settings : Settings) (r : Request) : Decidable (settings.CannotCompare r) :=
  decidable_of_iff (settings.adminKey ≠ [] ∧ ∃ key ∈ r.header? "x-api-key", key ≠ [] ∧
    (Service.isAscii key && Service.isAscii settings.adminKey) = false)
    (by simp only [CannotCompare, Service.isAscii_and_eq_false_iff])

end Settings

namespace Service

lemma checkKey_of_cannotCompare (h : settings.CannotCompare r) :
    checkKey settings r = .error (.unexpected .keyNotAscii) := by
  obtain ⟨hconfigured, key, hkey, hne, hwide⟩ := h
  have hempty : settings.adminKey.isEmpty = false := by simp [hconfigured]
  rw [checkKey, hempty, hkey]
  cases key with
  | nil => exact absurd rfl hne
  | cons c key => simp [isAscii_and_eq_false_iff.2 hwide]

lemma checkKey_of_admits (hadmits : settings.Admits r) (hcompare : ¬ settings.CannotCompare r) :
    checkKey settings r = .ok () := by
  rw [checkKey]
  by_cases hconfigured : settings.adminKey = []
  · simp [hconfigured]
  · have hkey := hadmits.resolve_left hconfigured
    have hascii : (isAscii settings.adminKey && isAscii settings.adminKey) = true := by
      rw [← Bool.not_eq_false, isAscii_and_eq_false_iff]
      exact fun hwide => hcompare ⟨hconfigured, _, hkey, hconfigured, hwide⟩
    obtain ⟨c, key, hcons⟩ := List.exists_cons_of_ne_nil hconfigured
    rw [hcons] at hkey hascii ⊢
    rw [hkey]
    simp only [hascii]
    simp

lemma checkKey_of_not_admits (hadmits : ¬ settings.Admits r)
    (hcompare : ¬ settings.CannotCompare r) : checkKey settings r = .error .wrongKey := by
  obtain ⟨hconfigured, hkey⟩ := not_or.1 hadmits
  have hempty : settings.adminKey.isEmpty = false := by simp [hconfigured]
  rw [checkKey, hempty]
  cases hcame : r.header? "x-api-key" with
  | none => rfl
  | some key =>
      cases key with
      | nil => rfl
      | cons c key =>
          have hascii : (isAscii (c :: key) && isAscii settings.adminKey) = true := by
            rw [← Bool.not_eq_false, isAscii_and_eq_false_iff]
            exact fun hwide => hcompare ⟨hconfigured, _, hcame, by simp, hwide⟩
          have hne : c :: key ≠ settings.adminKey := fun heq => hkey (hcame.trans (heq ▸ rfl))
          simp [hascii, hne]

/-! ## Answers -/

/-- What comes of a request that replaces names, once its body has passed. -/
lemma answer_of_givesNames (s : Service) (host : Host) (hr : r.ReplacesNames)
    (hgives : r.GivesNames) : s.answer host r =
      match checkKey s.settings r with
      | .ok () => (s.respond host r (.ok (s.engine.given r).toJson),
          { s with engine := s.engine.given r })
      | .error refusal =>
        (⟨refusal.status, s.headers host r (some refusal), refusal.body⟩, s) := by
  have haction := action_eq_replaceNames_iff.2 hr
  have hperform := s.perform_replaceNames host hgives
  cases hkey : checkKey s.settings r with
  | ok =>
      rw [hkey] at hperform
      exact answer_of_perform haction hperform
  | error refusal =>
      rw [hkey] at hperform
      rw [answer, haction]
      simp only [bind, Except.bind, hperform, Except.map]
      rfl

/-- A key that cannot be compared is a failure. -/
lemma answer_of_cannotCompare (s : Service) (host : Host) (hr : r.ReplacesNames)
    (hgives : r.GivesNames) (h : s.settings.CannotCompare r) :
    s.answer host r = (.failure, s) := by
  have hmessage : publicMessage (Mishap.message .keyNotAscii) = generalMessage := by
    decide +kernel
  rw [s.answer_of_givesNames host hr hgives, checkKey_of_cannotCompare h, Response.failure,
    ← hmessage]
  rfl

end Service

/-- A request replaces names: it asks for it, its body passes, and its key is compared and admits
it. -/
structure Settings.Accepts (settings : Settings) (r : Request) : Prop where
  replaces : r.ReplacesNames
  gives : r.GivesNames
  admits : settings.Admits r
  compares : ¬ settings.CannotCompare r

instance (settings : Settings) (r : Request) : Decidable (settings.Accepts r) :=
  decidable_of_iff (r.ReplacesNames ∧ r.GivesNames ∧ settings.Admits r ∧ ¬ settings.CannotCompare r)
    ⟨fun ⟨h₁, h₂, h₃, h₄⟩ => ⟨h₁, h₂, h₃, h₄⟩, fun ⟨h₁, h₂, h₃, h₄⟩ => ⟨h₁, h₂, h₃, h₄⟩⟩

namespace Service

/-- A request that is accepted replaces the names, and the answer gives the new ones. -/
lemma answer_of_accepts (s : Service) (host : Host) (h : s.settings.Accepts r) :
    s.answer host r = (s.respond host r (.ok (s.engine.given r).toJson),
      { s with engine := s.engine.given r }) := by
  rw [s.answer_of_givesNames host h.replaces h.gives, checkKey_of_admits h.admits h.compares]

/-- The names that are left decide the status of the answer. -/
lemma status_of_accepts (s : Service) (host : Host) (h : s.settings.Accepts r) :
    (s.answer host r).1.status = 200 ↔ (s.engine.given r).IsWellFormed := by
  rw [s.answer_of_accepts host h, status_respond_iff, Engine.portable_toJson,
    Engine.isEncodable_toJson_iff]

/-- The names are replaced, even if the new ones cannot be encoded for the answer. -/
lemma answer_of_not_isWellFormed (s : Service) (host : Host) (h : s.settings.Accepts r)
    (hnames : ¬ (s.engine.given r).IsWellFormed) :
    s.answer host r = (.failure, { s with engine := s.engine.given r }) := by
  rw [s.answer_of_accepts host h,
    respond_eq_ite (Engine.portable_toJson _) Engine.isEncodable_toJson_iff, if_neg hnames]

end Service

/-- **The key decides.**  A request that replaces names, with a body that passes its check, is
answered with 200 if no key is configured or the first key that came is the configured one, and with
401 in every other case, if and only if the keys can be compared and, where it may replace them,
all names that it leaves can be encoded.  Otherwise the failure is an unforeseen one.  If the keys
cannot be compared, the answer is a bare 500, even to the right key, and nothing changes.  If a name
cannot be encoded, the answer is the same, but the names have been replaced. -/
theorem key_decides_iff (s : Service) (host : Host) (hr : r.ReplacesNames)
    (hgives : r.GivesNames) :
    ((s.answer host r).1.status = (if s.settings.Admits r then 200 else 401) ↔
      ¬ s.settings.CannotCompare r ∧
        (s.settings.Admits r → (s.engine.given r).IsWellFormed)) ∧
    (s.settings.CannotCompare r → s.answer host r = (.failure, s)) ∧
    (s.settings.Admits r → ¬ s.settings.CannotCompare r → ¬ (s.engine.given r).IsWellFormed →
      s.answer host r = (.failure, { s with engine := s.engine.given r })) := by
  refine ⟨?_, s.answer_of_cannotCompare host hr hgives, fun hadmits hcompare hnames =>
    s.answer_of_not_isWellFormed host ⟨hr, hgives, hadmits, hcompare⟩ hnames⟩
  by_cases hcompare : s.settings.CannotCompare r
  · rw [s.answer_of_cannotCompare host hr hgives hcompare]
    refine iff_of_false ?_ fun h => h.1 hcompare
    split <;> simp [Response.failure]
  · by_cases hadmits : s.settings.Admits r
    · rw [if_pos hadmits, s.status_of_accepts host ⟨hr, hgives, hadmits, hcompare⟩]
      simp [hcompare, hadmits]
    · rw [if_neg hadmits, s.answer_of_givesNames host hr hgives,
        Service.checkKey_of_not_admits hadmits hcompare]
      exact iff_of_true rfl ⟨hcompare, fun h => absurd h hadmits⟩

/-- The right key, one with a capital letter, and none. -/
theorem key_decides_iff_capital :
    let s := Service.start { adminKey := "k-1".text }
    let host : Host := ⟨.utc, .wall 0, []⟩
    let put (headers : List (Text × Text)) : Request :=
      ⟨"PUT".text, "/v1/domains".text, headers, "\x7b\"folders\": [\"f\"]\x7d".text⟩
    let right := put [("X-API-Key".text, "k-1".text), ("X-API-Key".text, [])]
    let capital := put [("x-api-key".text, "K-1".text)]
    (∀ r ∈ [right, capital, put []], r.ReplacesNames ∧ r.GivesNames) ∧
      (s.answer host right).1.status = 200 ∧ (s.answer host capital).1.status = 401 ∧
      (s.answer host (put [])).1.status = 401 := by
  intro s host put right capital
  have hbody : ∀ r ∈ [right, capital, put []], r.ReplacesNames ∧ r.GivesNames := by
    decide +kernel
  have hnames : ∀ r ∈ [right, capital, put []], ¬ s.settings.CannotCompare r ∧
      (s.settings.Admits r → (s.engine.given r).IsWellFormed) := by
    decide +kernel
  have hstatus : ∀ r ∈ [right, capital, put []],
      (s.answer host r).1.status = if s.settings.Admits r then 200 else 401 := fun r hmem =>
    (key_decides_iff s host (hbody r hmem).1 (hbody r hmem).2).1.2 (hnames r hmem)
  rw [hstatus right (by simp), hstatus capital (by simp), hstatus (put []) (by simp)]
  exact ⟨hbody, by decide +kernel⟩

/-- **A key that cannot be compared.**  Of two services, one has a key with an accented letter and
gets that very key, and the other has a plain key and gets the accented one.  The first should
answer with 200 and the second with 401, but both fail. -/
theorem key_not_compared :
    let host : Host := ⟨.utc, .wall 0, []⟩
    let r : Request := ⟨"PUT".text, "/v1/domains".text, [("X-API-Key".text, "clé".text)],
      "\x7b\"folders\": [\"f\"]\x7d".text⟩
    let accented := Service.start { adminKey := "clé".text }
    let plain := Service.start { adminKey := "k".text }
    r.ReplacesNames ∧ r.GivesNames ∧
      accented.settings.Admits r ∧ (accented.answer host r).1.status = 500 ∧
      ¬ plain.settings.Admits r ∧ (plain.answer host r).1.status = 500 := by
  decide +kernel

end LogSearch
