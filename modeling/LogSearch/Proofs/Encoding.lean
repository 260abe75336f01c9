import Mathlib.Data.List.Basic
import LogSearch.Service.Encode

/-!
# What can be encoded

A value can be written as bytes if its texts are well-formed and its numbers finite.  The records of
the domain hold no doubles but those of filters, so for names and for what completion offers only
the texts matter.

* `isWellFormed_of_infix`, `String.isWellFormed_text` — well-formed texts have well-formed parts,
  and literals are well-formed.
* `Json.isEncodable_record_iff` — a record is encoded if its members are.
* `Engine.isEncodable_toJson_iff`, `Context.isEncodable_toJson_iff`,
  `Suggestion.isEncodable_toJson_iff` — the texts that matter.
-/

/-- Literals hold no surrogates. -/
@[simp] lemma String.isWellFormed_text (s : String) : LogSearch.isWellFormed s.text := by
  simp [LogSearch.isWellFormed, text, LogSearch.CodePoint.isSurrogate]

namespace LogSearch

variable {s t : Text} {c : CodePoint}

/-! ## Well-formed texts -/

@[simp] lemma isWellFormed_nil : isWellFormed [] := rfl

@[simp] lemma isWellFormed_cons :
    isWellFormed (c :: s) = (!c.isSurrogate && isWellFormed s) := rfl

@[simp] lemma isWellFormed_append :
    isWellFormed (s ++ t) = (isWellFormed s && isWellFormed t) :=
  List.all_append

/-- A part of a well-formed text is well-formed. -/
lemma isWellFormed_of_infix (h : s <:+: t) (ht : isWellFormed t) : isWellFormed s :=
  List.all_eq_true.2 fun c hc => List.all_eq_true.1 ht c (h.subset hc)

/-- A blank is no surrogate. -/
lemma isSurrogate_of_isBlank (h : isBlank c) : c.isSurrogate = false := by
  cases c with
  | chr c => rfl
  | surrogate i =>
      have hwide : ∀ n ∈ wideBlanks, n < 0xD800 := by decide
      have hn : (CodePoint.surrogate i).toNat = 0xD800 + i := rfl
      simp only [isBlank, hn] at h
      rw [if_neg (by omega), List.contains_iff_mem] at h
      have := hwide _ h
      omega

/-! ## Values -/

namespace Json

/-- Where no item has an infinite number, an array stays as it is. -/
lemma portableItems_map {α : Type} {f : α → Json} (h : ∀ x, (f x).portable = f x) (xs : List α) :
    portableItems (xs.map f) = xs.map f := by
  induction xs with
  | nil => rfl
  | cons x xs ih => rw [List.map_cons, portableItems, ih, h]

lemma portable_ofTexts (ts : List Text) : (ofTexts ts).portable = ofTexts ts := by
  rw [ofTexts, portable, portableItems_map fun _ => rfl]

/-- The items of an array are encoded one by one. -/
lemma encodableItems_map_iff {α : Type} {f : α → Json} {xs : List α} :
    encodableItems (xs.map f) ↔ ∀ x ∈ xs, (f x).isEncodable := by
  induction xs with
  | nil => simp [encodableItems]
  | cons x xs ih => rw [List.map_cons, encodableItems, Bool.and_eq_true, ih, List.forall_mem_cons]

/-- A record with different names is encoded if its members are. -/
lemma isEncodable_record_iff {members : List (String × Json)}
    (h : (members.map Prod.fst).Nodup) :
    (record members).isEncodable ↔ ∀ m ∈ members, m.2.isEncodable := by
  rw [record, isEncodable]
  induction members with
  | nil => simp [encodableMembers]
  | cons m members ih =>
      obtain ⟨hm, hmembers⟩ := List.nodup_cons.1 h
      have hlast : ∀ m' ∈ members, m'.1 ≠ m.1 :=
        fun m' hm' heq => hm (heq ▸ List.mem_map_of_mem hm')
      rw [List.map_cons, encodableMembers, List.forall_mem_cons, Bool.and_eq_true, ih hmembers,
        List.any_map, List.any_eq_false.2 (by simpa using hlast)]
      simp

lemma isEncodable_ofText? {text : Option Text} :
    (ofText? text).isEncodable ↔ ∀ t ∈ text, isWellFormed t := by
  cases text <;> simp [ofText?, isEncodable]

end Json

/-! ## Names -/

namespace Engine

/-- No name holds a surrogate. -/
def IsWellFormed (e : Engine) : Prop :=
  ∀ name ∈ e.workflows ++ e.folders, isWellFormed name

instance (e : Engine) : Decidable e.IsWellFormed :=
  inferInstanceAs (Decidable (∀ _ ∈ _, _))

lemma portable_toJson (e : Engine) : e.toJson.portable = e.toJson := by
  rw [toJson, Json.record]
  simp [Json.portable, Json.portableMembers, Json.portable_ofTexts]

/-- Names are encoded if they are well-formed. -/
lemma isEncodable_toJson_iff {e : Engine} : e.toJson.isEncodable ↔ e.IsWellFormed := by
  rw [toJson, Json.isEncodable_record_iff (by simp), IsWellFormed, List.forall_mem_append]
  simp [Json.ofTexts, Json.encodableItems_map_iff, Json.isEncodable]

end Engine

/-! ## Completion -/

namespace Context

/-- The texts of a context. -/
def texts : Context → List Text
  | key typed _ _ => [typed]
  | value name typed _ _ => [name, typed]
  | initial | free => []

lemma portable_toJson (c : Context) : c.toJson.portable = c.toJson := by
  cases c <;> rfl

lemma isEncodable_toJson_iff {c : Context} :
    c.toJson.isEncodable ↔ ∀ t ∈ c.texts, isWellFormed t := by
  cases c <;>
    simp [toJson, record, kind, texts, Json.isEncodable_record_iff, Json.isEncodable_ofText?,
      Json.isEncodable]

end Context

namespace Suggestion

/-- The texts of a suggestion. -/
def texts (x : Suggestion) : List Text :=
  [x.id, x.value, x.label, x.category] ++ x.description.toList

/-- A suggestion has no numbers, so nothing in it is replaced. -/
lemma portable_toJson (x : Suggestion) : x.toJson.portable = x.toJson := by
  obtain ⟨id, value, label, description, category⟩ := x
  cases description <;> rfl

lemma isEncodable_toJson_iff {x : Suggestion} :
    x.toJson.isEncodable ↔ ∀ t ∈ x.texts, isWellFormed t := by
  rw [toJson, Json.isEncodable_record_iff (by simp)]
  simp [texts, Json.isEncodable_ofText?, Json.isEncodable]
  tauto

end Suggestion

namespace Group

lemma portable_toJson (g : Group) : g.toJson.portable = g.toJson := by
  cases g with
  | keys suggestions | values key suggestions =>
      rw [toJson, Json.record]
      simp [Json.portable, Json.portableMembers,
        Json.portableItems_map Suggestion.portable_toJson]

lemma isEncodable_keys_iff {suggestions : List Suggestion} :
    (keys suggestions).toJson.isEncodable ↔ ∀ x ∈ suggestions, x.toJson.isEncodable := by
  rw [toJson, Json.isEncodable_record_iff (by simp)]
  simp [Json.encodableItems_map_iff, Json.isEncodable]

lemma isEncodable_values_iff {key : Text} {suggestions : List Suggestion} :
    (values key suggestions).toJson.isEncodable
      ↔ isWellFormed key ∧ ∀ x ∈ suggestions, x.toJson.isEncodable := by
  rw [toJson, Json.isEncodable_record_iff (by simp)]
  simp [Json.encodableItems_map_iff, Json.isEncodable]

/-- In a group that is encoded every suggestion is. -/
lemma isEncodable_of_mem {g : Group} (h : g.toJson.isEncodable) {x : Suggestion}
    (hx : x ∈ g.suggestions) : x.toJson.isEncodable := by
  cases g with
  | keys suggestions => exact isEncodable_keys_iff.1 h x hx
  | values key suggestions => exact (isEncodable_values_iff.1 h).2 x hx

end Group

end LogSearch
