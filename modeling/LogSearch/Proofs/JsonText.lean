import LogSearch.Json.Read
import LogSearch.Json.Write
import LogSearch.Proofs.ReadBack

/-!
# Reading written JSON

A value is written without blanks, and what is read from its text is that value.  The reader goes
from token to token, so the proof follows it through the text: each token takes it one step further,
and the text of a value takes it from where a value is expected to where that value is complete,
whatever containers are open around it.

* `Json.IsPlain` — values without doubles, whose integers are short enough to be read.
* `Json.Reader.follow` — the reader after the tokens of a text.
* `Json.readText_writeText`, `Json.readNumber?_integerText` — the tokens of texts and of integers.
* `Json.IsPlain.passes` — the reader passes the text of a value.
* `Json.read_write` — so a plain value is read back.
-/

namespace LogSearch

namespace Json

variable {s t w : Text} {c : CodePoint} {n place : Nat} {json : Json}

/-- Values without doubles, whose integers have no more digits than are read. -/
inductive IsPlain : Json → Prop
  | null : IsPlain null
  | bool (b : Bool) : IsPlain (bool b)
  | integer {i : Int} : (digitsOf i.natAbs).length ≤ maxDigits → IsPlain (integer i)
  | string (s : Text) : IsPlain (string s)
  | array {items : List Json} : (∀ json ∈ items, IsPlain json) → IsPlain (array items)
  | object {members : List (Text × Json)} : (∀ m ∈ members, IsPlain m.2) → IsPlain (object members)

/-! ## Texts -/

lemma hexDigit?_digitChar : ∀ d < 16, hexDigit? (chr (Nat.digitChar d)) = some d := by
  decide

lemma readText_escape {d : CodePoint} (h : readEscape t = .char d n) :
    readText (chr '\\' :: t) = (readText (t.drop n)).cons d (n + 1) := by
  rw [readText, if_neg (by decide), if_pos rfl, h]

/-- A control character is written with its code, which is read back. -/
lemma readEscape_hexByte (hc : c.toNat < 0x20) (ht : t ≠ []) :
    readEscape (chr 'u' :: chr '0' :: chr '0' :: (hexByte c.toNat ++ t)) = .char c 5 := by
  obtain ⟨d, t, rfl⟩ := List.exists_cons_of_ne_nil ht
  have hunit : readUnit? (chr '0' :: chr '0' :: (hexByte c.toNat ++ d :: t)) = some c.toNat := by
    have hhigh := hexDigit?_digitChar (c.toNat / 16) (by omega)
    have hlow := hexDigit?_digitChar (c.toNat % 16) (by omega)
    have hzero : hexDigit? (chr '0') = some 0 := rfl
    simp only [hexByte, List.cons_append, List.nil_append, readUnit?, hhigh, hlow, hzero,
      Option.bind_eq_bind, Option.bind_some, Option.some.injEq]
    omega
  rw [readEscape, hunit]
  dsimp only
  rw [if_neg (by omega), CodePoint.ofNat_toNat]

/-- A character is read back.  The closing quote comes after it, so no escape ends the text. -/
lemma readText_writeChar (c : CodePoint) (ht : t ≠ []) :
    readText (writeChar c ++ t) = (readText t).cons c (writeChar c).length := by
  unfold writeChar
  split
  · subst c
    exact readText_escape rfl
  · split
    · subst c
      exact readText_escape rfl
    · split
      · rename_i hlow
        exact readText_escape (readEscape_hexByte hlow ht)
      · rw [List.singleton_append, readText]
        simp [*]

/-- **A written text is read back**, up to its closing quote. -/
theorem readText_writeText (s rest : Text) : readText (s.flatMap writeChar ++ chr '"' :: rest)
    = .closed s ((s.flatMap writeChar).length + 1) := by
  induction s with
  | nil => simp [readText]
  | cons c s ih =>
      rw [List.flatMap_cons, List.append_assoc, readText_writeChar c (by simp), ih, Quoted.cons]
      simp [Nat.add_comm, Nat.add_left_comm]

/-! ## Integers -/

/-- What may follow a value: nothing, or what does not carry on a number. -/
def Delimited (s : Text) : Prop :=
  ∀ c ∈ s.head?, c.isDigit = false ∧ c ≠ chr '.' ∧ c ≠ chr 'e' ∧ c ≠ chr 'E'

/-- A number has a first digit. -/
lemma exists_first_digit (n : Nat) : ∃ c w, digitsOf n = c :: w ∧ c.isDigit := by
  obtain ⟨c, w, hdigits⟩ := List.exists_cons_of_ne_nil (digitsOf_ne_nil (n := n))
  exact ⟨c, w, hdigits, isDigit_digitsOf n c (by simp [hdigits])⟩

/-- Only zero starts with a zero. -/
lemma eq_zero_of_digitsOf (n : Nat) (h : digitsOf n = chr '0' :: w) : n = 0 := by
  induction n using Nat.strongRecOn generalizing w with
  | ind n ih =>
      rw [digitsOf_eq_if] at h
      split at h
      · rename_i hlt
        have honly : ∀ d < 10, chr (Nat.digitChar d) = chr '0' → d = 0 := by decide
        exact honly n hlt (by simpa using congrArg List.head? h)
      · rename_i hge
        obtain ⟨c, v, hv, -⟩ := exists_first_digit (n / 10)
        rw [hv, List.cons_append, List.cons.injEq] at h
        rw [h.1] at hv
        have := ih (n / 10) (by omega) hv
        omega

lemma takeWhile_digitsOf (n : Nat) (ht : Delimited t) :
    (digitsOf n ++ t).takeWhile CodePoint.isDigit = digitsOf n := by
  rw [List.takeWhile_append_of_pos (isDigit_digitsOf n)]
  cases t with
  | nil => simp
  | cons c t => simp [(ht c rfl).1]

lemma readWhole_digitsOf (n : Nat) (ht : Delimited t) :
    readWhole (digitsOf n ++ t) = digitsOf n := by
  unfold readWhole
  split
  · rename_i w hw
    obtain ⟨c, v, hdigits, -⟩ := exists_first_digit n
    rw [hdigits, List.cons_append, List.cons.injEq] at hw
    rw [hw.1] at hdigits
    rw [eq_zero_of_digitsOf n hdigits]
    rfl
  · exact takeWhile_digitsOf n ht

lemma readFraction_of_delimited (ht : Delimited t) : readFraction t = [] := by
  cases t with
  | nil => rfl
  | cons c t => simp [readFraction, (ht c rfl).2.1]

lemma readExponent_of_delimited (ht : Delimited t) : readExponent t = [] := by
  cases t with
  | nil => rfl
  | cons c t => simp [readExponent, (ht c rfl).2.2]

lemma ofDigits_digitsOf (n : Nat) :
    ofDigits (Numeral.leadingDigits (digitsOf n)) = n := by
  have hdigits := (leadingDigits_append (isDigit_digitsOf n) (t := []) (by simp)).1
  rw [List.append_nil] at hdigits
  rw [hdigits, ofDigits_digitValues, ofDigitText_digitsOf]

/-- A minus sign is split off in front of digits. -/
lemma take_sign (i : Int) (n : Nat) (t : Text) :
    let sign : Text := if i < 0 then [chr '-'] else []
    let text := sign ++ (digitsOf n ++ t)
    text.take (if text.head? = some (chr '-') then 1 else 0) = sign := by
  obtain ⟨c, w, hdigits, hdigit⟩ := exists_first_digit n
  have hc : c ≠ chr '-' := by
    rintro rfl
    exact absurd hdigit (by decide)
  split <;> simp [hdigits, hc]

/-- **A written integer is read back.** -/
theorem readNumber?_integerText {i : Int} (hi : (digitsOf i.natAbs).length ≤ maxDigits)
    (ht : Delimited t) :
    readNumber? (integerText i ++ t) = some (.scalar (integer i), (integerText i).length) := by
  have hsign := take_sign i i.natAbs t
  have hvalue : (if (if i < 0 then [chr '-'] else ([] : Text)) = [] then (i.natAbs : Int)
      else -i.natAbs) = i := by
    by_cases hneg : i < 0
    · rw [if_pos hneg, if_neg (by simp)]
      omega
    · rw [if_neg hneg, if_pos rfl]
      omega
  unfold integerText readNumber?
  rw [List.append_assoc, hsign]
  simp only [List.drop_left, readWhole_digitsOf _ ht, readFraction_of_delimited ht, List.length_nil,
    Nat.add_zero, readExponent_of_delimited ht, List.isEmpty_nil, Bool.and_self, Bool.not_true,
    Bool.false_eq_true, ↓reduceIte, List.isEmpty_iff, digitsOf_ne_nil, Nat.not_lt.2 hi,
    ofDigits_digitsOf, List.length_append, hvalue]

/-! ## Tokens -/

/-- The punctuation of JSON. -/
def marks : Text :=
  [chr '[', chr ']', chr '\x7b', chr '\x7d', chr ',', chr ':']

lemma readToken_mark (hc : c ∈ marks) (place : Nat) (t : Text) :
    readToken place c t = (.mark c, 0) := by
  simp only [marks, List.mem_cons, List.not_mem_nil, or_false] at hc
  rcases hc with rfl | rfl | rfl | rfl | rfl | rfl <;>
    simp [readToken, readLiteral?, literals, String.text, readNumber?, readWhole]

lemma readToken_text (s t : Text) (place : Nat) :
    readToken place (chr '"') (s.flatMap writeChar ++ chr '"' :: t)
      = (.text s, (s.flatMap writeChar).length + 1) := by
  rw [readToken, if_pos rfl, readText_writeText]

/-- No literal starts as an integer does. -/
lemma readLiteral?_integerText (i : Int) (t : Text) : readLiteral? (integerText i ++ t) = none := by
  obtain ⟨c, w, hdigits, hdigit⟩ := exists_first_digit i.natAbs
  have hnone : [chr 'n', chr 't', chr 'f', chr 'N', chr 'I', chr '-'].all (!·.isDigit) := rfl
  have hne : ∀ d ∈ [chr 'n', chr 't', chr 'f', chr 'N', chr 'I', chr '-'], d ≠ c := by
    rintro d hd rfl
    have hnot := List.all_eq_true.1 hnone d hd
    rw [hdigit] at hnot
    exact absurd hnot (by decide)
  simp only [List.forall_mem_cons] at hne
  unfold integerText
  rw [hdigits]
  split <;> simp [readLiteral?, literals, String.text, hne]

/-! ## The reader along a text -/

namespace Reader

/-- The reader after the tokens of a text that starts at a place. -/
def follow (r : Reader) (place : Nat) (s : Text) : Except ReadFault Reader :=
  (tokens place s).foldlM (fun (r : Reader) t => r.take t.1 t.2) r

variable {r r' : Reader} {frames : List Frame} {token : Token} {canClose : Bool}

/-- One token. -/
lemma follow_token (hspace : isSpace c = false)
    (htoken : readToken place c (w ++ t) = (token, w.length))
    (htake : r.take place token = .ok r') :
    r.follow place (c :: (w ++ t)) = r'.follow (place + (c :: w).length) t := by
  unfold follow
  rw [tokens, if_neg (by simp [hspace]), htoken]
  dsimp only
  rw [List.foldlM_cons, htake, List.drop_left, List.length_cons, Nat.add_right_comm, Nat.add_assoc]
  rfl

/-- A mark. -/
lemma follow_mark (hc : c ∈ marks) (htake : r.take place (.mark c) = .ok r') (t : Text) :
    r.follow place (c :: t) = r'.follow (place + 1) t := by
  have hspace : isSpace c = false := by
    simp only [marks, List.mem_cons, List.not_mem_nil, or_false] at hc
    rcases hc with rfl | rfl | rfl | rfl | rfl | rfl <;> rfl
  exact follow_token (w := []) hspace (readToken_mark hc place t) htake

/-- A text. -/
lemma follow_text (htake : r.take place (.text s) = .ok r') (t : Text) :
    r.follow place (writeText s ++ t) = r'.follow (place + (writeText s).length) t := by
  have htoken : readToken place (chr '"') ((s.flatMap writeChar ++ [chr '"']) ++ t)
      = (.text s, (s.flatMap writeChar ++ [chr '"']).length) := by
    rw [List.append_assoc, List.singleton_append, readToken_text, List.length_append,
      List.length_singleton]
  exact follow_token (by decide) htoken htake

end Reader

/-! ## Values -/

/-- Where a value is expected, the reader passes the text of this one, whatever containers are open
around it. -/
def Passes (json : Json) : Prop :=
  ∀ canClose frames place t, Delimited t →
    (Reader.element canClose frames).follow place (write json ++ t)
      = (Reader.complete json frames).follow (place + (write json).length) t

lemma delimited_writeItems (items : List Json) (t : Text) : Delimited (writeItems items ++ t) := by
  cases items <;> rintro c ⟨⟩ <;> decide

lemma delimited_writeMembers (members : List (Text × Json)) (t : Text) :
    Delimited (writeMembers members ++ t) := by
  cases members <;> rintro c ⟨⟩ <;> decide

/-- After an item of an array its other items are passed, and its end. -/
lemma follow_writeItems {items : List Json} (h : ∀ json ∈ items, Passes json) (done : List Json)
    (json : Json) (frames : List Frame) (place : Nat) (t : Text) :
    (Reader.complete json (.array done :: frames)).follow place (writeItems items ++ t)
      = (Reader.complete (.array (done.reverse ++ json :: items)) frames).follow
          (place + (writeItems items).length) t := by
  induction items generalizing done json place with
  | nil =>
      have hend : Reader.take (.complete json (.array done :: frames)) place (.mark (chr ']'))
          = .ok (.complete (.array (done.reverse ++ [json])) frames) := by
        simp [Reader.take, Reader.takeMark]
      exact Reader.follow_mark (by decide) hend t
  | cons next items ih =>
      obtain ⟨hnext, hitems⟩ := List.forall_mem_cons.1 h
      have hcomma : Reader.take (.complete json (.array done :: frames)) place (.mark (chr ','))
          = .ok (.element false (.array (json :: done) :: frames)) := by
        simp [Reader.take, Reader.takeMark]
      rw [writeItems, List.cons_append, List.cons_append, Reader.follow_mark (by decide) hcomma,
        List.append_assoc, hnext _ _ _ _ (delimited_writeItems items t), ih hitems]
      congr 1
      · simp
      · simp only [List.length_cons, List.length_append]
        omega

/-- A name, a colon and a value are passed. -/
lemma follow_member (h : Passes json) (canClose : Bool) (done : List (Text × Json)) (name : Text)
    (frames : List Frame) (place : Nat) (ht : Delimited t) :
    (Reader.member canClose done frames).follow place
        (writeText name ++ chr ':' :: (write json ++ t))
      = (Reader.complete json (.object done name :: frames)).follow
          (place + (writeText name).length + 1 + (write json).length) t := by
  rw [Reader.follow_text rfl, Reader.follow_mark (by decide) rfl, h _ _ _ _ ht]

/-- After a member of an object its other members are passed, and its end. -/
lemma follow_writeMembers {members : List (Text × Json)} (h : ∀ m ∈ members, Passes m.2)
    (done : List (Text × Json)) (name : Text) (json : Json) (frames : List Frame) (place : Nat)
    (t : Text) :
    (Reader.complete json (.object done name :: frames)).follow place (writeMembers members ++ t)
      = (Reader.complete (.object (done.reverse ++ (name, json) :: members)) frames).follow
          (place + (writeMembers members).length) t := by
  induction members generalizing done name json place with
  | nil =>
      have hend : Reader.take (.complete json (.object done name :: frames)) place
          (.mark (chr '\x7d'))
          = .ok (.complete (.object (done.reverse ++ [(name, json)])) frames) := by
        simp [Reader.take, Reader.takeMark]
      exact Reader.follow_mark (by decide) hend t
  | cons m members ih =>
      obtain ⟨next, value⟩ := m
      obtain ⟨hvalue, hmembers⟩ := List.forall_mem_cons.1 h
      have hcomma : Reader.take (.complete json (.object done name :: frames)) place
          (.mark (chr ','))
          = .ok (.member false ((name, json) :: done) frames) := by
        simp [Reader.take, Reader.takeMark]
      simp only [writeMembers, List.cons_append, List.append_assoc]
      rw [Reader.follow_mark (by decide) hcomma,
        follow_member hvalue _ _ _ _ _ (delimited_writeMembers members t), ih hmembers]
      congr 1
      · simp
      · simp only [List.length_cons, List.length_append]
        omega

/-- A value that is a token of its own is passed. -/
lemma passes_of_token (hwrite : write json = c :: w) (hspace : isSpace c = false)
    (hread : ∀ place t, Delimited t → readToken place c (w ++ t) = (.scalar json, w.length)) :
    Passes json := by
  intro canClose frames place t ht
  rw [hwrite]
  exact Reader.follow_token hspace (hread place t ht) rfl

lemma passes_integer {i : Int} (hi : (digitsOf i.natAbs).length ≤ maxDigits) :
    Passes (integer i) := by
  have hfirst : ∃ c w, integerText i = c :: w ∧ (c = chr '-' ∨ c.isDigit) := by
    obtain ⟨c, w, hdigits, hdigit⟩ := exists_first_digit i.natAbs
    unfold integerText
    split
    · exact ⟨chr '-', _, rfl, Or.inl rfl⟩
    · exact ⟨c, w, hdigits, Or.inr hdigit⟩
  obtain ⟨c, w, htext, hc⟩ := hfirst
  have hother : ∀ d : CodePoint, d.isDigit = false → d ≠ chr '-' → c ≠ d := by
    rintro d hdigit hminus rfl
    simp [hdigit, hminus] at hc
  have hspace : isSpace c = false := by
    have hspaces : ∀ d ∈ [chr ' ', chr '\t', chr '\n', chr '\r'], c ≠ d := by
      simp only [List.forall_mem_cons]
      exact ⟨hother _ rfl (by decide), hother _ rfl (by decide), hother _ rfl (by decide),
        hother _ rfl (by decide), by simp⟩
    simpa [isSpace, and_assoc] using hspaces
  refine passes_of_token htext hspace fun place t ht => ?_
  have hnumber := readNumber?_integerText hi ht
  have hliteral := readLiteral?_integerText i t
  rw [htext, List.cons_append] at hnumber hliteral
  rw [readToken, if_neg (hother (chr '"') rfl (by decide)), hliteral, hnumber]
  rfl

/-- **The reader passes the text of a plain value.** -/
theorem IsPlain.passes (h : json.IsPlain) : Passes json := by
  induction h with
  | null => exact passes_of_token (c := chr 'n') (w := "ull".text) rfl rfl fun _ _ _ => rfl
  | bool b =>
      cases b with
      | true => exact passes_of_token (c := chr 't') (w := "rue".text) rfl rfl fun _ _ _ => rfl
      | false => exact passes_of_token (c := chr 'f') (w := "alse".text) rfl rfl fun _ _ _ => rfl
  | integer hi => exact passes_integer hi
  | string s => exact fun canClose frames place t _ => Reader.follow_text rfl t
  | @array items _ ih =>
      intro canClose frames place t ht
      cases items with
      | nil =>
          change (Reader.element canClose frames).follow place (chr '[' :: chr ']' :: t) = _
          rw [Reader.follow_mark (by decide) rfl, Reader.follow_mark (by decide) rfl]
          rfl
      | cons json items =>
          obtain ⟨hjson, hitems⟩ := List.forall_mem_cons.1 ih
          simp only [write, List.cons_append, List.append_assoc]
          rw [Reader.follow_mark (by decide) rfl, hjson _ _ _ _ (delimited_writeItems items t),
            follow_writeItems hitems]
          congr 1
          simp only [List.length_cons, List.length_append]
          omega
  | @object members _ ih =>
      intro canClose frames place t ht
      cases members with
      | nil =>
          change (Reader.element canClose frames).follow place (chr '\x7b' :: chr '\x7d' :: t) = _
          rw [Reader.follow_mark (by decide) rfl, Reader.follow_mark (by decide) rfl]
          rfl
      | cons m members =>
          obtain ⟨name, json⟩ := m
          obtain ⟨hjson, hmembers⟩ := List.forall_mem_cons.1 ih
          simp only [write, List.cons_append, List.append_assoc]
          rw [Reader.follow_mark (by decide) rfl,
            follow_member hjson _ _ _ _ _ (delimited_writeMembers members t),
            follow_writeMembers hmembers]
          congr 1
          simp only [List.length_cons, List.length_append]
          omega

/-- **A plain value is read back from its text.** -/
theorem read_write (h : json.IsPlain) : read (write json) = .ok json := by
  have hfollow := h.passes false [] 0 [] (by simp [Delimited])
  have hend : (Reader.complete json []).follow (0 + (write json).length) []
      = .ok (.complete json []) := by
    rw [Reader.follow, tokens]
    rfl
  rw [List.append_nil, hend, Reader.follow] at hfollow
  rw [read, hfollow]
  rfl

end Json

end LogSearch
