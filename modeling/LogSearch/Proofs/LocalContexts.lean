import LogSearch.Proofs.ClosedNames

/-!
# Contexts are local

The context of a cursor is that of its token, and what stands before the token does not matter.  The
exception is a quoted name, which may hold blanks: its closing quote belongs to an opening one that
can stand any number of tokens before it.

* `Context.shift` — a context in a text that is moved to the right.
* `LeavesNameOpen` — a text in which a quoted name is begun and not closed.
* `Context.forall_ofBefore_append_iff` — text in front, set off by a blank, only moves the contexts
  behind it if and only if it leaves no name open.
* `Context.atCursor_append` — so text without double quotes in front only moves them.
-/

namespace LogSearch

variable {p b typed : Text}

/-- The context in a text that is moved to the right by `n` characters: its places move along. -/
def Context.shift (n : Nat) : Context → Context
  | .initial => .initial
  | .key typed start stop => .key typed (n + start) (n + stop)
  | .value name typed start stop => .value name typed (n + start) (n + stop)
  | .free => .free

/-- A text that leaves a name open: behind its last double quote a name is being written, for a key
of names that starts a token. -/
def LeavesNameOpen (p : Text) : Prop :=
  ∃ pre key name, p = pre ++ key ++ chr ':' :: chr '"' :: name ∧ (pre = [] ∨ endsBlank pre) ∧
    (nameKey? key).isSome ∧ chr '"' ∉ name

lemma not_leavesNameOpen (h : chr '"' ∉ p) : ¬ LeavesNameOpen p := by
  rintro ⟨pre, key, name, rfl, -⟩
  simp at h

/-! ## Tokens behind a blank -/

lemma nil_or_endsBlank_append (hp : p = [] ∨ endsBlank p) (hb : b = [] ∨ endsBlank b) :
    p ++ b = [] ∨ endsBlank (p ++ b) := by
  by_cases h : b = []
  · rwa [h, List.append_nil]
  · rw [endsBlank_append h]
    exact Or.inr (hb.resolve_left h)

lemma nil_or_endsBlank_of_append (h : p ++ b = [] ∨ endsBlank (p ++ b)) :
    b = [] ∨ endsBlank b := by
  by_cases hb : b = []
  · exact Or.inl hb
  · rw [endsBlank_append hb] at h
    exact h.imp (fun h => (List.append_eq_nil_iff.1 h).2) id

/-- A token is not changed by text in front that is set off by a blank. -/
lemma lastToken_append_right (hp : p = [] ∨ endsBlank p) (b : Text) :
    lastToken (p ++ b) = lastToken b := by
  nth_rewrite 1 [← beforeToken_append_lastToken b]
  rw [← List.append_assoc]
  exact lastToken_append (nil_or_endsBlank_append hp (beforeToken_eq_nil_or b))
    fun c hc => isBlank_of_mem_lastToken hc

lemma length_lastToken_le (b : Text) : (lastToken b).length ≤ b.length := by
  nth_rewrite 2 [← beforeToken_append_lastToken b]
  simp

/-! ## Closed names behind a blank -/

/-- Text in front that ends inside a quoted name leaves that name open. -/
lemma leavesNameOpen_of_append {pre key name inner : Text} (hpre : pre = [] ∨ endsBlank pre)
    (hk : (nameKey? key).isSome) (hq : chr '"' ∉ name) (hinner : endsBlank inner)
    (happ : Span.text ⟨key, quoted name⟩ = inner ++ b) : LeavesNameOpen (pre ++ inner) := by
  have hkey := isKey_of_nameKey hk
  have hopening : ∀ c ∈ key ++ [chr ':', chr '"'], isBlank c = false :=
    isBlank_of_key_colon hkey (List.forall_mem_singleton.2 (by decide))
  have hsplit : (key ++ [chr ':', chr '"']) ++ (name ++ [chr '"']) = inner ++ b := by
    rw [← happ]
    simp [Span.text, quoted]
  rcases List.append_eq_append_iff.1 hsplit with ⟨x, rfl, hx⟩ | ⟨y, hy, -⟩
  · -- the text in front ends behind the opening quote, and before the closing one
    have hb : b ≠ [] := by
      rintro rfl
      rw [List.append_nil] at hsplit
      rw [← hsplit, ← List.append_assoc, endsBlank_concat] at hinner
      exact absurd hinner (by decide)
    obtain ⟨b', c, rfl⟩ := (List.eq_nil_or_concat b).resolve_left hb
    rw [List.concat_eq_append, ← List.append_assoc] at hx
    have hname : name = x ++ b' := (List.append_inj' hx rfl).1
    exact ⟨pre, key, x, by simp, hpre, hk, fun h => hq (by simp [hname, h])⟩
  · -- the text in front ends before the name, where no blanks are
    have hblank : endsBlank inner = false :=
      endsBlank_eq_false fun c hc => hopening c (by simp [hy, hc])
    rw [hblank] at hinner
    exact Bool.noConfusion hinner

/-- Text in front that is set off by a blank and leaves no name open has no part in a closed
name. -/
lemma endsInClosedName_append (hp : p = [] ∨ endsBlank p) (hopen : ¬ LeavesNameOpen p) (b : Text) :
    endsInClosedName (p ++ b) = endsInClosedName b := by
  rw [Bool.eq_iff_iff, endsInClosedName_iff, endsInClosedName_iff]
  refine exists_congr fun key => exists_congr fun name => and_congr_left fun hk => ?_
  constructor
  · rintro ⟨hkey, hne, hq, pre, happ, hpre⟩
    rcases List.append_eq_append_iff.1 happ with ⟨x, rfl, hx⟩ | ⟨y, rfl, hy⟩
    · exact ⟨hkey, hne, hq, x, hx, nil_or_endsBlank_of_append hpre⟩
    · rcases nil_or_endsBlank_of_append hp with rfl | hblank
      · exact ⟨hkey, hne, hq, [], hy.symm, Or.inl rfl⟩
      · exact absurd (leavesNameOpen_of_append hpre hk hq hblank hy) hopen
  · rintro ⟨hkey, hne, hq, pre, rfl, hpre⟩
    exact ⟨hkey, hne, hq, p ++ pre, (List.append_assoc ..).symm, nil_or_endsBlank_append hp hpre⟩

namespace Context

/-! ## Contexts behind a blank -/

/-- Text in front that leaves no name open only moves the context. -/
lemma ofBefore_append (hp : p = [] ∨ endsBlank p) (hopen : ¬ LeavesNameOpen p) (b : Text) :
    ofBefore (p ++ b) = (ofBefore b).shift p.length := by
  have htoken := lastToken_append_right hp b
  have hclosed := endsInClosedName_append hp hopen b
  have hlength := length_lastToken_le b
  simp only [ofBefore, htoken, hclosed, List.length_append]
  split
  · rename_i name rest hk
    have hrest : rest.length ≤ b.length := by
      rw [(keyAndRest?_eq_some_iff.1 hk).1] at hlength
      simp at hlength
      omega
    split
    · rfl
    · simp only [shift, Nat.add_sub_assoc hrest]
  · split
    · rfl
    · split
      · simp only [shift, Nat.add_sub_assoc hlength]
      · rfl

/-- A closing quote behind a name that is left open closes it. -/
lemma ofBefore_closing_quote (hp : p = [] ∨ endsBlank p) (hopen : LeavesNameOpen p) :
    ofBefore (p ++ [chr '"']) = .initial := by
  have htoken : lastToken (p ++ [chr '"']) = [chr '"'] :=
    lastToken_append hp (List.forall_mem_singleton.2 (by decide))
  obtain ⟨pre, key, name, rfl, hpre, hk, hq⟩ := hopen
  have hname : name ≠ [] := by
    -- a blank stands before the closing quote, and it is not the opening one
    rintro rfl
    rcases hp with hnil | hblank
    · simp at hnil
    · rw [endsBlank_append (by simp)] at hblank
      exact absurd hblank (by decide)
  have hclosed : endsInClosedName (pre ++ key ++ chr ':' :: chr '"' :: name ++ [chr '"']) :=
    endsInClosedName_iff.2 ⟨key, name, ⟨isKey_of_nameKey hk, hname, hq, pre,
      by simp [Span.text, quoted], hpre⟩, hk⟩
  have hkey : keyAndRest? [chr '"'] = none := by decide
  simp only [ofBefore, htoken, hkey, hclosed, Bool.or_true, if_true]

/-- **Contexts are local exactly behind texts that leave no name open.**  Let a text in front be
empty or end in a blank.  Whatever is typed behind it, the context is that without it, moved along,
if and only if it leaves no name open. -/
theorem forall_ofBefore_append_iff (hp : p = [] ∨ endsBlank p) :
    (∀ b, ofBefore (p ++ b) = (ofBefore b).shift p.length) ↔ ¬ LeavesNameOpen p := by
  refine ⟨fun h hopen => ?_, ofBefore_append hp⟩
  have hfree : ofBefore [chr '"'] = .free := by decide +kernel
  have hmoved := h [chr '"']
  rw [ofBefore_closing_quote hp hopen, hfree] at hmoved
  simp [shift] at hmoved

/-- A cursor behind a text in front is moved into the text that follows. -/
lemma take_clampCursor_append (p text : Text) (cursor : Nat) :
    (p ++ text).take (clampCursor (p ++ text).length (some ↑(p.length + cursor)))
      = p ++ text.take (clampCursor text.length (some cursor)) := by
  have hclamp : clampCursor (p ++ text).length (some ↑(p.length + cursor))
      = p.length + clampCursor text.length (some cursor) := by
    simp only [clampCursor, Int.toNat_natCast, List.length_append]
    omega
  rw [hclamp, List.take_length_add_append]

/-- **Contexts are local.**  Let a text in front hold no double quotes, and be empty or end in a
blank.  At every cursor in the text behind it, the context is of the same kind as without the text
in front, with the same key and the same characters typed, and its places are moved by the length
of the text in front. -/
theorem atCursor_append (p text : Text) (cursor : Nat) (hp : p = [] ∨ endsBlank p)
    (hq : chr '"' ∉ p) :
    atCursor (p ++ text) (some ↑(p.length + cursor))
      = (atCursor text (some ↑cursor)).shift p.length := by
  rw [atCursor, take_clampCursor_append]
  exact ofBefore_append hp (not_leavesNameOpen hq) _

/-- Behind a key without a value and a wide blank: a cursor in the middle of a value, and one behind
a closed name with a blank in it. -/
theorem atCursor_append_refund :
    let p := "refund workflow:\u2003".text
    let text := "cost:>0.05 folder:\"Daily ops\"".text
    (p = [] ∨ endsBlank p) ∧ chr '"' ∉ p ∧
      atCursor text (some 9) = .value "cost".text ">0.0".text 5 9 ∧
      atCursor (p ++ text) (some 26) = .value "cost".text ">0.0".text 22 26 ∧
      atCursor (p ++ text) (some 46) = .initial := by
  intro p text
  have hp : p = [] ∨ endsBlank p := by decide +kernel
  have hq : chr '"' ∉ p := by decide +kernel
  have hvalue : atCursor text (some 9) = .value "cost".text ">0.0".text 5 9 := by
    decide +kernel
  have hclosed : atCursor text (some 29) = .initial := by decide +kernel
  exact ⟨hp, hq, hvalue, (atCursor_append p text 9 hp hq).trans (congrArg (shift 17) hvalue),
    (atCursor_append p text 29 hp hq).trans (congrArg (shift 17) hclosed)⟩

end Context

end LogSearch
