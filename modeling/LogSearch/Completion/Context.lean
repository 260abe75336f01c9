import LogSearch.Completion.Catalog
import LogSearch.Text.Class

/-!
# What is being typed

The context of a cursor says what the user is typing there.  It depends only on the text before
the cursor, and nearly always on its last token alone: the characters since the last blank.

* `clampCursor` — a cursor is any integer or missing; it is moved into the text, to the end if
  missing.
* `Context` — ready for a new token, part of a key, part of a value, or free text.
* `keyAndRest?` — splits a token `key:rest`.
* `endsInClosedName` — a quoted name may hold blanks, so it is recognised from its closing quote
  backwards.
* `Context.ofBefore` — the context from the text before the cursor.
-/

namespace LogSearch

/-- Moves a cursor into a text.  A missing cursor stands at the end. -/
def clampCursor (length : Nat) : Option Int → Nat
  | none => length
  | some cursor => min cursor.toNat length

/-- Whether a value needs no further completion: it is an enumerated value of its key, or a name in
a closed pair of quotes for a key whose values are names. -/
def isComplete (key value : Text) : Bool :=
  isChoice key value ||
    ((nameKey? key).isSome && 2 < value.length && value.head? == some (chr '"')
      && value.getLast? == some (chr '"'))

/-- What is being typed at a cursor. -/
inductive Context where
  /-- Ready for a new token. -/
  | initial
  /-- A bare word from `start` to `stop`. -/
  | key (typed : Text) (start stop : Nat)
  /-- A value of `key`, from `start` to `stop`. -/
  | value (key typed : Text) (start stop : Nat)
  /-- Free text, for which there is nothing to offer. -/
  | free
  deriving DecidableEq

/-! ## Tokens -/

/-- Splits a token into a key and what follows its colon. -/
def keyAndRest? (token : Text) : Option (Text × Text) :=
  let key := token.takeWhile isWord
  if key.isEmpty then none
  else match token.dropWhile isWord with
    | chr ':' :: rest => some (key, rest)
    | _ => none

/-- Whether a token is a word and nothing else. -/
def isBareWord (token : Text) : Bool :=
  !token.isEmpty && token.all isWord

/-- The key of a text that ends in `key:"name"`, where the key starts a token and the name is not
empty.  The text is given backwards. -/
def closedNameKey? : Text → Option Text
  | chr '"' :: back =>
    let name := back.takeWhile (· ≠ chr '"')
    match back.dropWhile (· ≠ chr '"') with
    | chr '"' :: chr ':' :: before =>
      let key := before.takeWhile isWord
      if !name.isEmpty && !key.isEmpty && startsBlank (before.dropWhile isWord) then
        some key.reverse
      else none
    | _ => none
  | _ => none

/-- Whether a text ends in a closed quoted name of a key whose values are names. -/
def endsInClosedName (before : Text) : Bool :=
  (closedNameKey? before.reverse).any fun key => (nameKey? key).isSome

/-! ## Contexts -/

namespace Context

/-- The context after a text: that of its last token. -/
def ofBefore (before : Text) : Context :=
  let token := lastToken before
  let stop := before.length
  match keyAndRest? token with
  | some (name, rest) =>
    if rest.isEmpty || isComplete name rest then .initial
    else .value name rest (stop - rest.length) stop
  | none =>
    if token.isEmpty || endsInClosedName before then .initial
    else if isBareWord token then .key token (stop - token.length) stop
    else .free

/-- The context at a cursor in a text. -/
def atCursor (text : Text) (cursor : Option Int) : Context :=
  ofBefore (text.take (clampCursor text.length cursor))

end Context

end LogSearch
