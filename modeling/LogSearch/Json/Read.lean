import LogSearch.Json.Token

/-!
# Reading JSON

`Json.read` reads a whole text as one value, or says where it stops being JSON.  The reader goes
through the tokens from left to right.  What it expects next is a `Reader`; the containers that
are still open are kept beside it, the innermost first.

A fault lies at the first token that does not fit, or at the end of the text.  A quoted text with a
fault inside counts from there, but only where a text may stand.
-/

namespace LogSearch

namespace Json

/-- Why a text is not read. -/
inductive ReadFault where
  /-- It is not JSON; so many characters come before the fault. -/
  | malformed (place : Nat)
  /-- It holds an integer with too many digits. -/
  | oversized
  deriving DecidableEq

/-- A container that is still open, with what it holds so far in reverse. -/
inductive Frame where
  | array (items : List Json)
  /-- An object that waits for the value of `name`. -/
  | object (members : List (Text × Json)) (name : Text)

/-- What the reader expects next. -/
inductive Reader where
  /-- A value, or the end of an array that has just been opened. -/
  | element (canClose : Bool) (frames : List Frame)
  /-- A name, or the end of an object that has just been opened. -/
  | member (canClose : Bool) (members : List (Text × Json)) (frames : List Frame)
  /-- The colon after a name. -/
  | colon (members : List (Text × Json)) (name : Text) (frames : List Frame)
  /-- What may follow a complete value. -/
  | complete (json : Json) (frames : List Frame)

namespace Reader

/-- Takes a token where a value is expected. -/
def takeValue (canClose : Bool) (frames : List Frame) (place : Nat) :
    Token → Except ReadFault Reader
  | .scalar json => .ok (.complete json frames)
  | .text s => .ok (.complete (.string s) frames)
  | .badText fault => .error (.malformed fault)
  | .oversized => .error .oversized
  | .mark c =>
    if c = chr '[' then .ok (.element true (.array [] :: frames))
    else if c = chr '\x7b' then .ok (.member true [] frames)
    else if c = chr ']' ∧ canClose then .ok (.complete (.array []) (frames.drop 1))
    else .error (.malformed place)

/-- Takes a token where the name of a member is expected. -/
def takeName (canClose : Bool) (members : List (Text × Json)) (frames : List Frame) (place : Nat) :
    Token → Except ReadFault Reader
  | .text s => .ok (.colon members s frames)
  | .badText fault => .error (.malformed fault)
  | .mark c =>
    if c = chr '\x7d' ∧ canClose then .ok (.complete (.object []) frames)
    else .error (.malformed place)
  | _ => .error (.malformed place)

/-- Takes punctuation after a complete value. -/
def takeMark (json : Json) (frames : List Frame) (c : CodePoint) : Option Reader :=
  match frames with
  | [] => none
  | .array items :: rest =>
    if c = chr ',' then some (.element false (.array (json :: items) :: rest))
    else if c = chr ']' then some (.complete (.array (json :: items).reverse) rest)
    else none
  | .object members name :: rest =>
    if c = chr ',' then some (.member false ((name, json) :: members) rest)
    else if c = chr '\x7d' then some (.complete (.object ((name, json) :: members).reverse) rest)
    else none

/-- Takes the next token. -/
def take (r : Reader) (place : Nat) (token : Token) : Except ReadFault Reader :=
  match r, token with
  | .element canClose frames, token => takeValue canClose frames place token
  | .member canClose members frames, token => takeName canClose members frames place token
  | .colon members name frames, .mark (chr ':') =>
    .ok (.element false (.object members name :: frames))
  | .complete json frames, .mark c =>
    match takeMark json frames c with
    | some next => .ok next
    | none => .error (.malformed place)
  | _, _ => .error (.malformed place)

/-- The value that was read, if nothing is missing. -/
def result? : Reader → Option Json
  | .complete json [] => some json
  | _ => none

end Reader

/-- Reads a text as one JSON value. -/
def read (s : Text) : Except ReadFault Json := do
  let last ← (tokens 0 s).foldlM (fun (r : Reader) t => r.take t.1 t.2) (Reader.element false [])
  match last.result? with
  | some json => return json
  | none => throw (ReadFault.malformed s.length)

end Json

end LogSearch
