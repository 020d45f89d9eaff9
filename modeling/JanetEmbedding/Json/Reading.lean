import JanetEmbedding.Json.Token

/-!
# Reading a JSON value

The tokens of a text are read by a machine that holds the lists and objects it is inside of. A name
that an object has twice keeps its first place and its last value. A list or an object takes one more call
than those that it is inside of.

## Main definitions

* `Json.Reader`: what the machine expects next.
* `Json.Reader.step`: one token.
* `Json.read`: the value of a text.
-/

namespace JanetEmbedding.Json

/-- A list or an object that is being read. -/
inductive Frame where
  /-- a list with its items so far, in reverse -/
  | list (items : List Json)
  /-- an object with its fields so far, and the name of the field being read -/
  | object (fields : List (Text × Json)) (name : Text)

/-- What is expected next. Every state has the frames around, the innermost first. -/
inductive Reader where
  /-- a value, or the end of the list if it has just begun -/
  | value (atStart : Bool) (around : List Frame)
  /-- a name, or the end of the object if it has just begun -/
  | name (atStart : Bool) (fields : List (Text × Json)) (around : List Frame)
  | colon (fields : List (Text × Json)) (name : Text) (around : List Frame)
  /-- what follows a complete value -/
  | after (j : Json) (around : List Frame)

namespace Reader

/-- Reads one token. -/
def step (room : Nat) : Reader → Token → Except DataError Reader
  | value _ fs, .scalar j => .ok (after j fs)
  | value _ fs, .text s => .ok (after (text s) fs)
  | value _ fs, .beginList =>
    Nesting.within .tooDeep (fs.length + 1) room fun _ => .ok (value true (.list [] :: fs))
  | value _ fs, .beginObject =>
    Nesting.within .tooDeep (fs.length + 1) room fun _ => .ok (name true [] fs)
  | value true (.list _ :: fs), .endList => .ok (after (list []) fs)
  | value _ _, .tooLong digits => .error (.tooManyDigits digits)
  | name _ fields fs, .text s => .ok (colon fields s fs)
  | name true _ fs, .endObject => .ok (after (object []) fs)
  | colon fields s fs, .colon => .ok (value false (.object fields s :: fs))
  | after j (.list js :: fs), .comma => .ok (value false (.list (j :: js) :: fs))
  | after j (.list js :: fs), .endList => .ok (after (list (j :: js).reverse) fs)
  | after j (.object fields s :: fs), .comma => .ok (name false (Fields.set fields s j) fs)
  | after j (.object fields s :: fs), .endObject => .ok (after (object (Fields.set fields s j)) fs)
  | _, _ => .error (.malformed .json)

/-- Reads tokens one after the other. -/
def run (room : Nat) : Reader → List Token → Except DataError Reader
  | r, [] => .ok r
  | r, t :: ts => do run room (← r.step room t) ts

/-- The value that has been read, if it is complete. -/
def result : Reader → Except DataError Json
  | after j [] => .ok j
  | _ => .error (.malformed .json)

end Reader

/-- The value of a text. -/
def read (room : Nat) (t : Text) : Except DataError Json := do
  ((← Reader.run room (.value false []) (tokens t))).result

end JanetEmbedding.Json
