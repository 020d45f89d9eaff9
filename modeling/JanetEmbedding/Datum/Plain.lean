import JanetEmbedding.Datum.Literal

/-!
# Values with text keys

Documents have text keys only. Before a value is written, every key of its dictionaries becomes a
text, and every tuple a list. Two keys of one text fall together: the entry stays where the first
one was and has the value of the last.

What a collection holds is turned into a value with text keys with two more calls open; the items of a tuple
that is a key have three more open.

## Main definitions

* `Datum.keyText`: the text of a key.
* `Fields.set`: sets a field of an object.
* `Plain`: a value with text keys; `Datum.toPlain`, `Plain.toDatum`: to and fro.
-/

namespace JanetEmbedding

/-- A value whose dictionaries have text keys. -/
inductive Plain where
  /-- a value that is neither a sequence nor a dictionary -/
  | leaf (x : Datum)
  | list (items : List Plain)
  | object (fields : List (Text × Plain))

namespace Datum

mutual

/-- The text of a key. It is the display text of the interpreter: nothing is `nil`, truth values are
in lower case, an integral number has no fraction, and a tuple stands between parentheses. -/
def keyText (room : Nat) : Datum → Except DataError Text
  | null => .ok "nil"
  | bool b => .ok (Text.ofString (if b then "true" else "false"))
  | float x => .ok x.plainText
  | tuple items =>
    Nesting.within .tooDeep 3 room fun room => do
      let parts ← keyTexts room items
      return "(" ++ Text.intercalate " " parts ++ ")"
  | x => x.display room

/-- The texts of the items of a key. -/
def keyTexts (room : Nat) : List Datum → Except DataError (List Text)
  | [] => .ok []
  | x :: xs => do
    let part ← keyText room x
    return part :: (← keyTexts room xs)

end

end Datum

namespace Fields

/-- Sets a field, which keeps its place if it is there. -/
def set {α : Type} : List (Text × α) → Text → α → List (Text × α)
  | [], k, v => [(k, v)]
  | (k', v') :: fs, k, v => if k' = k then (k', v) :: fs else (k', v') :: set fs k v

end Fields

namespace Plain

mutual

/-- A value with text keys, as a value. -/
def toDatum : Plain → Datum
  | leaf x => x
  | list items => .list (toData items)
  | object fields => .dict (toEntries fields)

/-- The items of a list, as values. -/
def toData : List Plain → List Datum
  | [] => []
  | p :: ps => toDatum p :: toData ps

/-- The fields of an object, as entries. -/
def toEntries : List (Text × Plain) → Entries
  | [] => []
  | (k, p) :: fs => (.text k, toDatum p) :: toEntries fs

end

end Plain

namespace Datum

mutual

/-- A value with its keys turned into texts. It fails for a key that is too long an integer, for a value
that holds itself, and where there is no room. -/
def toPlain (room : Nat) : Datum → Except DataError Plain
  | list items => Nesting.within .tooDeep 2 room fun room => (toPlains room items).map .list
  | tuple items => Nesting.within .tooDeep 2 room fun room => (toPlains room items).map .list
  | dict entries => Nesting.within .tooDeep 2 room fun room => (toFields room [] entries).map .object
  | itself _ => .error .tooDeep
  | x => .ok (.leaf x)

/-- The items of a list with their keys turned into texts. -/
def toPlains (room : Nat) : List Datum → Except DataError (List Plain)
  | [] => .ok []
  | x :: xs => do
    let p ← toPlain room x
    return p :: (← toPlains room xs)

/-- The entries of a dictionary, set one after the other in the fields so far. -/
def toFields (room : Nat) (fields : List (Text × Plain)) :
    Entries → Except DataError (List (Text × Plain))
  | [] => .ok fields
  | (k, v) :: es => do
    let key ← keyText room k
    let value ← toPlain room v
    toFields room (Fields.set fields key value) es

end

end Datum

end JanetEmbedding
