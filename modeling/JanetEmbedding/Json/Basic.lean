import JanetEmbedding.Datum.Plain

/-!
# JSON values

A JSON value keeps integers and floating-point numbers apart, and its numbers may be infinite or
not-a-number. To walk through a value with text keys takes one call for each collection, which is fewer than
it took to make it, so there is room for that.

## Main definitions

* `Json`: a JSON value.
* `Json.ofPlain`: the JSON value of a value with text keys.
* `Json.toDatum`: the plain value that a JSON value stands for.
-/

namespace JanetEmbedding

/-- A JSON value. The fields of an object are in order and have different names. -/
inductive Json where
  | null
  | bool (b : Bool)
  | int (n : Int)
  | float (x : Double)
  | text (s : Text)
  | list (items : List Json)
  | object (fields : List (Text × Json))

namespace Json

instance : Inhabited Json := ⟨null⟩

/-! ### From plain data -/

/-- The JSON value of a value that is neither a sequence nor a dictionary. Dates, times, bytes and
sets have none, and neither has an integer that is too long to be written. -/
def ofLeaf : Datum → Except DataError Json
  | .null => .ok null
  | .bool b => .ok (bool b)
  | .int n => (Datum.integerLiteral n).map fun _ => int n
  | .float x => .ok (float x)
  | .text s => .ok (text s)
  | .bytes _ => .error (.notJson "bytes")
  | .date _ _ => .error (.notJson "date")
  | .moment _ _ => .error (.notJson "datetime")
  | .time _ => .error (.notJson "time")
  | .set _ _ => .error (.notJson "set")
  | .list _ => .error (.notJson "list")
  | .tuple _ => .error (.notJson "tuple")
  | .dict _ => .error (.notJson "dict")
  | .itself _ => .error .tooDeep

mutual

/-- The JSON value of a value with text keys. Of several leaves without one the first is at fault. -/
def ofPlain : Plain → Except DataError Json
  | .leaf x => ofLeaf x
  | .list items => (ofPlains items).map list
  | .object fields => (ofFields fields).map object

/-- The JSON values of the items of a list. -/
def ofPlains : List Plain → Except DataError (List Json)
  | [] => .ok []
  | p :: ps => do
    let j ← ofPlain p
    return j :: (← ofPlains ps)

/-- The JSON values of the fields of an object. -/
def ofFields : List (Text × Plain) → Except DataError (List (Text × Json))
  | [] => .ok []
  | (k, p) :: fs => do
    let j ← ofPlain p
    return (k, j) :: (← ofFields fs)

end

/-! ### To plain data -/

mutual

/-- The plain value of a JSON value. -/
def toDatum : Json → Datum
  | null => .null
  | bool b => .bool b
  | int n => .int n
  | float x => .float x
  | text s => .text s
  | list items => .list (toData items)
  | object fields => .dict (toEntries fields)

/-- The plain values of the items of a list. -/
def toData : List Json → List Datum
  | [] => []
  | j :: js => toDatum j :: toData js

/-- The entries that the fields of an object stand for. -/
def toEntries : List (Text × Json) → Entries
  | [] => []
  | (k, j) :: fs => (.text k, toDatum j) :: toEntries fs

end

end Json

end JanetEmbedding
