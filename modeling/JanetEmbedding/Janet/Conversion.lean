import JanetEmbedding.Datum.Basic
import JanetEmbedding.Janet.Display

/-!
# Conversion to plain data

Interpreter values become plain data: sequences become lists, mappings become dictionaries, and what
has no counterpart becomes its display text.

A key has to be something that a dictionary can be looked up by. A keyword loses its colon, a
sequence becomes a tuple, and a key that still cannot be one is replaced by its display text.

The items of a sequence are converted with three more calls open, the values of a mapping with two, and its
keys with three. To freeze a list takes fewer calls than it took to convert it, so there is room for that.

## Main definitions

* `Janet.Value.convert`: the conversion of a value.
* `Janet.Value.convertKey`: the conversion of a key.
* `Datum.frozen`: a value with its lists turned into tuples.
-/

namespace JanetEmbedding

namespace Datum

mutual

/-- A value with its lists, at every depth, turned into tuples. What is not a list stays. -/
def frozen : Datum → Datum
  | list items => tuple (allFrozen items)
  | x => x

/-- The items of a list, frozen. -/
def allFrozen : List Datum → List Datum
  | [] => []
  | x :: xs => frozen x :: allFrozen xs

end

end Datum

namespace Janet.Value

/-- The key that a value becomes, given the conversion of the value. -/
def keyOf (room : Nat) : Value → Datum → Except ViewFault Datum
  | text .keyword content _, _ => .ok (.text (contentText content))
  | v, .list items =>
    let key := (Datum.list items).frozen
    if key.canBeKey then .ok key else (v.display room).map .text
  | v, .dict _ => (v.display room).map .text
  | _, x => .ok x

mutual

/-- The conversion of a value. It fails if a sequence or a mapping on the way refuses to be viewed, and
where there is no room. -/
def convert (room : Nat) : Value → Except ViewFault Datum
  | nil _ => .ok .null
  | boolean b _ => .ok (.bool b)
  | number x _ => .ok (.float x)
  | text .keyword content _ => .ok (.text (":" ++ contentText content))
  | text _ content _ => .ok (.text (contentText content))
  | sequence _ (some items) _ =>
    Nesting.within .tooDeep 3 room fun room => (convertItems room items).map .list
  | sequence _ none _ => .error .notSequence
  | mapping _ (some slots) _ =>
    Nesting.within .tooDeep 2 room fun room => (convertSlots room [] slots).map .dict
  | mapping _ none _ => .error .notMapping
  | other k own => .ok (.text (other k own).nativeText)

/-- The conversion of the items of a sequence. -/
def convertItems (room : Nat) : List Value → Except ViewFault (List Datum)
  | [] => .ok []
  | v :: vs => do
    let x ← convert room v
    return x :: (← convertItems room vs)

/-- The conversion of the slots of a mapping, inserted one after the other in the entries so far.
Empty slots are passed over, and the value of a slot is looked at before its key. -/
def convertSlots (room : Nat) (entries : Entries) : Slots → Except ViewFault Entries
  | [] => .ok entries
  | (key, value) :: slots =>
    if key.isNil then convertSlots room entries slots
    else do
      let v ← convert room value
      let k ← Nesting.within .tooDeep 1 room fun room => do key.keyOf room (← convert room key)
      convertSlots room (Entries.insert entries k v) slots

end

/-- The conversion of a key. -/
def convertKey (room : Nat) (v : Value) : Except ViewFault Datum := do v.keyOf room (← v.convert room)

end Janet.Value

end JanetEmbedding
