import JanetEmbedding.Calendar
import JanetEmbedding.Number.Shortest
import JanetEmbedding.Text.Basic

/-!
# Plain data

The values that an evaluation is converted to, and that documents are read to and written from.

A dictionary is the list of its entries in the order of insertion. Its keys are told apart by
`Datum.sameKey`: numbers by their value across the three number kinds, all else by kind and content.

## Main definitions

* `Datum`: a value.
* `Datum.sameKey`: whether two values are one key.
* `Entries.insert`, `Entries.ofPairs`, `Entries.find?`: dictionaries.
* `Datum.canBeKey`: whether a value can be a key.
-/

namespace JanetEmbedding

/-- The kinds of value that can hold themselves. -/
inductive Holder where
  | list
  | dict
  deriving DecidableEq, Repr

/-- A plain value. A date, a moment or a set that was read from a document remembers the place it
was read from, since a writer shows whether two of them are one and the same. -/
inductive Datum where
  | null
  | bool (b : Bool)
  | int (n : Int)
  | float (x : Double)
  | text (s : Text)
  | bytes (bs : List UInt8)
  | list (items : List Datum)
  | tuple (items : List Datum)
  | dict (entries : List (Datum × Datum))
  | date (d : Calendar.Date) (place : Option Nat)
  | moment (m : Calendar.Moment) (place : Option Nat)
  | time (t : Calendar.Time)
  | set (items : List Datum) (place : Option Nat)
  /-- a list or a dictionary, in a place where it holds itself -/
  | itself (kind : Holder)

/-- The entries of a dictionary, in the order of insertion. -/
abbrev Entries := List (Datum × Datum)

namespace Datum

instance : Inhabited Datum := ⟨null⟩

/-- Whether a value is nothing. -/
def isNull : Datum → Bool
  | null => true
  | _ => false

/-! ### Keys -/

/-- The value of a number key: an integer where there is one. -/
inductive NumberKey where
  | whole (n : Int)
  | fractional (x : Double)

/-- The number that a truth value, an integer or a floating-point number is as a key. -/
def numberKey? : Datum → Option NumberKey
  | bool b => some (.whole (if b then 1 else 0))
  | int n => some (.whole n)
  | float x => some (match x.integral? with
    | some n => .whole n
    | none => .fractional x)
  | _ => none

/-- Whether two number keys are equal. Not-a-number equals nothing, itself included. -/
def NumberKey.same : NumberKey → NumberKey → Bool
  | whole m, whole n => m == n
  | fractional x, fractional y => x.sameNumber y
  | _, _ => false

/-- Whether two values that are no sequences are one key. -/
def sameScalar (a b : Datum) : Bool :=
  match a.numberKey?, b.numberKey? with
  | some m, some n => m.same n
  | none, none =>
    match a, b with
    | null, null => true
    | text s, text t => s == t
    | bytes s, bytes t => s == t
    | date d _, date e _ => decide (d = e)
    | moment m _, moment n _ => m.same n
    | time s, time t => s.same t
    | _, _ => false
  | _, _ => false

mutual

/-- Whether two values are one key. -/
def sameKey : Datum → Datum → Bool
  | tuple xs, tuple ys => sameKeys xs ys
  | a, b => sameScalar a b

/-- Whether two sequences are one key, item by item. -/
def sameKeys : List Datum → List Datum → Bool
  | [], [] => true
  | x :: xs, y :: ys => sameKey x y && sameKeys xs ys
  | _, _ => false

end

mutual

/-- Whether a value can be a key: a list, a dictionary or a set cannot, nor a tuple that holds one. -/
def canBeKey : Datum → Bool
  | list _ => false
  | dict _ => false
  | set _ _ => false
  | itself _ => false
  | tuple xs => canAllBeKeys xs
  | _ => true

/-- Whether all items of a sequence can be keys. -/
def canAllBeKeys : List Datum → Bool
  | [] => true
  | x :: xs => canBeKey x && canAllBeKeys xs

end

end Datum

namespace Entries

/-- Sets the value of a key. A key that is there keeps its place and its form; a new one goes to
the end. -/
def insert {α : Type} : List (Datum × α) → Datum → α → List (Datum × α)
  | [], k, v => [(k, v)]
  | (k', v') :: es, k, v => if k'.sameKey k then (k', v) :: es else (k', v') :: insert es k v

/-- The dictionary that pairs make, inserted one after the other. -/
def ofPairs (pairs : List (Datum × Datum)) : Entries :=
  pairs.foldl (fun es (k, v) => insert es k v) []

/-- The value of a key. -/
def find? {α : Type} : List (Datum × α) → Datum → Option α
  | [], _ => none
  | (k', v) :: es, k => if k'.sameKey k then some v else find? es k

/-! ### Laws -/

variable {α : Type}

@[simp] theorem insert_nil (k : Datum) (v : α) : insert [] k v = [(k, v)] := rfl

@[simp] theorem find?_nil (k : Datum) : find? ([] : List (Datum × α)) k = none := rfl

/-- Setting a value adds at most one entry. -/
theorem length_insert_le (es : List (Datum × α)) (k : Datum) (v : α) :
    (insert es k v).length ≤ es.length + 1 := by
  induction es with
  | nil => simp
  | cons e es ih =>
    obtain ⟨k', v'⟩ := e
    by_cases h : k'.sameKey k <;> simp [insert, h, ih]

/-- A key that equals itself has the value it was last given. -/
theorem find?_insert_self {k : Datum} (hk : k.sameKey k) (es : List (Datum × α)) (v : α) :
    find? (insert es k v) k = some v := by
  induction es with
  | nil => simp [find?, hk]
  | cons e es ih =>
    obtain ⟨k', v'⟩ := e
    by_cases h : k'.sameKey k <;> simp [insert, find?, h, ih]

end Entries

end JanetEmbedding
