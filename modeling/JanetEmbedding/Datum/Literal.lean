import JanetEmbedding.Datum.Basic
import JanetEmbedding.Datum.Error
import JanetEmbedding.Nesting
import JanetEmbedding.Text.Utf8

/-!
# The text of a value

Two texts of a value: its **literal**, in which texts are quoted, as messages show it; and its
**display**, in which a text stands for itself and a date is in standard notation.

Either fails only for an integer with too many digits, and where there is no room. The items of a list or a
tuple and the entries of a dictionary are written with one more call open, those of a set with two.
-/

namespace JanetEmbedding.Datum

/-- The text of an integer. -/
def integerLiteral (n : Int) : Except DataError String :=
  match Double.integerText n with
  | some s => .ok s
  | none => .error .integerTooLong

mutual

/-- The literal of a value. -/
def literal (room : Nat) : Datum → Except DataError String
  | null => .ok "None"
  | bool b => .ok (if b then "True" else "False")
  | int n => integerLiteral n
  | float x => .ok x.text
  | text s => .ok (Text.quoted s)
  | bytes bs => .ok (Text.quotedBytes bs)
  | list items =>
    Nesting.within .tooDeep 1 room fun room => do
      let parts ← literals room items
      return "[" ++ ", ".intercalate parts ++ "]"
  | tuple items =>
    Nesting.within .tooDeep 1 room fun room => do
      match ← literals room items with
      | [part] => return "(" ++ part ++ ",)"
      | parts => return "(" ++ ", ".intercalate parts ++ ")"
  | dict entries =>
    Nesting.within .tooDeep 1 room fun room => do
      let parts ← entryLiterals room entries
      return "\x7b" ++ ", ".intercalate parts ++ "\x7d"
  | date d _ => .ok d.constructed
  | moment m _ => .ok m.constructed
  | time t => .ok t.constructed
  | set items _ =>
    Nesting.within .tooDeep 2 room fun room => do
      match ← literals room items with
      | [] => return "set()"
      | parts => return "\x7b" ++ ", ".intercalate parts ++ "\x7d"
  | itself .list => .ok "[...]"
  | itself .dict => .ok "\x7b...\x7d"

/-- The literals of a sequence. -/
def literals (room : Nat) : List Datum → Except DataError (List String)
  | [] => .ok []
  | x :: xs => do
    let part ← literal room x
    return part :: (← literals room xs)

/-- The literals of the entries of a dictionary. -/
def entryLiterals (room : Nat) : List (Datum × Datum) → Except DataError (List String)
  | [] => .ok []
  | (k, v) :: es => do
    let key ← literal room k
    let value ← literal room v
    return (key ++ ": " ++ value) :: (← entryLiterals room es)

end

/-- The display of a value. -/
def display (room : Nat) : Datum → Except DataError Text
  | text s => .ok s
  | date d _ => .ok d.iso
  | moment m _ => .ok (m.iso " ")
  | time t => .ok t.iso
  | x => do return ← x.literal room

/-- The text that a value is read as when it is given in place of a document: bytes are decoded, all
else is displayed. -/
def asDocument (room : Nat) : Datum → Except DataError Text
  | bytes bs => .ok (Utf8.decodeString bs)
  | x => x.display room

/-! ### Laws -/

/-- An integer has a literal unless it is too long to be written. -/
theorem exists_literal_int_iff {room : Nat} {n : Int} :
    (∃ s, (int n).literal room = .ok s) ↔ Double.integerText n ≠ none := by
  simp only [literal, integerLiteral]
  split
  next s hs => simp [hs]
  next hs => simp [hs]

end JanetEmbedding.Datum
