/-!
# Reading UTF-8

Bytes are read by a machine that holds the character it is in the middle of. A byte that cannot
continue that character ends it as malformed and is looked at afresh, so what is malformed is always
a longest start of a character: each is read as one replacement character, or, where malformed text
is refused, named in the refusal.

## Main definitions

* `Utf8.step`: one byte.
* `Utf8.decode`: the text of any bytes, with a replacement character for each malformed piece.
* `Utf8.decodeStrict`: the text of well-formed bytes, or the first fault.
* `Utf8.encode`: the bytes of a text.
-/

namespace JanetEmbedding.Utf8

/-- The character that stands for a malformed piece. -/
def replacement : Char := Char.ofNat 0xFFFD

/-- What the machine holds between two bytes. -/
inductive State where
  /-- Between characters. -/
  | start
  /-- Inside a character: the bytes read of it, the value they give so far, the number of
  continuation bytes owed after the next one, and the range of the next one. -/
  | inside (seen : List UInt8) (value : Nat) (owed : Nat) (low high : UInt8)
  deriving DecidableEq, Repr

/-- What one byte does at the start of a character. -/
inductive Opening where
  | char (c : Char)
  | lead (value owed : Nat) (low high : UInt8)
  | malformed
  deriving DecidableEq, Repr

/-- Reads the first byte of a character. The ranges of the second byte shut out the overlong forms,
the surrogates and what lies beyond the last character. -/
def opening (b : UInt8) : Opening :=
  if b < 0x80 then .char (Char.ofNat b.toNat)
  else if b < 0xC2 then .malformed
  else if b < 0xE0 then .lead (b.toNat - 0xC0) 0 0x80 0xBF
  else if b = 0xE0 then .lead 0 1 0xA0 0xBF
  else if b = 0xED then .lead 0xD 1 0x80 0x9F
  else if b < 0xF0 then .lead (b.toNat - 0xE0) 1 0x80 0xBF
  else if b = 0xF0 then .lead 0 2 0x90 0xBF
  else if b < 0xF4 then .lead (b.toNat - 0xF0) 2 0x80 0xBF
  else if b = 0xF4 then .lead 4 2 0x80 0x8F
  else .malformed

/-- A piece of the input: a character, or the bytes of a malformed piece together with the reason. -/
inductive Piece where
  | char (c : Char)
  | malformed (bytes : List UInt8) (reason : String)
  deriving DecidableEq, Repr

namespace Piece

/-- The character a piece is read as. -/
def shown : Piece → Char
  | char c => c
  | malformed _ _ => replacement

end Piece

/-- Reads a byte between characters. -/
def enter (b : UInt8) : List Piece × State :=
  match opening b with
  | .char c => ([.char c], .start)
  | .lead value owed low high => ([], .inside [b] value owed low high)
  | .malformed => ([.malformed [b] "invalid start byte"], .start)

/-- Reads one byte: the pieces it completes, and what the machine holds after it. -/
def step : State → UInt8 → List Piece × State
  | .start, b => enter b
  | .inside seen value owed low high, b =>
    if low ≤ b ∧ b ≤ high then
      let value := value * 64 + (b.toNat - 0x80)
      match owed with
      | 0 => ([.char (Char.ofNat value)], .start)
      | owed + 1 => ([], .inside (seen ++ [b]) value owed 0x80 0xBF)
    else
      let (pieces, state) := enter b
      (.malformed seen "invalid continuation byte" :: pieces, state)

/-- What is left of a character at the end of the bytes. One that is cut off is malformed. -/
def ending : State → List Piece
  | .start => []
  | .inside seen _ _ _ _ => [.malformed seen "unexpected end of data"]

/-- Reads one more byte after a state, with the pieces so far in reverse. -/
def feed (m : List Piece × State) (b : UInt8) : List Piece × State :=
  ((step m.2 b).1.reverse ++ m.1, (step m.2 b).2)

/-- The pieces of the bytes that follow a state. -/
def pieces (s : State) (bytes : List UInt8) : List Piece :=
  let (read, last) := bytes.foldl feed ([], s)
  read.reverse ++ ending last

/-- The text of any bytes. Each malformed piece is read as one replacement character. -/
def decode (bytes : List UInt8) : List Char := (pieces .start bytes).map Piece.shown

/-- `decode`, as a string. -/
def decodeString (bytes : List UInt8) : String := String.ofList (decode bytes)

/-- The first malformed piece of some bytes: where it starts, its bytes, and why it is malformed. -/
structure Fault where
  position : Nat
  bytes : List UInt8
  reason : String
  deriving DecidableEq, Repr

/-- The first fault among pieces that start at a position. -/
def fault? (position : Nat) : List Piece → Option Fault
  | [] => none
  | .char c :: rest => fault? (position + c.utf8Size) rest
  | .malformed bytes reason :: _ => some ⟨position, bytes, reason⟩

/-- The text of well-formed bytes, or the first fault. -/
def decodeStrict (bytes : List UInt8) : Except Fault (List Char) :=
  match fault? 0 (pieces .start bytes) with
  | some f => .error f
  | none => .ok (decode bytes)

/-- The bytes of a text. -/
def encode (cs : List Char) : List UInt8 := cs.flatMap String.utf8EncodeChar

/-- A byte as two hexadecimal digits. -/
def hexByte (b : UInt8) : String :=
  String.ofList [Nat.digitChar (b.toNat / 16), Nat.digitChar (b.toNat % 16)]

namespace Fault

/-- The wording of a fault. -/
def message (f : Fault) : String :=
  match f.bytes with
  | [b] => s!"'utf-8' codec can't decode byte 0x{hexByte b} in position {f.position}: {f.reason}"
  | bs =>
    s!"'utf-8' codec can't decode bytes in position {f.position}-{f.position + bs.length - 1}: {f.reason}"

end Fault

/-! ### Laws -/

/-- The pieces so far only stand before the later ones. -/
theorem foldl_feed (bs : List UInt8) (read : List Piece) (s : State) :
    bs.foldl feed (read, s) =
      ((bs.foldl feed ([], s)).1 ++ read, (bs.foldl feed ([], s)).2) := by
  induction bs generalizing read s with
  | nil => rfl
  | cons b bs ih =>
    rw [List.foldl_cons, List.foldl_cons, feed, feed, ih, ih (_ ++ [])]
    simp

@[simp] theorem pieces_nil (s : State) : pieces s [] = ending s := rfl

@[simp] theorem pieces_cons (s : State) (b : UInt8) (bs : List UInt8) :
    pieces s (b :: bs) = (step s b).1 ++ pieces (step s b).2 bs := by
  simp [pieces, feed, foldl_feed bs (step s b).1.reverse]

@[simp] theorem decode_nil : decode [] = [] := rfl

@[simp] theorem encode_nil : encode [] = [] := rfl

theorem encode_append (cs ds : List Char) : encode (cs ++ ds) = encode cs ++ encode ds :=
  List.flatMap_append

end JanetEmbedding.Utf8
