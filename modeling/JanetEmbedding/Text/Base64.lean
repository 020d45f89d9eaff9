import JanetEmbedding.Text.Utf8

/-!
# Base 64

Bytes as text in an alphabet of sixty-four characters, three bytes in four characters, the last group
filled up with equals signs.

## Main definitions

* `Base64.encode`: the text of bytes, in lines.
* `Base64.decode?`: the bytes of a text, in which other characters are passed over.
-/

namespace JanetEmbedding.Base64

/-- The alphabet. -/
def alphabet : List Char :=
  "ABCDEFGHIJKLMNOPQRSTUVWXYZabcdefghijklmnopqrstuvwxyz0123456789+/".toList

/-- The character of a number below sixty-four. -/
def char (n : Nat) : Char := alphabet.getD n '='

/-- The number of a character. -/
def value? (c : Char) : Option Nat := alphabet.findIdx? (· == c)

/-- The characters of some bytes, without line ends. -/
def groups : List UInt8 → List Char
  | a :: b :: c :: rest =>
    let n := a.toNat * 65536 + b.toNat * 256 + c.toNat
    char (n / 262144) :: char (n / 4096 % 64) :: char (n / 64 % 64) :: char (n % 64) :: groups rest
  | [a, b] =>
    let n := a.toNat * 65536 + b.toNat * 256
    [char (n / 262144), char (n / 4096 % 64), char (n / 64 % 64), '=']
  | [a] =>
    let n := a.toNat * 65536
    [char (n / 262144), char (n / 4096 % 64), '=', '=']
  | [] => []

/-- The number of bytes that a line holds. -/
def lineBytes : Nat := 57

/-- The lines of some bytes, each ended by a line feed. -/
def lines : Nat → List UInt8 → List Char
  | 0, _ => []
  | _, [] => []
  | fuel + 1, bytes =>
    groups (bytes.take lineBytes) ++ '\n' :: lines fuel (bytes.drop lineBytes)

/-- The text of bytes, in lines of at most seventy-six characters, each ended by a line feed. -/
def encode (bytes : List UInt8) : String := String.ofList (lines bytes.length bytes)

/-- Reads characters into bytes. The state is the number of characters of the group so far, the bits
left over from the last one, and the number of equals signs in a row. A group of two or more
characters that has been filled up ends the text. -/
def bytesFrom : (count left pads : Nat) → List Char → Option (List UInt8)
  | count, _, _, [] => if count = 0 then some [] else none
  | count, left, pads, c :: cs =>
    if c == '=' then
      if 2 ≤ count then
        if 4 ≤ count + pads + 1 then some [] else bytesFrom count left (pads + 1) cs
      else bytesFrom count left pads cs
    else match value? c with
      | none => bytesFrom count left pads cs
      | some v =>
        match count with
        | 0 => bytesFrom 1 v 0 cs
        | 1 => (bytesFrom 2 (v % 16) 0 cs).map (UInt8.ofNat (left * 4 + v / 16) :: ·)
        | 2 => (bytesFrom 3 (v % 4) 0 cs).map (UInt8.ofNat (left * 16 + v / 4) :: ·)
        | _ => (bytesFrom 0 0 0 cs).map (UInt8.ofNat (left * 64 + v) :: ·)

/-- The bytes of a text, or `none` if its last group is not complete. -/
def decode? (cs : List Char) : Option (List UInt8) := bytesFrom 0 0 0 cs

end JanetEmbedding.Base64
