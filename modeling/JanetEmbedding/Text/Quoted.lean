import JanetEmbedding.Text.Basic
import JanetEmbedding.Text.Printable

/-!
# Quoted text

A text in quotes, as messages show it: between apostrophes, or between quotation marks if it holds an
apostrophe and no quotation mark. The enclosing mark and the backslash are escaped, and every
character that is not printable is written as an escape of its number, as is every surrogate.
-/

namespace JanetEmbedding.Text

/-- The low `width` hexadecimal digits of a number. -/
def hexDigits (width n : Nat) : List Char :=
  let digits := Nat.toDigits 16 n
  List.replicate (width - digits.length) '0' ++ digits

/-- The mark that characters are put between, given whether a character is among them. -/
def quoteMark (holds : Char → Bool) : Char := if holds '\'' && !holds '"' then '"' else '\''

/-- The escape of a number, as short as the number allows. -/
def numberEscape (n : Nat) : List Char :=
  if n ≤ 0xFF then '\\' :: 'x' :: hexDigits 2 n
  else if n ≤ 0xFFFF then '\\' :: 'u' :: hexDigits 4 n
  else '\\' :: 'U' :: hexDigits 8 n

/-- One character between the marks `mark`. -/
def quoteChar (mark c : Char) : List Char :=
  if c == mark || c == '\\' then ['\\', c]
  else match c with
    | '\n' => ['\\', 'n']
    | '\r' => ['\\', 'r']
    | '\t' => ['\\', 't']
    | c => if isPrintable c then [c] else numberEscape c.toNat

/-- One point between the marks `mark`. -/
def quotePoint (mark : Char) : Point → List Char
  | .char c => quoteChar mark c
  | p => numberEscape p.code

/-- A text in quotes. -/
def quoted (t : Text) : String :=
  let mark := quoteMark fun c => t.points.any (·.isChar c)
  String.ofList (mark :: t.points.flatMap (quotePoint mark) ++ [mark])

/-- Bytes in quotes: each as the ASCII character it is, or as an escape of its number. -/
def quotedBytes (bytes : List UInt8) : String :=
  let mark := quoteMark fun c => bytes.any (·.toNat == c.toNat)
  let quoteByte (b : UInt8) : List Char :=
    if b.toNat < 0x7F then quoteChar mark (Char.ofNat b.toNat) else numberEscape b.toNat
  String.ofList ('b' :: mark :: bytes.flatMap quoteByte ++ [mark])

end JanetEmbedding.Text
