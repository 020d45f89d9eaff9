import JanetEmbedding.Number.Text
import JanetEmbedding.Text.Blank
import JanetEmbedding.Text.Digit

/-!
# Reading numbers

Number texts as people write them: with blanks around them, a sign, digits of any script, and single
underscores between digits.

## Main definitions

* `Number.readDouble?`: a floating-point number, infinity or not-a-number.
* `Number.readInteger`: an integer in a base from two to sixteen.
-/

namespace JanetEmbedding.Number

open Text

/-! ### Characters -/

/-- A text as the characters a number is read from: digits of every script become ASCII digits and
the wide blanks become spaces. A text of ASCII characters is left alone. -/
def plainCharacters (cs : List Char) : List Char :=
  if cs.all (·.toNat < 0x80) then cs
  else cs.map fun c =>
    if c.toNat < 0x7F then c
    else if isBlank c then ' '
    else match decimalDigit? c with
      | some d => Nat.digitChar d
      | none => '?'

/-- Removes the underscores of a number, each of which has to stand between two digits. -/
def dropUnderscores? : (afterDigit : Bool) → List Char → Option (List Char)
  | _, [] => some []
  | afterDigit, '_' :: c :: cs =>
    if afterDigit && isAsciiDigit c then (dropUnderscores? true cs).map (c :: ·) else none
  | _, ['_'] => none
  | _, c :: cs => (dropUnderscores? (isAsciiDigit c) cs).map (c :: ·)

/-- Splits off a sign: whether it is a minus, and what follows. -/
def splitSign : List Char → Bool × List Char
  | '-' :: cs => (true, cs)
  | '+' :: cs => (false, cs)
  | cs => (false, cs)

/-- The number that ASCII digits stand for. -/
def digitsValue (ds : List Char) : Nat := ds.foldl (fun n d => n * 10 + (d.toNat - '0'.toNat)) 0

/-! ### Floating-point numbers -/

/-- Reads an exponent: nothing, or `e`, a sign and digits. -/
def readExponent? : List Char → Option Int
  | [] => some 0
  | e :: cs =>
    let (negative, ds) := splitSign cs
    if (e == 'e' || e == 'E') && !ds.isEmpty && ds.all isAsciiDigit then
      some (if negative then -(digitsValue ds : Int) else digitsValue ds)
    else none

/-- Reads an unsigned decimal number with an optional fraction and exponent, with a digit before or
after the point. -/
def readDecimal? (negative : Bool) (cs : List Char) : Option Double :=
  let whole := cs.takeWhile isAsciiDigit
  let rest := cs.dropWhile isAsciiDigit
  let (fraction, tail) := match rest with
    | '.' :: rest => (rest.takeWhile isAsciiDigit, rest.dropWhile isAsciiDigit)
    | rest => ([], rest)
  if whole.isEmpty && fraction.isEmpty then none
  else (readExponent? tail).map fun exponent =>
    .ofDecimal negative (digitsValue (whole ++ fraction)) (exponent - fraction.length)

/-- Reads a trimmed floating-point number. -/
def readTrimmed? (cs : List Char) : Option Double :=
  let (negative, body) := splitSign cs
  match String.ofList (body.map Char.toLower) with
  | "inf" | "infinity" => some (.infinite negative)
  | "nan" => some .nan
  | _ => readDecimal? negative body

/-- Reads a floating-point number. -/
def readDouble? (s : String) : Option Double :=
  (dropUnderscores? false (trimWith isLayout (plainCharacters s.toList))).bind readTrimmed?

/-- Reads a floating-point number from bytes, which are taken for ASCII characters. -/
def readDoubleBytes? (bytes : List UInt8) : Option Double :=
  (dropUnderscores? false
    (trimWith isLayout (bytes.map fun b => Char.ofNat b.toNat))).bind readTrimmed?

/-! ### Integers -/

/-- Why a text is not read as an integer. -/
inductive IntegerFault where
  /-- It is no integer in the base. -/
  | malformed
  /-- It is in base ten and has too many digits. -/
  | tooLong (digits : Nat)
  deriving DecidableEq, Repr

/-- The value of digits of a base in which an underscore may stand between two digits, and how many
digits there are. -/
def digitRun? (base : Nat) : (afterDigit : Bool) → (value count : Nat) → List Char →
    Option (Nat × Nat)
  | afterDigit, value, count, [] => if afterDigit then some (value, count) else none
  | afterDigit, value, count, c :: cs =>
    if c == '_' then if afterDigit then digitRun? base false value count cs else none
    else match digitValue? base c with
      | some d => digitRun? base true (value * base + d) (count + 1) cs
      | none => none

/-- Drops the mark of a base, such as `0x`, and one underscore after it. -/
def dropBaseMark (base : Nat) (cs : List Char) : List Char :=
  let mark := if base = 16 then 'x' else if base = 8 then 'o' else 'b'
  match cs with
  | '0' :: c :: '_' :: rest => if base ≠ 10 && c.toLower == mark then rest else cs
  | '0' :: c :: rest => if base ≠ 10 && c.toLower == mark then rest else cs
  | _ => cs

/-- The length of the run of digits and underscores at the start, underscores left out. -/
def leadingDigits (cs : List Char) : Nat :=
  ((cs.takeWhile fun c => isAsciiDigit c || c == '_').filter isAsciiDigit).length

/-- Reads an integer in a base. Only base ten has a greatest number of digits. -/
def readInteger (base : Nat) (s : String) : Except IntegerFault Int :=
  let (negative, body) := splitSign (trimWith isLayout (plainCharacters s.toList))
  let body := dropBaseMark base body
  if base = 10 ∧ Double.maxIntegerDigits < leadingDigits body ∧ body.head? ≠ some '_' then
    .error (.tooLong (leadingDigits body))
  else match digitRun? base false 0 0 body with
    | some (value, _) => .ok (if negative then -(value : Int) else value)
    | none => .error .malformed

end JanetEmbedding.Number
