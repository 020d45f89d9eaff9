import JanetEmbedding.Number.Shortest

/-!
# The text of a number

A double is written as its shortest decimal: positionally, with a digit on either side of the
point, from `0.0001` up to but not including `10 ^ 16`, and with an exponent outside that range.

## Main definitions

* `Double.Layout`: the decisions of such a format, and `Double.layout`, the ones taken here.
* `Double.text`: the text of a double.
* `Double.plainText`: the text in which a number without a fractional part is a plain integer.
* `Double.integerText`: the text of an integer that is not too long to be written.
-/

namespace JanetEmbedding

namespace Double

/-- The decisions of a decimal format. The **point** of a number is the power of ten just above its
leading digit. -/
structure Layout where
  /-- A number is positional if its point is above this, -/
  below : Int
  /-- and at most this. -/
  above : Int
  /-- What is appended to a positional number without a fractional part. -/
  wholeMark : String
  /-- The least number of digits of an exponent. -/
  exponentWidth : Nat
  nanText : String
  infinityText : String

/-- A number is positional from `0.0001` up to `10 ^ 16`, a whole one ends in `.0`, and an exponent
has a sign and at least two digits. -/
def layout : Layout := ⟨-4, 16, ".0", 2, "nan", "inf"⟩

/-- The decimal digits of a natural number. -/
def decimalDigits (n : Nat) : List Char := Nat.toDigits 10 n

/-- Digits with a point after the first `point` of them, for a point between the two ends. -/
def positional (l : Layout) (digits : List Char) (point : Int) : List Char :=
  if point ≤ 0 then '0' :: '.' :: List.replicate (-point).toNat '0' ++ digits
  else if digits.length ≤ point.toNat then
    digits ++ List.replicate (point.toNat - digits.length) '0' ++ l.wholeMark.toList
  else digits.take point.toNat ++ '.' :: digits.drop point.toNat

/-- Digits with a point after the first one and an exponent. -/
def scientific (l : Layout) (digits : List Char) (point : Int) : List Char :=
  let exponent := point - 1
  let mantissa := match digits with
    | [] => ['0']
    | [d] => [d]
    | d :: ds => d :: '.' :: ds
  let magnitude := decimalDigits exponent.natAbs
  mantissa ++ 'e' :: (if exponent < 0 then '-' else '+') ::
    List.replicate (l.exponentWidth - magnitude.length) '0' ++ magnitude

/-- The text of a decimal. -/
def Decimal.text (l : Layout) (d : Decimal) : List Char :=
  let digits := decimalDigits d.digits
  let point := if d.digits = 0 then 1 else d.exponent + digits.length
  if l.below < point ∧ point ≤ l.above then positional l digits point else scientific l digits point

/-- The text of a double in a format. -/
def textWith (l : Layout) : Double → String
  | .nan => l.nanText
  | .infinite s => (if s then "-" else "") ++ l.infinityText
  | .finite s m e _ => (if s then "-" else "") ++ String.ofList ((shortest m e).text l)

/-- The text of a double. -/
def text (x : Double) : String := textWith layout x

/-- The text of a double in which an integral value is written as a plain integer with all its
digits, zero without a sign. -/
def plainText (x : Double) : String :=
  match x.integral? with
  | some n => toString n
  | none => x.text

/-- The greatest number of digits that an integer is written or read with in base ten. -/
def maxIntegerDigits : Nat := 4300

/-- The text of an integer, or `none` if it has too many digits to be written. -/
def integerText (n : Int) : Option String :=
  let digits := decimalDigits n.natAbs
  if maxIntegerDigits < digits.length then none
  else some (String.ofList (if n < 0 then '-' :: digits else digits))

end Double

end JanetEmbedding
