import JanetEmbedding.Number.Double

/-!
# The shortest decimal that reads back

A finite double is written with the fewest decimal digits that identify it: on the grid of `n`-digit
decimals only the two neighbours of the value can be meant, so `n = 1, 2, …` are tried in turn and
the first neighbour that rounds back to the value is taken. If both do, the nearer one is taken, a
tie going to the even digit. The binary expansion itself, which is exact, stands behind the search,
so a result always exists.

## Main definitions

* `Double.Decimal`: digits and a power of ten.
* `Double.shortest`: the shortest decimal of a finite double.
-/

namespace JanetEmbedding.Double

/-- The number `digits · 10 ^ exponent`. -/
structure Decimal where
  digits : Nat
  exponent : Int
  deriving DecidableEq, Repr

namespace Decimal

/-- Whether a decimal is rounded to the double of the given significand and exponent. -/
def readsBack (d : Decimal) (significand : Nat) (exponent : Int) : Bool :=
  match ofDecimal false d.digits d.exponent with
  | .finite _ m e _ => m == significand && e == exponent
  | _ => false

/-- Moves factors of ten from the digits to the exponent, at most `n` of them. -/
def stripZeros : Nat → Decimal → Decimal
  | 0, d => d
  | n + 1, d =>
    if d.digits ≠ 0 ∧ d.digits % 10 = 0 then stripZeros n ⟨d.digits / 10, d.exponent + 1⟩ else d

end Decimal

/-- The greatest `k` with `10 ^ k ≤ n / d`, for positive `n` and `d`. -/
def floorLog10 (n d : Nat) : Int :=
  let atLeast (k : Int) : Bool := d * Nat.pow 10 k.toNat ≤ n * Nat.pow 10 (-k).toNat
  let guess := Int.fdiv (floorLog2 n d * 30103) 100000
  if atLeast (guess + 1) then guess + 1
  else if atLeast guess then guess
  else guess - 1

/-- The neighbours of `n / d` on the grid of multiples of `10 ^ exponent`, the nearer one first; of
two equally near the one with the even digit is first. -/
def neighbours (n d : Nat) (exponent : Int) : Decimal × Decimal :=
  let num := n * Nat.pow 10 (-exponent).toNat
  let den := d * Nat.pow 10 exponent.toNat
  let below := num / den
  let nearest := roundHalfEven num den
  let other := if nearest = below then below + 1 else below
  (⟨nearest, exponent⟩, ⟨other, exponent⟩)

/-- The exact decimal expansion of `significand · 2 ^ exponent`. -/
def expansion (significand : Nat) (exponent : Int) : Decimal :=
  ⟨significand * Nat.pow 2 exponent.toNat * Nat.pow 5 (-exponent).toNat, min exponent 0⟩

/-- Tries the grids of `n`, `n + 1`, … digits, at most `fuel` of them, for a number whose leading
digit stands at the power `lead` of ten. -/
def searchShortest (significand : Nat) (exponent lead : Int) : Nat → Nat → Decimal
  | 0, _ => expansion significand exponent
  | fuel + 1, n =>
    let (num, den) := magnitude significand exponent
    let (near, far) := neighbours num den (lead - n + 1)
    if near.readsBack significand exponent then near
    else if far.readsBack significand exponent then far
    else searchShortest significand exponent lead fuel (n + 1)

/-- The shortest decimal of `significand · 2 ^ exponent` that reads back. Seventeen digits always
suffice. -/
def shortest (significand : Nat) (exponent : Int) : Decimal :=
  if significand = 0 then ⟨0, 0⟩
  else
    let (n, d) := magnitude significand exponent
    (searchShortest significand exponent (floorLog10 n d) 17 1).stripZeros 400

end JanetEmbedding.Double
