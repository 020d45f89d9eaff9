/-!
# Binary floating-point numbers of 64 bits

A double is kept as an exact dyadic number, `± significand · 2 ^ exponent`, in its one canonical
form, so that comparing, rounding, printing and reading are statements about natural numbers. No
operation goes through the machine's own floating-point unit.

## Main definitions

* `Double`: not-a-number, the infinities, and the finite doubles in canonical form.
* `Double.ofRatio`: the double nearest to a quotient, a tie going to the even significand.
* `Double.ofDecimal`: the double nearest to `digits · 10 ^ exponent`.
* `Double.integral?`: the integer a double stands for, if it stands for one.
* `Double.add`, `Double.mul`: the correctly rounded sum and product.
-/

namespace JanetEmbedding

/-- A significand and an exponent are **canonical** if the significand has at most 53 bits, and
exactly 53 unless the exponent is already the least one. -/
abbrev Double.Canonical (significand : Nat) (exponent : Int) : Prop :=
  significand < Nat.pow 2 53 ∧ -1074 ≤ exponent ∧ exponent ≤ 971 ∧
    (Nat.pow 2 52 ≤ significand ∨ exponent = -1074)

/-- A binary floating-point number of 64 bits. There is one not-a-number: neither its sign nor its
payload is ever shown. -/
inductive Double where
  /-- not a number -/
  | nan
  /-- an infinity -/
  | infinite (negative : Bool)
  /-- the number `± significand · 2 ^ exponent`; zero has a sign too -/
  | finite (negative : Bool) (significand : Nat) (exponent : Int)
      (canonical : Double.Canonical significand exponent)
  deriving DecidableEq

namespace Double

/-- Zero, of either sign. -/
def zero (negative : Bool) : Double := .finite negative 0 (-1074) (by decide)

instance : Inhabited Double := ⟨zero false⟩

/-- The double with a given significand and exponent. A pair beyond the greatest double is an
infinity. -/
def ofParts (negative : Bool) (significand : Nat) (exponent : Int) : Double :=
  if h : Canonical significand exponent then .finite negative significand exponent h
  else .infinite negative

/-! ### Rounding -/

/-- The quotient `n / d`, rounded to the nearest natural number, a tie to the even one. -/
def roundHalfEven (n d : Nat) : Nat :=
  let q := n / d
  let r := n % d
  if 2 * r < d then q
  else if d < 2 * r then q + 1
  else if q % 2 = 0 then q else q + 1

/-- The greatest `e` with `2 ^ e ≤ n / d`, for positive `n` and `d`. -/
def floorLog2 (n d : Nat) : Int :=
  let e : Int := (n.log2 : Int) - (d.log2 : Int)
  if n * Nat.pow 2 (-e).toNat < d * Nat.pow 2 e.toNat then e - 1 else e

/-- The double nearest to `± n / d` for positive `d`; a tie goes to the even significand, and what
rounds beyond the greatest double is an infinity. -/
def ofRatio (negative : Bool) (n d : Nat) : Double :=
  if n = 0 then zero negative
  else
    let e := max (floorLog2 n d - 52) (-1074)
    let q := roundHalfEven (n * Nat.pow 2 (-e).toNat) (d * Nat.pow 2 e.toNat)
    if q = Nat.pow 2 53 then ofParts negative (Nat.pow 2 52) (e + 1) else ofParts negative q e

/-- The double nearest to `± digits · 10 ^ exponent`. Magnitudes far outside the range of a double
are settled by the number of digits alone. -/
def ofDecimal (negative : Bool) (digits : Nat) (exponent : Int) : Double :=
  if digits = 0 then zero negative
  else
    let magnitude : Int := (digits.log2 * 30103 / 100000 : Nat) + exponent
    if 400 < magnitude then .infinite negative
    else if magnitude < -400 then zero negative
    else ofRatio negative (digits * Nat.pow 10 exponent.toNat) (Nat.pow 10 (-exponent).toNat)

/-- The double nearest to an integer, or `none` if it lies beyond the greatest double. -/
def ofInt? (n : Int) : Option Double :=
  match ofRatio (n < 0) n.natAbs 1 with
  | .infinite _ => none
  | x => some x

/-! ### Parts and tests -/

/-- Whether a double is at most zero; not-a-number is not. -/
def isNonPositive : Double → Bool
  | .nan => false
  | .infinite s => s
  | .finite s m _ _ => s || m == 0

/-- The double with the opposite sign. -/
def neg : Double → Double
  | .nan => .nan
  | .infinite s => .infinite (!s)
  | .finite s m e h => .finite (!s) m e h

instance : Neg Double := ⟨neg⟩

/-- The absolute value of a finite double as a quotient with a positive denominator. -/
def magnitude (significand : Nat) (exponent : Int) : Nat × Nat :=
  (significand * Nat.pow 2 exponent.toNat, Nat.pow 2 (-exponent).toNat)

/-- The integer that a double stands for, if it is finite and has no fractional part. -/
def integral? : Double → Option Int
  | .finite s m e _ =>
    let (n, d) := magnitude m e
    if n % d = 0 then some (if s then -(n / d : Nat) else (n / d : Nat)) else none
  | _ => none

/-- Whether two doubles are equal as numbers: the two zeros are, and not-a-number equals nothing. -/
def sameNumber : Double → Double → Bool
  | .infinite s, .infinite t => s == t
  | .finite s m e _, .finite t n f _ => (m == 0 && n == 0) || (s == t && m == n && e == f)
  | _, _ => false

/-! ### Arithmetic -/

/-- A finite double as the numerator of a fraction whose denominator is `2 ^ 1074`. -/
private def scaled (negative : Bool) (significand : Nat) (exponent : Int) : Int :=
  let n : Int := significand * Nat.pow 2 (exponent + 1074).toNat
  if negative then -n else n

/-- The correctly rounded sum. An exact zero sum is positive unless both summands are negative
zeros. -/
def add : Double → Double → Double
  | .nan, _ => .nan
  | _, .nan => .nan
  | .infinite s, .infinite t => if s = t then .infinite s else .nan
  | .infinite s, _ => .infinite s
  | _, .infinite t => .infinite t
  | .finite s m e _, .finite t n f _ =>
    let sum := scaled s m e + scaled t n f
    if sum = 0 then zero (s && t) else ofRatio (sum < 0) sum.natAbs (Nat.pow 2 1074)

/-- The correctly rounded product. -/
def mul : Double → Double → Double
  | .nan, _ => .nan
  | _, .nan => .nan
  | .infinite s, .infinite t => .infinite (s != t)
  | .infinite s, .finite t n _ _ => if n = 0 then .nan else .infinite (s != t)
  | .finite s m _ _, .infinite t => if m = 0 then .nan else .infinite (s != t)
  | .finite s m e _, .finite t n f _ =>
    ofRatio (s != t) (m * n * Nat.pow 2 (e + f).toNat) (Nat.pow 2 (-(e + f)).toNat)

end Double

end JanetEmbedding
