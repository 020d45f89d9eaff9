import JanetEmbedding.Datum.Basic
import JanetEmbedding.Number.Reading
import JanetEmbedding.Text.Base64
import JanetEmbedding.Text.Case
import JanetEmbedding.Yaml.Scalar
import JanetEmbedding.Yaml.Tag

/-!
# The value of a scalar

The tag of a scalar says how its text is read: as a number, a truth value, a time and so on. A text that
cannot be read like that is an error, and so is a tag that no scalar has.

## Main definitions

* `Yaml.leafOf`: the value of a scalar.
-/

namespace JanetEmbedding.Yaml

open Text (Point)

/-! ### Numbers -/

/-- A number without its underscores. -/
def dropUnderscores (t : Text) : Text := ⟨t.points.filter (· != .char '_')⟩

/-- A number with its sign taken off, and whether it is negative. -/
def splitSign : List Point → Except DataError (Bool × List Point)
  | [] => .error .emptyNumber
  | .char '-' :: ps => .ok (true, ps)
  | .char '+' :: ps => .ok (false, ps)
  | ps => .ok (false, ps)

/-- The parts of a text between colons. -/
def splitColons : List Point → List (List Point)
  | [] => [[]]
  | p :: ps =>
    if p.isChar ':' then [] :: splitColons ps
    else match splitColons ps with
      | [] => [[p]]
      | part :: parts => (p :: part) :: parts

/-- The characters of a number. A surrogate is no part of one, like the mark that stands for it. -/
def numberChars (ps : List Point) : String := String.ofList (ps.map fun p => p.char?.getD '?')

/-- Reads an integer in a base. -/
def readIntegerIn (base : Nat) (ps : List Point) : Except DataError Int :=
  match Number.readInteger base (numberChars ps) with
  | .ok n => .ok n
  | .error .malformed => .error (.notInteger base ⟨ps⟩)
  | .error (.tooLong digits) => .error (.tooManyDigits digits)

/-- The integer of a scalar: in base two, eight, ten or sixteen, or in base sixty with colons. -/
def integerOf (t : Text) : Except DataError Int := do
  let (negative, ps) ← splitSign (dropUnderscores t).points
  let n ← match ps with
    | [.char '0'] => pure 0
    | .char '0' :: .char 'b' :: ds => readIntegerIn 2 ds
    | .char '0' :: .char 'x' :: ds => readIntegerIn 16 ds
    | .char '0' :: _ => readIntegerIn 8 ps
    | [] => throw .emptyNumber
    | _ =>
      if ps.any (·.isChar ':') then do
        let parts ← (splitColons ps).mapM (readIntegerIn 10)
        pure (parts.foldl (fun n d => n * 60 + d) 0)
      else readIntegerIn 10 ps
  return if negative then -n else n

/-- Reads a floating-point number. -/
def readFloat (ps : List Point) : Except DataError Double :=
  match Number.readDouble? (numberChars ps) with
  | some x => .ok x
  | none => .error (.notFloat ⟨ps⟩)

/-- The sum of digits in base sixty, the lowest first, each product and sum rounded. -/
def sexagesimalSum : (power : Nat) → Double → List Double → Except DataError Double
  | _, sum, [] => .ok sum
  | power, sum, d :: ds =>
    match Double.ofInt? (Nat.pow 60 power) with
    | some base => sexagesimalSum (power + 1) (sum.add (d.mul base)) ds
    | none => .error .integerBeyondFloat

/-- The floating-point number of a scalar, in base sixty with colons. -/
def floatOf (t : Text) : Except DataError Double := do
  let (negative, ps) ← splitSign (Text.lower (dropUnderscores t)).points
  let x ←
    if ps = (Text.ofString ".inf").points then pure (.infinite false)
    else if ps = (Text.ofString ".nan").points then pure .nan
    else if ps.any (·.isChar ':') then do
      let parts ← (splitColons ps).mapM readFloat
      sexagesimalSum 0 (.zero false) parts.reverse
    else readFloat ps
  return if negative then -x else x

/-! ### Other scalars -/

/-- The words for truth values. -/
def truths : List (Text × Bool) :=
  [("yes", true), ("no", false), ("true", true), ("false", false), ("on", true), ("off", false)].map
    fun (word, b) => (Text.ofString word, b)

/-- The truth value of a scalar. -/
def truthOf (t : Text) : Except DataError Bool :=
  match truths.lookup (Text.lower t) with
  | some b => .ok b
  | none => .error (.notTruth (Text.lower t))

/-- The bytes of a scalar in base 64. -/
def bytesOf (t : Text) : Except DataError (List UInt8) :=
  match t.toChars?.filter (·.all (·.toNat < 0x80)) with
  | none => .error malformed
  | some cs =>
    match Base64.decode? cs with
    | some bytes => .ok bytes
    | none => .error malformed

/-- The number that the digits of a time stamp stand for. -/
def stampNumber (ds : List Char) : Nat := Number.digitsValue ds

/-- A calendar value, with its fault as a fault of the data. -/
def inCalendar {α : Type} (x : Except Calendar.Fault α) : Except DataError α := x.mapError .calendar

/-- The date or the moment of a scalar. A fraction of a second counts to the microsecond. -/
def stampOf (t : Text) (place : Option Nat) : Except DataError Datum :=
  match t.toChars?.bind fun cs => Tag.readStamp? (Tag.dropFinalLineFeed cs) with
  | none => .error .notTimestamp
  | some stamp => do
    let (year, month, day) := (stampNumber stamp.year, stampNumber stamp.month, stampNumber stamp.day)
    match stamp.clock with
    | none => return .date (← inCalendar (Calendar.Date.make year month day)) place
    | some (hour, minute, second, fraction) =>
      let microsecond := stampNumber ((fraction ++ List.replicate 6 '0').take 6)
      let offset ← match stamp.zone with
        | none => pure none
        | some none => pure (some 0)
        | some (some (negative, hours, minutes)) => do
          let seconds : Int := (stampNumber hours * 60 + stampNumber minutes) * 60
          pure (some (← inCalendar (Calendar.checkOffset (if negative then -seconds else seconds))))
      let date ← inCalendar (Calendar.Date.make year month day)
      let time ← inCalendar
        (Calendar.Time.make (stampNumber hour) (stampNumber minute) (stampNumber second) microsecond
          offset)
      return .moment ⟨date, time⟩ place

/-- Whether a tag is that of a scalar. -/
def Tag.isScalar : Tag → Bool
  | null | bool | int | float | binary | timestamp | text => true
  | _ => false

/-- The value of a scalar that begins at a place, by its tag and its text. -/
def leafOf (place : Nat) (tag : Tag) (t : Text) : Except DataError Datum :=
  match tag with
  | .null => .ok .null
  | .bool => (truthOf t).map .bool
  | .int => (integerOf t).map .int
  | .float => (floatOf t).map .float
  | .binary => (bytesOf t).map .bytes
  | .timestamp => stampOf t place
  | .text => .ok (.text t)
  | _ => .error malformed

end JanetEmbedding.Yaml
