import JanetEmbedding.Config.Basic
import JanetEmbedding.Datum.Error

/-!
# Waiting for a length of time

A caller can block its thread for a length of time, as long as the system can count the nanoseconds in
a word of 64 bits with a sign. A caller that lets others go on while it waits has to know the moment
until which it waits, which is a floating-point number of seconds. Not-a-number is no length of time:
whoever waits for a result does not wait at all then, but the end of a thread cannot be waited for so.

## Main definitions

* `Seconds.blockFault?`: why a thread cannot be blocked for a length of time.
* `Seconds.joinFault?`: why the end of a thread cannot be waited for for a length of time.
* `Seconds.delayFault?`: why there is no moment that is a length of time away.
-/

namespace JanetEmbedding

/-- Why a thread cannot be blocked for a length of time: there are too many nanoseconds in it, of a
whole or of a floating-point number of seconds, or it is none. -/
inductive BlockFault where
  | wholeTooLong
  | realTooLong
  | notNumber
  deriving DecidableEq, Repr

namespace Seconds

/-- The nanoseconds of a second. -/
def nanoseconds : Nat := Nat.pow 10 9

/-- The first count of nanoseconds that does not fit. -/
def countLimit : Nat := Nat.pow 2 63

/-- Why a thread cannot be blocked for a length of time. A floating-point number is multiplied as
such. -/
def blockFault? : Seconds → Option BlockFault
  | whole n => if (countLimit : Int) ≤ n * nanoseconds then some .wholeTooLong else none
  | real x =>
    match x.mul (.ofDecimal false nanoseconds 0) with
    | .infinite false => some .realTooLong
    | .finite false m e _ =>
      let (n, d) := Double.magnitude m e
      if countLimit * d ≤ n then some .realTooLong else none
    | _ => none

/-- Why the end of a thread cannot be waited for for a length of time. -/
def joinFault? : Seconds → Option BlockFault
  | real .nan => some .notNumber
  | t => t.blockFault?

/-- Why there is no moment that is a length of time away. A whole number of seconds is taken as a
floating-point number first. -/
def delayFault? : Seconds → Option DataError
  | whole n => if (Double.ofInt? n).isNone then some .integerBeyondFloat else none
  | real _ => none

end Seconds

end JanetEmbedding
