import JanetEmbedding.Evaluation.Outcome

/-!
# Requests

A call that is accepted becomes a request: it is queued, and unless its caller withdraws it in time it
is picked up, evaluated and finished. A request that has been picked up can no longer be withdrawn;
its caller can only stop waiting for it.

## Main definitions

* `Request`: a request, and where it stands.
* `Item`: what a queue holds.
-/

namespace JanetEmbedding

/-- Where a request stands. -/
inductive Progress where
  | queued
  /-- The caller stopped waiting before the request was picked up. -/
  | withdrawn
  | running
  | finished (r : Result)

namespace Progress

/-- The result of a request that is finished. -/
def result? : Progress → Option Result
  | finished r => some r
  | _ => none

/-- Whether nothing more becomes of a request. -/
def isSettled : Progress → Bool
  | withdrawn => true
  | finished _ => true
  | _ => false

end Progress

/-- A request, and where it stands. -/
structure Request where
  kind : RequestKind
  source : Text
  progress : Progress := .queued
  /-- whether the caller stopped waiting while the request was running -/
  abandoned : Bool := false

namespace Request

/-- What a request becomes, and what its caller is told, when the caller stops waiting. A request
that is running goes on; one that is still queued is withdrawn. -/
def giveUp (r : Request) : Result × Request :=
  match r.progress with
  | .queued => (.expired false, { r with progress := .withdrawn })
  | .running => (.expired true, { r with abandoned := true })
  | _ => (.expired false, r)

/-- A request that is finished with a result. -/
def finish (r : Request) (result : Result) : Request := { r with progress := .finished result }

end Request

/-- What a queue holds: requests, and the order to stop. -/
inductive Item where
  | request (id : Nat)
  | stop
  deriving DecidableEq, Repr

end JanetEmbedding
