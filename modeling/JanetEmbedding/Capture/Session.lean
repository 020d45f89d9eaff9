import JanetEmbedding.Capture.Streams
import JanetEmbedding.Text.Quoted

/-!
# Capturing output

For the time of an evaluation two descriptors are made to refer to pipes, so that all that is written
to them can be read afterwards. What a process holds back is flushed at both ends, before the
descriptors are redirected and before they are restored.

A capture is set up in two steps, since only one at a time can hold the descriptors: the pipes are
opened first, the descriptors redirected when it is its turn. If a step fails, all that has been done
for the capture is undone.

## Main definitions

* `Capture.Pipes`, `Capture.openPipes`: the first step.
* `Capture.Session`, `Capture.redirect`: the second step.
* `Capture.finish`: the end, and the text that was captured.
* `Capture.around`: a capture around a block, which may raise an exception.
-/

namespace JanetEmbedding.Capture

/-- Why a capture cannot be set up. -/
inductive Fault where
  | outPipe (cause : SystemFault)
  | errPipe (cause : SystemFault)
  | redirection (cause : SystemFault)
  deriving DecidableEq, Repr

namespace Fault

/-- The wording of a fault. -/
def message : Fault → String
  | outPipe cause => "failed to create stdout pipe: " ++ cause.message
  | errPipe cause => "failed to create stderr pipe: " ++ cause.message
  | redirection cause => "failed to redirect output: " ++ cause.message

end Fault

/-- The descriptors that a capture redirects. -/
structure Targets where
  out : Int := 1
  err : Int := 2
  deriving DecidableEq, Repr

/-- The descriptors of the ends of two pipes. -/
structure Pipes where
  outRead : Nat
  outWrite : Nat
  errRead : Nat
  errWrite : Nat
  deriving DecidableEq, Repr

/-- A capture that holds its descriptors: each of them, with a duplicate of what it referred to, and
the reading ends of the pipes. -/
structure Session where
  saved : List (Nat × Nat)
  outRead : Nat
  errRead : Nat
  deriving DecidableEq, Repr

/-- The text that was captured. -/
structure Captured where
  stdout : String
  stderr : String
  deriving DecidableEq, Repr

namespace Captured

/-- Captured text as messages show it. -/
def literal (c : Captured) : String :=
  s!"CapturedOutput(stdout={Text.quoted c.stdout}, stderr={Text.quoted c.stderr})"

end Captured

/-- Closes descriptors. -/
def closeAll (d : Descriptors) (fds : List Nat) : Descriptors := fds.foldl Descriptors.close d

/-- Makes descriptors refer to what they referred to, and closes the duplicates. -/
def restore (d : Descriptors) (saved : List (Nat × Nat)) : Descriptors :=
  saved.foldl (fun d (target, duplicate) => (d.redirect duplicate target).close duplicate) d

/-- Opens the pipes of a capture. -/
def openPipes (d : Descriptors) : Except Fault Pipes × Descriptors :=
  match d.openPipe with
  | .error cause => (.error (.outPipe cause), d)
  | .ok ((outRead, outWrite), d') =>
    match d'.openPipe with
    | .error cause => (.error (.errPipe cause), closeAll d' [outRead, outWrite])
    | .ok ((errRead, errWrite), d'') => (.ok ⟨outRead, outWrite, errRead, errWrite⟩, d'')

/-- Redirects descriptors to the ends of pipes, one after the other. What has been saved before a
failure is kept, so that it can be restored. -/
def redirectAll (d : Descriptors) (saved : List (Nat × Nat)) :
    List (Int × Nat) → Option SystemFault × List (Nat × Nat) × Descriptors
  | [] => (none, saved, d)
  | (target, writeEnd) :: rest =>
    match d.duplicate target with
    | .error cause => (some cause, saved, d)
    | .ok (duplicate, d) =>
      redirectAll (d.redirect writeEnd target.toNat) (saved ++ [(target.toNat, duplicate)]) rest

/-- Redirects the descriptors of a capture to its pipes, after flushing. -/
def redirect (t : Targets) (p : Pipes) (s : Stdio) : Except Fault Session × Stdio :=
  let s := s.flushAll
  match redirectAll s.descriptors [] [(t.out, p.outWrite), (t.err, p.errWrite)] with
  | (some cause, saved, d) =>
    (.error (.redirection cause),
      { s with
        descriptors := closeAll (restore d saved) [p.outRead, p.outWrite, p.errRead, p.errWrite] })
  | (none, saved, d) =>
    (.ok ⟨saved, p.outRead, p.errRead⟩,
      { s with descriptors := closeAll d [p.outWrite, p.errWrite] })

/-- Ends a capture: flushes, restores the descriptors and reads the pipes. -/
def finish (c : Session) (s : Stdio) : Captured × Stdio :=
  let s := s.flushAll
  let d := restore s.descriptors c.saved
  (⟨Utf8.decodeString (d.readAll c.outRead), Utf8.decodeString (d.readAll c.errRead)⟩,
    { s with descriptors := closeAll d [c.outRead, c.errRead] })

/-- Sets up a capture, both steps at once. -/
def start (t : Targets) (s : Stdio) : Except Fault Session × Stdio :=
  match openPipes s.descriptors with
  | (.error f, d) => (.error f, { s with descriptors := d })
  | (.ok p, d) => redirect t p { s with descriptors := d }

/-! ### Blocks -/

/-- What a block of the process does at one step: it writes something, or it raises an exception, after
which it does nothing more. -/
inductive Step where
  | write (w : Write)
  | raise (message : Text)
  deriving DecidableEq, Repr

/-- A block, step by step: the exception that it ends with, if it raises one. -/
def perform : List Step → Stdio → Option Text × Stdio
  | [], s => (none, s)
  | .write w :: steps, s => perform steps (s.apply w)
  | .raise message :: _, s => (some message, s)

/-- How a capture around a block ends. -/
inductive Ending where
  /-- The capture could not be set up, and the block has not run. -/
  | refused (f : Fault)
  /-- The block has run. If it has raised an exception, that goes on. -/
  | left (captured : Captured) (raised : Option Text)
  deriving DecidableEq, Repr

/-- A capture around a block, which ends in the same way whether or not the block raises an
exception. -/
def around (t : Targets) (block : List Step) (s : Stdio) : Ending × Stdio :=
  match start t s with
  | (.error f, s) => (.refused f, s)
  | (.ok c, s) =>
    let (raised, s) := perform block s
    let (captured, s) := finish c s
    (.left captured raised, s)

end JanetEmbedding.Capture
