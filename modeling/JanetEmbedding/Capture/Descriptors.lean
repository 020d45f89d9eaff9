import JanetEmbedding.Text.Utf8

/-!
# Descriptors

A process writes through numbered descriptors. Each refers to a file: the terminal that the process
was started on, or one end of a pipe. Two descriptors may refer to the same file, and a descriptor
may be made to refer to another one.

## Main definitions

* `Descriptors`: the open descriptors and what has been written.
* `Descriptors.openPipe`, `Descriptors.duplicate`, `Descriptors.redirect`, `Descriptors.close`: the
  calls of the system.
* `Descriptors.write`: writing.
-/

namespace JanetEmbedding

/-- The two streams that a process writes to. -/
inductive Channel where
  | out
  | err
  deriving DecidableEq, Repr

namespace Channel

/-- The descriptor of a stream. -/
def descriptor : Channel → Nat
  | out => 1
  | err => 2

end Channel

/-- What a descriptor refers to. -/
inductive File where
  /-- what the process reads from -/
  | input
  /-- what the process was started to write to -/
  | terminal (c : Channel)
  | readEnd (pipe : Nat)
  | writeEnd (pipe : Nat)
  deriving DecidableEq, Repr

/-- Why the system refuses a call. -/
inductive SystemFault where
  /-- There is no such descriptor. -/
  | badDescriptor
  /-- No more descriptors are to be had. -/
  | tooMany
  deriving DecidableEq, Repr

namespace SystemFault

/-- The wording of a fault. -/
def message : SystemFault → String
  | badDescriptor => "[Errno 9] Bad file descriptor"
  | tooMany => "[Errno 24] Too many open files"

end SystemFault

/-- The calls that the system is going to refuse: the `n`-th pipe or the `n`-th duplicate from now,
counted from one. -/
structure Refusal where
  pipe : Option Nat := none
  duplicate : Option Nat := none
  deriving DecidableEq, Repr

/-- The open descriptors, and what has been written to each file. -/
structure Descriptors where
  /-- the open descriptors and what they refer to -/
  table : List (Nat × File) := [(0, .input), (1, .terminal .out), (2, .terminal .err)]
  /-- what has been written to each file, the last piece first -/
  written : List (File × List UInt8) := []
  /-- the number of pipes so far -/
  pipes : Nat := 0
  refusal : Refusal := {}

namespace Descriptors

/-- What a descriptor refers to. -/
def file? (d : Descriptors) (fd : Nat) : Option File := d.table.lookup fd

/-- The least number from `n` on that is no open descriptor, if there is one among the next few. -/
def freeFrom (table : List (Nat × File)) : Nat → Nat → Nat
  | 0, n => n
  | fuel + 1, n => if (table.lookup n).isSome then freeFrom table fuel (n + 1) else n

/-- The least number that is no open descriptor. -/
def free (d : Descriptors) : Nat := freeFrom d.table d.table.length 0

/-- Makes a descriptor refer to a file. -/
def assign (d : Descriptors) (fd : Nat) (f : File) : Descriptors :=
  { d with table := (fd, f) :: d.table.filter (·.1 != fd) }

/-- Closes a descriptor. -/
def close (d : Descriptors) (fd : Nat) : Descriptors :=
  { d with table := d.table.filter (·.1 != fd) }

/-- One step nearer to a refusal: whether this call is refused, and which one is after it. -/
def countDown : Option Nat → Bool × Option Nat
  | some 1 => (true, none)
  | some (n + 1) => (false, some n)
  | r => (false, r)

/-- Opens a pipe: the descriptors of its two ends. -/
def openPipe (d : Descriptors) : Except SystemFault ((Nat × Nat) × Descriptors) :=
  let (refused, next) := countDown d.refusal.pipe
  if refused then .error .tooMany
  else
    let d := { d with pipes := d.pipes + 1, refusal := { d.refusal with pipe := next } }
    let readFd := d.free
    let d := d.assign readFd (.readEnd (d.pipes - 1))
    let writeFd := d.free
    .ok ((readFd, writeFd), d.assign writeFd (.writeEnd (d.pipes - 1)))

/-- Opens another descriptor for the file of a descriptor. -/
def duplicate (d : Descriptors) (fd : Int) : Except SystemFault (Nat × Descriptors) :=
  let (refused, next) := countDown d.refusal.duplicate
  if refused then .error .tooMany
  else
    let file? := if fd < 0 then none else d.file? fd.toNat
    match file? with
    | none => .error .badDescriptor
    | some f =>
      let d := { d with refusal := { d.refusal with duplicate := next } }
      .ok (d.free, d.assign d.free f)

/-- Makes a descriptor refer to what another one refers to. -/
def redirect (d : Descriptors) (source target : Nat) : Descriptors :=
  match d.file? source with
  | some f => d.assign target f
  | none => d

/-- Writes to a descriptor. -/
def write (d : Descriptors) (fd : Nat) (bytes : List UInt8) : Descriptors :=
  match d.file? fd with
  | some f => { d with written := (f, bytes) :: d.written }
  | none => d

/-- What has been written to a file. -/
def content (d : Descriptors) (f : File) : List UInt8 :=
  d.written.foldl (fun out (g, bytes) => if g = f then bytes ++ out else out) []

/-- What has been written to a pipe, given a descriptor of its reading end. -/
def readAll (d : Descriptors) (fd : Nat) : List UInt8 :=
  match d.file? fd with
  | some (.readEnd pipe) => d.content (.writeEnd pipe)
  | _ => []

end Descriptors

end JanetEmbedding
