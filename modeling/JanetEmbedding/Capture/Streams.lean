import JanetEmbedding.Capture.Descriptors

/-!
# Streams

The host writes through streams of its own, which hold text back until they are flushed. Whatever
does not go through them is written to a descriptor at once.

## Main definitions

* `Write`: something written.
* `Stdio`: the descriptors and the streams of a process.
* `Stdio.apply`, `Stdio.flushAll`: writing and flushing.
-/

namespace JanetEmbedding

/-- Something that is written: straight to the descriptor of a stream, or to the host's own stream. -/
structure Write where
  channel : Channel
  buffered : Bool
  bytes : List UInt8
  deriving DecidableEq, Repr

/-- The descriptors and the streams of a process. -/
structure Stdio where
  descriptors : Descriptors := {}
  /-- what the streams hold back -/
  heldOut : List UInt8 := []
  heldErr : List UInt8 := []
  /-- whether the streams can be flushed -/
  usableOut : Bool := true
  usableErr : Bool := true

namespace Stdio

/-- What a stream holds back. -/
def held (s : Stdio) : Channel → List UInt8
  | .out => s.heldOut
  | .err => s.heldErr

/-- Sets what a stream holds back. -/
def setHeld (s : Stdio) (c : Channel) (bytes : List UInt8) : Stdio :=
  match c with
  | .out => { s with heldOut := bytes }
  | .err => { s with heldErr := bytes }

/-- Whether a stream can be flushed. -/
def usable (s : Stdio) : Channel → Bool
  | .out => s.usableOut
  | .err => s.usableErr

/-- Writes something. -/
def apply (s : Stdio) (w : Write) : Stdio :=
  if w.buffered then s.setHeld w.channel (s.held w.channel ++ w.bytes)
  else { s with descriptors := s.descriptors.write w.channel.descriptor w.bytes }

/-- Writes several things in order. -/
def applyAll (s : Stdio) (ws : List Write) : Stdio := ws.foldl apply s

/-- Writes what a stream holds back to its descriptor, if the stream can be flushed. -/
def flush (s : Stdio) (c : Channel) : Stdio :=
  if s.usable c && !(s.held c).isEmpty then
    { s with descriptors := s.descriptors.write c.descriptor (s.held c) }.setHeld c []
  else s

/-- Flushes both streams. -/
def flushAll (s : Stdio) : Stdio := (s.flush .out).flush .err

/-- What has reached the terminal. -/
def shown (s : Stdio) (c : Channel) : List UInt8 := s.descriptors.content (.terminal c)

end Stdio

end JanetEmbedding
