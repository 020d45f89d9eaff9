import JanetEmbedding.CommandLine.Session

/-!
# The program

A command line is read, the configuration loaded, the interpreter started, and a script or a
conversation run. At the end the interpreter is closed, but an evaluation that does not end is not
waited for any more.

## Main definitions

* `run`: the whole program.
-/

namespace JanetEmbedding.CommandLine

/-- What the program finds when it is started. -/
structure Surroundings where
  files : Files.Tree := []
  environment : Config.Environment := []
  /-- what happens at the terminal -/
  events : List Event := []

/-- The exit status for a command line or a configuration that something is wrong with, and for an
interpreter that does not start. -/
def refusedStatus : Nat := 2

/-- How long the end of the program waits for an evaluation. -/
def closingTime : Seconds := .real (.ofDecimal false 1 0)

/-- The value that an option is given, if it is given one. -/
def Given.value? {α : Type} : Given α → Option α
  | value x => some x
  | nothing => none

/-- Whether an option is given, but no value. -/
def Given.isMissing {α : Type} (given : Option (Given α)) : Bool := given matches some .nothing

/-- What the arguments set. -/
def Arguments.assignments (a : Arguments) : List Config.Assignment :=
  [.timeout ((a.timeout.bind Given.value?).map .real), .library a.library]

/-- The configuration of a program: that of its file and environment, with what the arguments set. -/
def configure (w : Surroundings) (a : Arguments) : Except Config.Failure Config := do
  let c ← Config.load w.files (a.config.bind Given.value?) w.environment
  return c.replacedBy a.assignments

/-- Writes to a stream of the host, which holds it back. -/
def writeHeld (h : Host) (c : Channel) (text : Text) : Host :=
  { h with stdio := h.stdio.apply ⟨c, true, text.terminalBytes⟩ }

/-- Why the program ends before there is anything to evaluate. -/
def refuse (s : Session) : Host.HandleFault → Ending × Session
  | .configuration (.fault f) => reported f.message
  | .configuration (.data e) => (.escaped (.data e), s)
  | .configuration (.undecodable f) => (.escaped (.undecodable f), s)
  | .configuration (.unencodable f) => (.escaped (.unencodable f), s)
  | .configuration .zeroInPath => (.escaped .zeroInPath, s)
  | .start f => if f.kind.isHost then reported f.message else (.escaped (.unstarted f), s)
where
  /-- The end with a report. -/
  reported (message : Text) : Ending × Session :=
    (.exit refusedStatus, s.report ("Error: " ++ message ++ "\n"))

/-- Runs the script of the arguments, or a conversation if there is none. -/
def Session.perform (s : Session) (w : Surroundings) (a : Arguments)
    (yaml : Yaml.Dumper := Yaml.write) : Ending × Session :=
  match a.file.filter (!·.isEmpty) with
  | some file => s.runScript w.files file a.parse a.format w.events yaml
  | none => s.repl w.events

/-- Starts the interpreter, does what the arguments ask for and closes the interpreter, unless there is
something that is still waited for. -/
def Session.start (s : Session) (w : Surroundings) (a : Arguments) (yaml : Yaml.Dumper := Yaml.write) :
    Ending × Host :=
  let (opened, h) := s.host.openRunning (configure w a) .system
  let s := { s with host := h }
  match opened with
  | .error f =>
    let (ending, s) := refuse s f
    (ending, s.detach.host)
  | .ok id =>
    match { s with handle := id }.perform w a yaml with
    | (.waiting, s) => (.waiting, s.printLog.host)
    | (ending, s) =>
      let (_, h) := s.printLog.host.close id (some closingTime)
      (ending, ({ s.printLog with host := h }).detach.host)

/-- Does what the arguments ask for, at a terminal of its own. -/
def runArguments (w : Surroundings) (a : Arguments) (h : Host) (yaml : Yaml.Dumper := Yaml.write) :
    Ending × Host :=
  let s := { Session.attach h a.verbose with timeless := Given.isMissing a.timeout }
  if Given.isMissing a.config then (.escaped .noPath, s.detach.host) else s.start w a yaml

/-- The whole program. An interruption is answered with the farewell. -/
def run (args : List Text) (w : Surroundings) (h : Host) (yaml : Yaml.Dumper := Yaml.write) :
    Ending × Host :=
  match Invocation.read args with
  | .help => (.exit 0, writeHeld h .out helpText)
  | .misused f => (.exit refusedStatus, writeHeld h .err (misuseText f))
  | .run a =>
    match runArguments w a h yaml with
    | (.interrupted, h) => (.exit 0, writeHeld h .out Session.farewell)
    | r => r

end JanetEmbedding.CommandLine
