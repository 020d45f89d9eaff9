import JanetEmbedding.CommandLine.Arguments
import JanetEmbedding.Document
import JanetEmbedding.Host.Call
import JanetEmbedding.Text.Blank

/-!
# Sessions

A session evaluates sources for whoever sits at the terminal. An evaluation that outlives its time
keeps the descriptors, so all that the session itself has to say goes through duplicates of them that
were made before.

A conversation evaluates line after line until it is told to end; a script is evaluated once. An evaluation
without a time limit is waited for as long as it takes, which may be for ever.

What happens at a terminal is a list. With a time limit, what stands behind a line happens when that line has
been answered, and a gate that opens earlier stands in front of it. Without one, gates open while the line is
waited for; they are open then, so it does not matter that they stand behind the line for the next one too.

## Main definitions

* `Session`: a session.
* `Session.converse`: a conversation.
* `Session.runScript`: the evaluation of a script.
-/

namespace JanetEmbedding.CommandLine

/-- A session: the host with the handle that evaluates, and the terminal. -/
structure Session where
  host : Host
  handle : Nat := 0
  /-- the duplicates of the descriptors of the terminal -/
  out : Nat
  err : Nat
  /-- whether log records are printed -/
  verbose : Bool := false
  /-- the number of log records that are dealt with -/
  logged : Nat := 0
  /-- whether the time for an evaluation is given as something that is no length of time -/
  timeless : Bool := false

/-- What happens at a terminal, and to evaluations that wait. -/
inductive Event where
  | line (text : Text)
  /-- The conversation is broken off. -/
  | interrupt
  /-- A gate opens at which evaluations wait. -/
  | gateOpens (gate : String)
  deriving DecidableEq, Repr

/-- What goes wrong without being answered. -/
inductive Escape where
  | unopened (f : Files.OpenFault) (path : Text)
  | undecodable (f : Utf8.Fault)
  | unencodable (f : Text.EncodingFault)
  /-- a path with the character zero in it -/
  | zeroInPath
  | data (e : DataError)
  /-- There is no path where there has to be one. -/
  | noPath
  /-- There is no length of time where there has to be one. -/
  | noTime
  /-- The interpreter does not start, and it is no fault of the host's own. -/
  | unstarted (f : Fault)

/-- The wording of what goes wrong. -/
def Escape.message : Escape → Text
  | unopened f path => f.message path
  | undecodable f => f.message
  | unencodable f => f.message
  | zeroInPath => "embedded null byte"
  | data e => e.message
  | noPath => "expected str, bytes or os.PathLike object, not list"
  | noTime => "'<=' not supported between instances of 'list' and 'int'"
  | unstarted f => f.message

/-- How a program ends, if it ends. -/
inductive Ending where
  | exit (status : Nat)
  | interrupted
  | escaped (e : Escape)
  /-- It does not end: it waits for an evaluation, and nothing more happens. -/
  | waiting

namespace Session

/-! ### The terminal -/

/-- A session that has made its duplicates. -/
def attach (h : Host) (verbose : Bool) : Session :=
  let dup (h : Host) (c : Channel) : Nat × Host :=
    match h.stdio.descriptors.duplicate c.descriptor with
    | .ok (fd, d) => (fd, { h with stdio := { h.stdio with descriptors := d } })
    | .error _ => (c.descriptor, h)
  let (out, h) := dup h .out
  let (err, h) := dup h .err
  { host := h, out, err, verbose, logged := h.log.length }

/-- Writes to a descriptor. -/
def write (s : Session) (fd : Nat) (text : Text) : Session :=
  let stdio := s.host.stdio
  { s with
    host := { s.host with
      stdio := { stdio with
        descriptors := stdio.descriptors.write fd text.terminalBytes } } }

/-- Prints the log records that are not dealt with. -/
def printLog (s : Session) : Session :=
  let lines := (s.host.log.drop s.logged).map Log.Record.line
  let s := { s with logged := s.host.log.length }
  if s.verbose then lines.foldl (fun s line => s.write s.err line) s else s

/-- Says something. -/
def say (s : Session) (text : Text) : Session := s.write s.out text

/-- Reports something, behind the log records that were made before. -/
def report (s : Session) (text : Text) : Session := s.printLog.write s.err text

/-- Closes the duplicates. -/
def detach (s : Session) : Session :=
  let s := s.printLog
  let stdio := s.host.stdio
  { s with
    host := { s.host with
      stdio := { stdio with descriptors := (stdio.descriptors.close s.out).close s.err } } }

/-! ### Results -/

/-- The text of a value: display text as it is, data in a format. -/
def valueText (format : Given Format) (v : Rendered) (yaml : Yaml.Dumper := Yaml.write) :
    Except DataError String :=
  match v with
  | .text t => .ok (t ++ "\n")
  | .data x => do
    let t ← match format with
      | .value format => Document.write Nesting.limit (some format.name) true x yaml
      | .nothing => do
        discard (x.toPlain Nesting.limit)
        throw (.unwritableFormat "[]")
    return String.ofList (t.shown.toList.reverse.dropWhile (· == '\n')).reverse ++ "\n"

/-- Shows a result: the text that the evaluation wrote, and then its value or its fault. -/
def showResult (s : Session) (format : Given Format) (r : Result) (yaml : Yaml.Dumper := Yaml.write) :
    Except DataError Unit × Session :=
  let s := if r.stdout = "" then s else s.say r.stdout
  let s := if r.stderr = "" then s else s.report r.stderr
  if !r.ok then (.ok (), s.report (r.formatError ++ "\n"))
  else
    match r.value with
    | none => (.ok (), s)
    | some v =>
      match valueText format v yaml with
      | .ok t => (.ok (), s.say t)
      | .error e => (.error e, s)

/-- The gates that open before a session is broken off, and whether it is. -/
def gatesAhead : List Event → List String × Bool
  | [] => ([], false)
  | .line _ :: events => gatesAhead events
  | .gateOpens gate :: events =>
    let (gates, broken) := gatesAhead events
    (gate :: gates, broken)
  | .interrupt :: _ => ([], true)

/-- Evaluates a source, given what happens next. If a session is broken off while it waits, it stops
waiting. -/
def evaluate (s : Session) (kind : RequestKind) (source : Text) (ahead : List Event) :
    Except Ending Result × Session :=
  if s.timeless then (.error (.escaped .noTime), s)
  else
    let (gates, broken) :=
      if (s.host.patienceOf s.handle none).isSome then ([], false) else gatesAhead ahead
    match s.host.callTask s.handle kind source none gates with
    | (.answered r, h) => (.ok r, { s with host := h })
    | (.unstarted f, h) => (.error (.escaped (.unstarted f)), { s with host := h })
    | (.unable e, h) => (.error (.escaped (.data e)), { s with host := h })
    | (.waiting r, h) =>
      if broken then (.error .interrupted, { s with host := (h.giveUp r).2 })
      else (.error .waiting, { s with host := h })

/-! ### Conversations -/

/-- What a conversation begins with. -/
def banner : String := "janethost REPL\nType 'exit' or press Ctrl+D to quit.\n"

/-- What asks for a line. -/
def prompt : String := "janet> "

/-- What a conversation ends with, unless it is told to end. -/
def farewell : String := "\nExiting.\n"

/-- Evaluates a line and shows the result. -/
def answerLine (s : Session) (line : Text) (ahead : List Event) : Except Ending Unit × Session :=
  match s.evaluate .execute line ahead with
  | (.error ending, s) => (.error ending, s)
  | (.ok r, s) => (.ok (), (s.showResult (.value .json) r).2)

/-- A conversation, from a prompt on. It is over at the end of the input, which is an empty text, or
at a line that tells it to end; blank lines are passed over. -/
def converse (s : Session) : List Event → Ending × Session
  | [] => (.exit 0, s.say farewell)
  | .gateOpens gate :: events =>
    converse { s with host := (s.host.openGate gate).settle } events
  | .interrupt :: _ => (.interrupted, s)
  | .line text :: events =>
    if text.isEmpty then (.exit 0, s.say farewell)
    else
      let line := Text.strip text
      if line.isEmpty then converse (s.say prompt) events
      else if line = "exit" then (.exit 0, s)
      else match s.answerLine line events with
        | (.error ending, s) => (ending, s)
        | (.ok (), s) => converse (s.say prompt) events

/-- A whole conversation. -/
def repl (s : Session) (events : List Event) : Ending × Session :=
  converse ((s.say banner).say prompt) events

/-! ### Scripts -/

/-- Evaluates a script and shows the result. That there is no such file is reported. -/
def runScript (s : Session) (files : Files.Tree) (file : Text) (parse : Bool)
    (format : Given Format) (events : List Event) (yaml : Yaml.Dumper := Yaml.write) : Ending × Session :=
  let path := Files.Path.ofText file
  match files.readText path with
  | .error (.unopened .missing) => (.exit 1, s.report ("Error: file not found: " ++ file ++ "\n"))
  | .error (.unopened f) => (.escaped (.unopened f path.text), s)
  | .error (.undecodable f) => (.escaped (.undecodable f), s)
  | .error (.unencodable f) => (.escaped (.unencodable f), s)
  | .error .zeroInPath => (.escaped .zeroInPath, s)
  | .ok source =>
    match s.evaluate (if parse then .parse else .execute) source events with
    | (.error ending, s) => (ending, s)
    | (.ok r, s) =>
      match s.showResult format r yaml with
      | (.error e, s) => (.escaped (.data e), s)
      | (.ok (), s) => (.exit (if r.ok then 0 else 1), s)

end Session

end JanetEmbedding.CommandLine
