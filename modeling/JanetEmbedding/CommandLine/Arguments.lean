import JanetEmbedding.CommandLine.Option
import JanetEmbedding.Datum.Error
import JanetEmbedding.Number.Reading

/-!
# Arguments

What a command line asks for. Its words are taken one after the other, so the first fault wins, and
asking for help ends the reading; only words that nothing can be done with are told at the end.

## Main definitions

* `Arguments`: what a command line asks for.
* `Invocation.read`: the reading of a command line.
* `usage`, `helpText`: what is said about the command line.
-/

namespace JanetEmbedding.CommandLine

/-- What an option is given: a value, or none. Two dashes behind an equals sign are no value. -/
inductive Given (α : Type) where
  | value (x : α)
  | nothing

/-- What a command line asks for. -/
structure Arguments where
  /-- the script to run; without one there is a conversation -/
  file : Option Text := none
  /-- whether the value of the script is printed as data -/
  parse : Bool := false
  /-- the format of data -/
  format : Given Format := .value .json
  /-- the configuration file -/
  config : Option (Given Text) := none
  timeout : Option (Given Double) := none
  library : Option Text := none
  /-- whether log records are printed -/
  verbose : Bool := false

/-- What a command line comes to. -/
inductive Invocation where
  | help
  | misused (f : UsageFault)
  | run (a : Arguments)

namespace Arguments

/-- Sets an option that has no value. -/
def switch (a : Arguments) : Opt → Except Invocation Arguments
  | .help => .error .help
  | .parse => .ok { a with parse := true }
  | .verbose => .ok { a with verbose := true }
  | _ => .ok a

/-- Sets an option that has a value. -/
def assign (a : Arguments) (o : Opt) (value : Text) : Except Invocation Arguments :=
  match o with
  | .config => .ok { a with config := some (.value value) }
  | .library => .ok { a with library := some value }
  | .timeout =>
    match value.toString?.bind Number.readDouble? with
    | some t => .ok { a with timeout := some (.value t) }
    | none => .error (.misused (.notNumber value))
  | .format =>
    match value.toString? with
    | some "json" => .ok { a with format := .value .json }
    | some "yaml" => .ok { a with format := .value .yaml }
    | _ => .error (.misused (.notFormat value))
  | _ => .ok a

/-- Sets an option that has a value, but is given none. A library of no name is as good as none. -/
def assignNothing (a : Arguments) : Opt → Arguments
  | .config => { a with config := some .nothing }
  | .library => { a with library := some "" }
  | .timeout => { a with timeout := some .nothing }
  | .format => { a with format := .nothing }
  | _ => a

/-- The options of one letter that are written together, the first of which is known. -/
def letters (o : Opt) : List Text.Point → Except Invocation (List Opt)
  | [] => .ok [o]
  | p :: ps =>
    match Opt.ofSpelling? ⟨[.char '-', p]⟩ with
    | some next => do return o :: (← letters next ps)
    | none => .error (.misused (.needlessValue o ⟨p :: ps⟩))

/-- Sets an option that has no value, or several written together. -/
def switchAll (a : Arguments) (o : Opt) (short : Bool) :
    Option Text → Except Invocation Arguments
  | none => a.switch o
  | some value =>
    if short && !value.isEmpty then do (← letters o value.points).foldlM switch a
    else .error (.misused (.needlessValue o value))

/-- Where the reading of the plain words is. -/
inductive Place where
  /-- There was none yet. -/
  | start
  /-- The last word was the first plain one. -/
  | behindFile
  /-- There were other words behind the first plain one. -/
  | beyond
  deriving DecidableEq, Repr

namespace Place

/-- Where the reading is behind a word that is not plain. -/
def pass : Place → Place
  | start => start
  | _ => beyond

end Place

/-- Takes the words of a command line, one after the other. Those that nothing can be done with are
returned. -/
def takeWords (a : Arguments) (place : Place) (left : List Text) :
    List Word → Except Invocation (Arguments × List Text)
  | [] => .ok (a, left)
  | .plain s :: ws =>
    if place = .start then takeWords { a with file := some s } .behindFile left ws
    else takeWords a .beyond (left ++ [s]) ws
  | .separator :: ws =>
    if place = .beyond then takeWords a .beyond (left ++ [dashes]) ws
    else takeWords a place.pass left ws
  | .unknown s :: ws => takeWords a place.pass (left ++ [s]) ws
  | .option o short value :: ws =>
    if o.hasValue then
      match value, ws with
      | some value, ws =>
        if value = dashes then takeWords (a.assignNothing o) place.pass left ws
        else do takeWords (← a.assign o value) place.pass left ws
      | none, .plain value :: ws => do takeWords (← a.assign o value) place.pass left ws
      | none, _ => .error (.misused (.missingValue o))
    else do takeWords (← a.switchAll o short value) place.pass left ws

end Arguments

namespace Invocation

/-- The reading of a command line. -/
def read (args : List Text) : Invocation :=
  match words args with
  | .error f => misused f
  | .ok ws =>
    match Arguments.takeWords {} .start [] ws with
    | .error i => i
    | .ok (a, []) => run a
    | .ok (_, left) => misused (.unrecognized left)

end Invocation

/-! ### What is said about the command line -/

/-- How the program is used. -/
def usage : String :=
  "usage: janethost [-h] [--parse] [--format \x7bjson,yaml\x7d] [--config CONFIG]\n" ++
  "                 [--timeout TIMEOUT] [--library LIBRARY] [-v]\n" ++
  "                 [file]\n"

/-- The answer to a request for help. -/
def helpText : String :=
  usage ++ "\n" ++
  "Evaluate Janet code on an embedded VM.\n\n" ++
  "positional arguments:\n" ++
  "  file                  script to run; starts a REPL when omitted\n\n" ++
  "options:\n" ++
  "  -h, --help            show this help message and exit\n" ++
  "  --parse               print the script's value as data\n" ++
  "  --format \x7bjson,yaml\x7d  output format for --parse\n" ++
  "  --config CONFIG       YAML, JSON or TOML configuration file\n" ++
  "  --timeout TIMEOUT     per-evaluation timeout in seconds\n" ++
  "  --library LIBRARY     path to the Janet shared library\n" ++
  "  -v, --verbose         log to stderr\n"

/-- What is said about a command line that something is wrong with. -/
def misuseText (f : UsageFault) : Text := usage ++ "janethost: error: " ++ f.message ++ "\n"

end JanetEmbedding.CommandLine
