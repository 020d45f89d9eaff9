import JanetEmbedding.Text.Digit
import JanetEmbedding.Text.Quoted

/-!
# Options of the command line

A word of the command line is an option, with or without a value attached to it, or a plain word.
Options of one letter may be written together. A long option may be shortened as long as only one
option begins like that.

## Main definitions

* `Opt`: the options and how they are spelled.
* `Word.ofText`: what a word stands for.
* `words`: what the words of a command line stand for.
* `UsageFault`: what is wrong with a command line.
-/

namespace JanetEmbedding.CommandLine

open Text (Point)

/-- The options. -/
inductive Opt where
  | help
  | parse
  | format
  | config
  | timeout
  | library
  | verbose
  deriving DecidableEq, Repr

namespace Opt

/-- All options, in order. -/
def all : List Opt := [help, parse, format, config, timeout, library, verbose]

/-- How an option is spelled. -/
def spellings : Opt → List String
  | help => ["-h", "--help"]
  | parse => ["--parse"]
  | format => ["--format"]
  | config => ["--config"]
  | timeout => ["--timeout"]
  | library => ["--library"]
  | verbose => ["-v", "--verbose"]

/-- Whether an option has a value. None that is spelled with one letter has. -/
def hasValue : Opt → Bool
  | format => true
  | config => true
  | timeout => true
  | library => true
  | _ => false

/-- What an option is called in messages. -/
def label (o : Opt) : String := "/".intercalate o.spellings

/-- All spellings, in order. -/
def spelled : List (String × Opt) := all.flatMap fun o => o.spellings.map (·, o)

/-- The option of a spelling. -/
def ofSpelling? (t : Text) : Option Opt := t.toString?.bind fun s => spelled.lookup s

end Opt

/-- What is wrong with a command line. -/
inductive UsageFault where
  /-- Several options begin like this. -/
  | ambiguous (word : Text) (spellings : List String)
  /-- An option lacks its value. -/
  | missingValue (o : Opt)
  /-- An option that has no value is given one. -/
  | needlessValue (o : Opt) (value : Text)
  | notNumber (value : Text)
  | notFormat (value : Text)
  /-- Words are left over. -/
  | unrecognized (words : List Text)
  deriving DecidableEq, Repr

namespace UsageFault

/-- The wording of a fault. -/
def message : UsageFault → Text
  | ambiguous word spellings =>
    "ambiguous option: " ++ word ++ " could match " ++ ", ".intercalate spellings
  | missingValue o => "argument " ++ o.label ++ ": expected one argument"
  | needlessValue o value =>
    "argument " ++ o.label ++ ": ignored explicit argument " ++ Text.quoted value
  | notNumber value =>
    "argument " ++ Opt.timeout.label ++ ": invalid float value: " ++ Text.quoted value
  | notFormat value =>
    "argument " ++ Opt.format.label ++ ": invalid choice: " ++ Text.quoted value ++
      " (choose from 'json', 'yaml')"
  | unrecognized words => "unrecognized arguments: " ++ Text.intercalate " " words

end UsageFault

/-- What a word of the command line stands for. -/
inductive Word where
  | plain (t : Text)
  /-- Everything behind it is plain. -/
  | separator
  /-- an option, whether it is spelled with one letter, and the value attached to it -/
  | option (o : Opt) (short : Bool) (value : Option Text)
  /-- It looks like an option, but is none. -/
  | unknown (t : Text)
  deriving DecidableEq, Repr

namespace Word

/-- Whether a spelling has one letter. -/
def isShort (spelling : List Point) : Bool := !spelling[1]?.any (·.isChar '-')

/-- The parts of a word before and after its first equals sign, if it has one. -/
def splitValue? (ps : List Point) : Option (List Point × Text) :=
  match ps.span (!·.isChar '=') with
  | (name, _ :: value) => some (name, ⟨value⟩)
  | (_, []) => none

/-- Whether a word is a negative number, which is never an option. -/
def isNegativeNumber (cs : List Char) : Bool :=
  let isDigit (c : Char) : Bool := (Text.decimalDigit? c).isSome
  let cs := if cs.getLast? = some '\n' then cs.dropLast else cs
  match cs with
  | '-' :: cs =>
    match cs.span isDigit with
    | (whole, []) => !whole.isEmpty
    | (_, '.' :: fraction) => !fraction.isEmpty && fraction.all isDigit
    | _ => false
  | _ => false

/-- The spellings that a word may stand for, with the value attached to it. Behind two dashes the
beginning of a spelling is enough; behind one, all after the letter is attached to it. -/
def candidates (ps : List Point) : List (String × Opt × Option Text) :=
  if isShort ps then
    (Opt.spelled.filter fun (spelling, _) => (Text.ofString spelling).points == ps.take 2).map
      fun (spelling, o) => (spelling, o, some ⟨ps.drop 2⟩)
  else
    let (name, value) := match splitValue? ps with
      | some (name, value) => (name, some value)
      | none => (ps, none)
    (Opt.spelled.filter fun (spelling, _) => name.isPrefixOf (Text.ofString spelling).points).map
      fun (spelling, o) => (spelling, o, value)

/-- What a word stands for that is spelled like no option. -/
def ofUnspelled (t : Text) : Except UsageFault Word :=
  match candidates t.points with
  | [(_, o, value)] => .ok (option o (isShort t.points) value)
  | [] =>
    let isPlain := t.toChars?.any isNegativeNumber || t.points.any (·.isChar ' ')
    .ok (if isPlain then plain t else unknown t)
  | several => .error (.ambiguous t (several.map (·.1)))

/-- What a word stands for. -/
def ofText (t : Text) : Except UsageFault Word :=
  match t.points with
  | .char '-' :: _ :: _ =>
    match Opt.ofSpelling? t with
    | some o => .ok (option o (isShort t.points) none)
    | none =>
      match splitValue? t.points with
      | some (name, value) =>
        match Opt.ofSpelling? ⟨name⟩ with
        | some o => .ok (option o (isShort t.points) (some value))
        | none => ofUnspelled t
      | none => ofUnspelled t
  | _ => .ok (plain t)

end Word

/-- What stands between options and words that are no options. -/
def dashes : Text := "--"

/-- What the words of a command line stand for. -/
def words : List Text → Except UsageFault (List Word)
  | [] => .ok []
  | t :: rest =>
    if t = dashes then .ok (.separator :: rest.map .plain)
    else do return (← Word.ofText t) :: (← words rest)

end JanetEmbedding.CommandLine
