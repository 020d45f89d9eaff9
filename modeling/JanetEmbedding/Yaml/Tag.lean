import JanetEmbedding.Text.Basic
import JanetEmbedding.Text.Digit

/-!
# Tags

The tag of a node says what kind of value it is. A plain scalar without a tag has one by its form:
the forms of truth values, numbers, times and so on are those of the first version of YAML, in which
`yes` is a truth value and `1:30` a number.

## Main definitions

* `Yaml.Tag`: the tags that have a meaning here.
* `Yaml.Tag.ofPlain`: the tag of a plain scalar.
-/

namespace JanetEmbedding.Yaml

/-- A tag. -/
inductive Tag where
  | null
  | bool
  | int
  | float
  | binary
  | timestamp
  | text
  | sequence
  | mapping
  | set
  /-- a sequence of single entries in order, of which no two should have the same key -/
  | orderedMap
  /-- a sequence of single entries -/
  | pairs
  /-- the key of entries to be merged in -/
  | merge
  /-- the key of the entry that stands for its whole mapping -/
  | value
  | other (name : String)
  deriving DecidableEq, Repr

namespace Tag

/-- What the names of the tags with a meaning start with. -/
def domain : String := "tag:yaml.org,2002:"

/-- The name of a tag within its domain. -/
def shortName : Tag → String
  | null => "null"
  | bool => "bool"
  | int => "int"
  | float => "float"
  | binary => "binary"
  | timestamp => "timestamp"
  | text => "str"
  | sequence => "seq"
  | mapping => "map"
  | set => "set"
  | orderedMap => "omap"
  | pairs => "pairs"
  | merge => "merge"
  | value => "value"
  | other name => name

/-- The tags with a meaning. -/
def known : List Tag :=
  [null, bool, int, float, binary, timestamp, text, sequence, mapping, set, orderedMap, pairs, merge,
    value]

/-- The tag of a full name. -/
def ofName (name : String) : Tag := (known.find? fun t => domain ++ t.shortName == name).getD (other name)

/-! ### The forms of plain scalars -/

/-- The words for truth values. -/
def truthWords : List String :=
  ["yes", "Yes", "YES", "no", "No", "NO", "true", "True", "TRUE", "false", "False", "FALSE", "on",
    "On", "ON", "off", "Off", "OFF"]

/-- The words for nothing. -/
def nullWords : List String := ["", "~", "null", "Null", "NULL"]

/-- A text without its sign. -/
def unsigned : List Char → List Char
  | '+' :: cs => cs
  | '-' :: cs => cs
  | cs => cs

/-- Whether a character is a digit or an underscore. -/
def isSpacedDigit (c : Char) : Bool := Text.isAsciiDigit c || c == '_'

/-- Whether nothing is left, or an exponent with a sign and digits. -/
def isExponent : List Char → Bool
  | [] => true
  | e :: sign :: ds =>
    (e == 'e' || e == 'E') && (sign == '+' || sign == '-') && !ds.isEmpty && ds.all Text.isAsciiDigit
  | _ => false

/-- Whether a text is one or more groups of a colon and a number below sixty. What may follow the
last group is given as a test. -/
def isSexagesimal (ending : List Char → Bool) : List Char → Bool
  | ':' :: a :: b :: cs =>
    (Text.isAsciiDigit a && '0' ≤ a && a ≤ '5' && Text.isAsciiDigit b &&
        (ending cs || isSexagesimal ending cs)) ||
      (Text.isAsciiDigit a && (ending (b :: cs) || isSexagesimal ending (b :: cs)))
  | [':', a] => Text.isAsciiDigit a && ending []
  | _ => false

/-- Whether a text is a point and digits. -/
def isPointed : List Char → Bool
  | '.' :: cs => cs.all isSpacedDigit
  | _ => false

/-- Whether a text has the form of a floating-point number. -/
def isFloat (cs : List Char) : Bool :=
  let body := unsigned cs
  let whole := body.takeWhile isSpacedDigit
  let rest := body.dropWhile isSpacedDigit
  let startsWithDigit := body.head?.any Text.isAsciiDigit
  let decimal := startsWithDigit && match rest with
    | '.' :: rest => isExponent (rest.dropWhile isSpacedDigit)
    | _ => false
  let fraction := match cs with
    | '.' :: d :: rest => Text.isAsciiDigit d && isExponent (rest.dropWhile isSpacedDigit)
    | _ => false
  let sexagesimal := startsWithDigit && !whole.isEmpty && isSexagesimal isPointed rest
  decimal || fraction || sexagesimal || [".inf", ".Inf", ".INF"].contains (String.ofList body) ||
    [".nan", ".NaN", ".NAN"].contains (String.ofList cs)

/-- Whether a text has the form of an integer: in base two, eight, ten, sixteen or sixty. -/
def isInt (cs : List Char) : Bool :=
  match unsigned cs with
  | ['0'] => true
  | '0' :: 'b' :: ds => !ds.isEmpty && ds.all fun c => c == '0' || c == '1' || c == '_'
  | '0' :: 'x' :: ds => !ds.isEmpty && ds.all fun c => (Text.digitValue? 16 c).isSome || c == '_'
  | '0' :: ds => ds.all fun c => (Text.digitValue? 8 c).isSome || c == '_'
  | d :: ds =>
    let rest := ds.dropWhile isSpacedDigit
    Text.isAsciiDigit d && (rest.isEmpty || isSexagesimal List.isEmpty rest)
  | [] => false

/-- The parts of a time stamp, as they are written. -/
structure Stamp where
  year : List Char
  month : List Char
  day : List Char
  /-- the hour, the minute, the second and the digits of its fraction -/
  clock : Option (List Char × List Char × List Char × List Char)
  /-- the offset: its sign, hours and minutes; `none` inside for universal time -/
  zone : Option (Option (Bool × List Char × List Char))

/-- Reads between `least` and `most` digits, as many as there are. -/
def readDigits? (least most : Nat) (cs : List Char) : Option (List Char × List Char) :=
  let ds := (cs.take most).takeWhile Text.isAsciiDigit
  if ds.length < least then none else some (ds, cs.drop ds.length)

/-- Reads one given character. -/
def readChar? (c : Char) : List Char → Option (List Char)
  | d :: cs => if c == d then some cs else none
  | [] => none

/-- Reads an offset from universal time, or nothing, to the end of the text. -/
def readZone? (cs : List Char) : Option (Option (Option (Bool × List Char × List Char))) :=
  match cs.dropWhile fun c => c == ' ' || c == '\t' with
  | [] => if cs.isEmpty then some none else none
  | ['Z'] => some (some none)
  | sign :: rest =>
    if sign == '+' || sign == '-' then do
      let (hours, rest) ← readDigits? 1 2 rest
      if rest.isEmpty then return some (some (sign == '-', hours, []))
      let (minutes, rest) ← readDigits? 2 2 (← readChar? ':' rest)
      if rest.isEmpty then return some (some (sign == '-', hours, minutes)) else none
    else none

/-- Reads a time of day and its offset, to the end of the text. -/
def readClock? (cs : List Char) :
    Option ((List Char × List Char × List Char × List Char) ×
      Option (Option (Bool × List Char × List Char))) := do
  let (hour, cs) ← readDigits? 1 2 cs
  let (minute, cs) ← readDigits? 2 2 (← readChar? ':' cs)
  let (second, cs) ← readDigits? 2 2 (← readChar? ':' cs)
  let (fraction, cs) := match cs with
    | '.' :: cs => (cs.takeWhile Text.isAsciiDigit, cs.dropWhile Text.isAsciiDigit)
    | cs => ([], cs)
  return ((hour, minute, second, fraction), ← readZone? cs)

/-- Reads a time stamp: a date, alone or followed by a time of day. -/
def readStamp? (cs : List Char) : Option Stamp := do
  let (year, cs) ← readDigits? 4 4 cs
  let (month, cs) ← readDigits? 1 2 (← readChar? '-' cs)
  let (day, cs) ← readDigits? 1 2 (← readChar? '-' cs)
  match cs with
  | [] => return ⟨year, month, day, none, none⟩
  | c :: rest =>
    let rest ←
      if c == 'T' || c == 't' then some rest
      else if c == ' ' || c == '\t' then some (rest.dropWhile fun c => c == ' ' || c == '\t')
      else none
    let (clock, zone) ← readClock? rest
    return ⟨year, month, day, some clock, zone⟩

/-- Whether a text has the form of a time stamp. A date alone has two digits for month and day. -/
def isTimestamp (cs : List Char) : Bool :=
  match readStamp? cs with
  | some s => s.clock.isSome || (s.month.length == 2 && s.day.length == 2)
  | none => false

/-- A text without the line feed at its end, if there is one. -/
def dropFinalLineFeed (cs : List Char) : List Char :=
  if cs.getLast? == some '\n' then cs.dropLast else cs

/-- The tag of a plain scalar of some characters. -/
def ofChars (cs : List Char) : Tag :=
  let whole := cs
  let cs := dropFinalLineFeed cs
  let word := String.ofList cs
  if truthWords.contains word then bool
  else if isFloat cs then float
  else if isInt cs then int
  else if word == "<<" then merge
  else if nullWords.contains word && !(word.isEmpty && !whole.isEmpty) then null
  else if isTimestamp cs then timestamp
  else if word == "=" then value
  else text

/-- The tag of a plain scalar. One with a surrogate is text. -/
def ofPlain (t : Text) : Tag := (t.toChars?.map ofChars).getD text

end Tag

end JanetEmbedding.Yaml
