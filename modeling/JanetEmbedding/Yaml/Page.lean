import JanetEmbedding.Text.Quoted
import JanetEmbedding.Yaml.Style

/-!
# The page that a document is written on

A page is what has been written, together with what decides how to go on: the column, and whether the
line so far is blank or consists of indentation and indicators. Long lines are broken at spaces.

## Main definitions

* `Yaml.Page`: what has been written.
* `Yaml.Page.indicator`, `Yaml.Page.indent`: indicators and new lines.
* `Yaml.Page.plain`, `Yaml.Page.inApostrophes`, `Yaml.Page.inQuotationMarks`, `Yaml.Page.block`: scalars.
-/

namespace JanetEmbedding.Yaml

/-- What has been written, in reverse, and how to go on. -/
structure Page where
  written : List Char := []
  column : Nat := 0
  /-- whether what was written last is blank -/
  blank : Bool := true
  /-- whether the line so far is indentation and indicators only -/
  indented : Bool := true
  /-- whether the document could be read as going on -/
  openEnded : Bool := false
  /-- the places of the nodes with an anchor that have been written -/
  anchored : List Nat := []

namespace Page

/-- The column after which lines are broken. -/
def width : Nat := 80

/-- Writes characters as they are. -/
def put (p : Page) (cs : List Char) : Page :=
  { p with written := cs.reverse ++ p.written, column := p.column + cs.length }

/-- Ends the line. -/
def lineBreak (p : Page) : Page :=
  { p with written := '\n' :: p.written, column := 0, blank := true, indented := true }

/-- Goes to a column on a line of its own, which may be this line if nothing speaks against it. -/
def indent (p : Page) (column : Nat) : Page :=
  let p := if !p.indented || column < p.column || (p.column == column && !p.blank) then p.lineBreak
    else p
  if p.column < column then { p.put (List.replicate (column - p.column) ' ') with blank := true }
  else p

/-- Writes an indicator, after a space unless there is one or none is needed. -/
def indicator (p : Page) (s : String) (spaced blank indented : Bool) : Page :=
  let cs := if p.blank || !spaced then s.toList else ' ' :: s.toList
  { p.put cs with blank, indented := p.indented && indented, openEnded := false }

/-! ### Scalars -/

/-- Goes to a new line in the middle of a scalar. -/
def fold (p : Page) (column : Nat) : Page := { p.indent column with blank := false, indented := false }

/-- Writes the rest of a plain scalar. A single space in a long line becomes a new line. The run that
is pending is in reverse: spaces if `inSpaces`, other characters if not. -/
def plainRest (column : Nat) (split : Bool) : (inSpaces : Bool) → List Char → List Char → Page → Page
  | _, pending, [], p => p.put pending.reverse
  | true, pending, c :: cs, p =>
    if c == ' ' then plainRest column split true (c :: pending) cs p
    else
      let p := if pending.length == 1 && width < p.column && split then p.fold column
        else p.put pending.reverse
      plainRest column split false [c] cs p
  | false, pending, c :: cs, p =>
    if c == ' ' then plainRest column split true [c] cs (p.put pending.reverse)
    else plainRest column split false (c :: pending) cs p

/-- Writes a plain scalar. -/
def plain (p : Page) (column : Nat) (split root : Bool) (text : List Char) : Page :=
  let p := { p with openEnded := p.openEnded || root }
  let p := if p.blank then p else p.put [' ']
  plainRest column split false [] text { p with blank := false, indented := false }

/-- What a run of characters between apostrophes is made of. -/
inductive Run where
  | text
  | spaces
  | breaks
  deriving DecidableEq

/-- The run that a character belongs to. -/
def Run.of (c : Char) : Run := if c == ' ' then .spaces else if isLineEnd c then .breaks else .text

/-- Ends a run between apostrophes, with its characters in reverse. A single space in the middle of a
long line becomes a new line, and each line end is written once more. -/
def endRun (column : Nat) (split middle : Bool) (run : Run) (pending : List Char) (p : Page) : Page :=
  match run with
  | .text => p.put pending.reverse
  | .spaces =>
    if pending.length == 1 && width < p.column && split && middle then p.indent column
    else p.put pending.reverse
  | .breaks => ((pending.foldl (fun p _ => p.lineBreak) p.lineBreak)).indent column

/-- Writes the rest of a scalar between apostrophes. `atStart` tells whether the pending run is the
first one. -/
def apostrophesRest (column : Nat) (split : Bool) :
    (atStart : Bool) → Run → List Char → List Char → Page → Page
  | _, run, pending, [], p => if pending.isEmpty then p else endRun column split false run pending p
  | atStart, run, pending, c :: cs, p =>
    if c == '\'' then
      let p := if pending.isEmpty then p else endRun column split (!atStart) run pending p
      apostrophesRest column split false .text [] cs (p.put ['\'', '\''])
    else if Run.of c = run then apostrophesRest column split atStart run (c :: pending) cs p
    else if pending.isEmpty then apostrophesRest column split atStart (Run.of c) [c] cs p
    else apostrophesRest column split false (Run.of c) [c] cs
      (endRun column split (!atStart) run pending p)

/-- Writes a scalar between apostrophes. An apostrophe in it is written twice. -/
def inApostrophes (p : Page) (column : Nat) (split : Bool) (text : List Char) : Page :=
  (apostrophesRest column split true .text [] text (p.indicator "'" true false false)).indicator "'"
    false false false

/-- A number as hexadecimal digits in upper case. -/
def upperHex (width n : Nat) : List Char := (Text.hexDigits width n).map Char.toUpper

/-- The escape of a number. -/
def numberEscape (n : Nat) : List Char :=
  if n ≤ 0xFF then 'x' :: upperHex 2 n
  else if n ≤ 0xFFFF then 'u' :: upperHex 4 n
  else 'U' :: upperHex 8 n

/-- The escape of a character, behind its backslash. -/
def escapeChar : Char → List Char
  | '\x07' => ['a']
  | '\x08' => ['b']
  | '\t' => ['t']
  | '\n' => ['n']
  | '\x0b' => ['v']
  | '\x0c' => ['f']
  | '\r' => ['r']
  | '\x1b' => ['e']
  | '"' => ['"']
  | '\\' => ['\\']
  | '\u0085' => ['N']
  | '\u00a0' => ['_']
  | '\u2028' => ['L']
  | '\u2029' => ['P']
  | c => if c.toNat = 0 then ['0'] else numberEscape c.toNat

/-- The escape of a point; `none` if it stands for itself. -/
def escape? : Text.Point → Option (List Char)
  | .char c =>
    if c == '"' || c == '\\' || !(' ' ≤ c && c ≤ '~') then some ('\\' :: escapeChar c) else none
  | p => some ('\\' :: numberEscape p.code)

/-- Breaks a line between quotation marks by a backslash. A space that the next line starts with needs
another one. -/
def breakQuoted (p : Page) (column : Nat) (next : Option Text.Point) : Page :=
  let p := (p.put ['\\']).fold column
  if next == some (.char ' ') then p.put ['\\'] else p

/-- Writes the rest of a scalar between quotation marks, with a pending run in reverse. A long line is
broken before a space or after an escape, but not next to either mark. -/
def quotationRest (column : Nat) (split : Bool) :
    (atStart : Bool) → List Char → List Text.Point → Page → Page
  | _, pending, [], p => p.put pending.reverse
  | atStart, pending, x :: xs, p =>
    let breakable := split && !atStart && !xs.isEmpty
    match escape? x with
    | some escape =>
      let p := (p.put pending.reverse).put escape
      let p := if breakable && width + 1 < p.column then p.breakQuoted column xs.head? else p
      quotationRest column split false [] xs p
    | none =>
      let shown := x.char?.toList
      if breakable && (x.isChar ' ' || pending.isEmpty) && width < p.column + pending.length then
        quotationRest column split false shown xs
          ((p.put pending.reverse).breakQuoted column (some x))
      else quotationRest column split false (shown ++ pending) xs p

/-- Writes a scalar between quotation marks. -/
def inQuotationMarks (p : Page) (column : Nat) (split : Bool) (text : Text) : Page :=
  (quotationRest column split true [] text.points (p.indicator "\"" true false false)).indicator "\""
    false false false

/-- Writes the lines of a block scalar. -/
def blockRest (column : Nat) : (atStart : Bool) → List Char → Page → Page
  | true, [], p => p
  | false, [], p => p.lineBreak
  | atStart, c :: cs, p =>
    if c == '\n' then blockRest column true cs p.lineBreak
    else
      let p := if atStart then p.indent column else p
      blockRest column false cs { p with written := c :: p.written }

/-- Writes a block scalar that starts with no blank and ends in a single line feed. -/
def block (p : Page) (column : Nat) (text : List Char) : Page :=
  blockRest column true text (p.indicator "|" true false false).lineBreak

end Page

end JanetEmbedding.Yaml
