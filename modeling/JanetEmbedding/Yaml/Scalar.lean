import JanetEmbedding.Datum.Error
import JanetEmbedding.Text.Digit
import JanetEmbedding.Yaml.Cursor

/-!
# Scalars

How the three forms of a scalar are read: **quoted** ones, in which line breaks are folded and, between
quotation marks, characters are escaped; **plain** ones, which end where something else could begin;
and **block** ones, which are made of whole lines.

Text that has been read is kept in reverse until a scalar is complete. Every loop goes on by at least
one character, so the number of characters left bounds it.

## Main definitions

* `Yaml.quotedScalar`, `Yaml.plainScalar`, `Yaml.blockScalar`.
-/

namespace JanetEmbedding.Yaml

/-- What a malformed document is answered with. -/
abbrev malformed : DataError := .malformed .yaml

/-- Characters read so far, in reverse, and where reading goes on. -/
abbrev Reading := List Char × Cursor

/-- Points read so far, in reverse, and where reading goes on. -/
abbrev PointReading := List Text.Point × Cursor

/-! ### Quoted scalars -/

/-- The character that a character after a backslash stands for. -/
def escaped? : Char → Option Char
  | '0' => some (Char.ofNat 0)
  | 'a' => some '\x07'
  | 'b' => some '\x08'
  | 't' => some '\t'
  | '\t' => some '\t'
  | 'n' => some '\n'
  | 'v' => some '\x0b'
  | 'f' => some '\x0c'
  | 'r' => some '\r'
  | 'e' => some '\x1b'
  | ' ' => some ' '
  | '"' => some '"'
  | '\\' => some '\\'
  | '/' => some '/'
  | 'N' => some '\u0085'
  | '_' => some '\u00a0'
  | 'L' => some '\u2028'
  | 'P' => some '\u2029'
  | _ => none

/-- The number of digits of an escape by number. -/
def escapeWidth? : Char → Option Nat
  | 'x' => some 2
  | 'u' => some 4
  | 'U' => some 8
  | _ => none

/-- The number that hexadecimal digits stand for, if all of them are. -/
def hexValue? (ds : List Char) : Option Nat :=
  ds.foldl (fun n? d => do return (← n?) * 16 + (← Text.digitValue? 16 d)) (some 0)

/-- The point of a number. Two surrogates in a row stay two. -/
def pointOfCode (n : Nat) : Except DataError Text.Point :=
  if 0x80000000 ≤ n then .error .characterNumberTooLarge
  else if 0x110000 ≤ n then .error .noSuchCharacter
  else .ok (.ofCode n)

/-- Whether a character is a space or a tab. -/
def isBlankChar (c : Char) : Bool := c == ' ' || c == '\t'

/-- Reads empty lines and the blanks that lines of a quoted scalar start with. -/
def quotedBreaks : Nat → Reading → Except DataError Reading
  | 0, r => .ok r
  | fuel + 1, (out, c) =>
    if c.isAtSeparator then .error malformed
    else
      let c := c.drop isBlankChar
      match c.lineBreak? with
      | some (b, c) => quotedBreaks fuel (b :: out, c)
      | none => .ok (out, c)

/-- Joins a line of a folded scalar to the next: a single line feed becomes a space, and of several
the first is left out. The breaks after the first are given in reverse. -/
def foldBreaks (first : Char) (breaks out : List Char) : List Char :=
  if first != '\n' then breaks ++ first :: out
  else if breaks.isEmpty then ' ' :: out
  else breaks ++ out

/-- Reads the blanks of a quoted scalar, which stand for themselves unless a line ends in them. -/
def quotedGap : PointReading → Except DataError PointReading
  | (out, c) => do
    let (blanks, c) := c.take isBlankChar
    if c.peek.isNone then .error malformed
    else match c.lineBreak? with
    | some (b, c) => do
      let (breaks, c) ← quotedBreaks (c.rest.length + 1) ([], c)
      return ((foldBreaks b breaks []).map .char ++ out, c)
    | none => return (blanks.reverse.map .char ++ out, c)

/-- Reads what follows a backslash. -/
def quotedEscape : PointReading → Except DataError PointReading
  | (out, c) =>
    match c.peek with
    | none => .error malformed
    | some ch =>
      match escaped? ch, escapeWidth? ch with
      | some d, _ => .ok (.char d :: out, c.advance)
      | none, some width =>
        let c := c.advance
        let digits := c.rest.take width
        match hexValue? digits with
        | some n =>
          if digits.length < width then .error malformed
          else (pointOfCode n).map fun p => (p :: out, c.skip width)
        | none => .error malformed
      | none, none =>
        match c.lineBreak? with
        | some (_, c) => do
          let (breaks, c) ← quotedBreaks (c.rest.length + 1) ([], c)
          return (breaks.map .char ++ out, c)
        | none => .error malformed

/-- Reads the text of a quoted scalar up to a blank, the end of a line or the closing mark. -/
def quotedRun (double : Bool) : Nat → PointReading → Except DataError PointReading
  | 0, r => .ok r
  | fuel + 1, (out, c) =>
    match c.rest with
    | [] => .ok (out, c)
    | ch :: rest =>
      if ch == '\'' && !double then
        if rest.head? == some '\'' then quotedRun double fuel (.char '\'' :: out, c.skip 2)
        else .ok (out, c)
      else if ch == '"' && double then .ok (out, c)
      else if ch == '\\' && double then do
        quotedRun double fuel (← quotedEscape (out, c.advance))
      else if isGap (some ch) then .ok (out, c)
      else quotedRun double fuel (.char ch :: out, c.advance)

/-- Reads the rest of a quoted scalar, its closing mark included. -/
def quotedRest (double : Bool) (mark : Char) : Nat → PointReading → Except DataError PointReading
  | 0, _ => .error malformed
  | fuel + 1, (out, c) => do
    if c.isAt mark then return (out, c.advance)
    else
      let r ← quotedGap (out, c)
      quotedRest double mark fuel (← quotedRun double (r.2.rest.length + 1) r)

/-- Reads a scalar in quotation marks or apostrophes, from its opening mark on. -/
def quotedScalar (double : Bool) (c : Cursor) : Except DataError PointReading := do
  let c := c.advance
  let r ← quotedRun double (c.rest.length + 1) ([], c)
  quotedRest double (if double then '"' else '\'') (r.2.rest.length + 1) r

/-! ### Plain scalars -/

/-- The number of characters up to where a plain scalar has to pause or end, added to a number. -/
def plainLengthFrom (flow : Bool) : Nat → List Char → Nat
  | n, [] => n
  | n, ch :: rest =>
    let colon := ch == ':' && (isGap rest.head? || (flow && rest.head?.any isFlowIndicator))
    if isGap (some ch) || colon || (flow && (ch == '?' || isFlowIndicator ch)) then n
    else plainLengthFrom flow (n + 1) rest

/-- The number of characters up to where a plain scalar has to pause or end. -/
def plainLength (flow : Bool) (cs : List Char) : Nat := plainLengthFrom flow 0 cs

/-- Reads empty lines and the spaces that lines start with; `none` if a document ends there. -/
def plainBreaks : Nat → Reading → Option Reading × Cursor
  | 0, r => (some r, r.2)
  | fuel + 1, (out, c) =>
    let c := c.dropSpaces
    match c.lineBreak? with
    | some (b, c) => if c.isAtSeparator then (none, c) else plainBreaks fuel (b :: out, c)
    | none => (some (out, c), c)

/-- What is read between two pieces of a plain scalar. -/
structure PlainGap where
  /-- what the gap stands for, in reverse; nothing if the scalar ends before it -/
  text : List Char
  /-- whether a line ended -/
  crossed : Bool
  next : Cursor

/-- Reads the spaces and line breaks after a piece of a plain scalar. -/
def plainGap (c : Cursor) : PlainGap :=
  let (spaces, c) := c.take (· == ' ')
  match c.lineBreak? with
  | none => ⟨spaces, false, c⟩
  | some (b, c) =>
    if c.isAtSeparator then ⟨[], true, c⟩
    else match plainBreaks (c.rest.length + 1) ([], c) with
      | (some (breaks, c), _) => ⟨foldBreaks b breaks [], true, c⟩
      | (none, c) => ⟨[], true, c⟩

/-- Reads a plain scalar whose further lines are indented to at least the column `level`. Also tells
whether the scalar ended at the end of a line. -/
def plainPieces (flow : Bool) (level : Nat) : Nat → Reading → Bool → Reading × Bool
  | 0, r, crossed => (r, crossed)
  | fuel + 1, (out, c), crossed =>
    let n := if c.isAt '#' then 0 else plainLength flow c.rest
    if n = 0 then ((out, c), crossed)
    else
      let out := (c.rest.take n).reverse ++ out
      let gap := plainGap (c.skip n)
      if gap.text.isEmpty || gap.next.isAt '#' || (!flow && gap.next.column < level) then
        ((out, gap.next), gap.crossed)
      else
        -- a gap counts only if another piece follows it
        let pieces := if plainLength flow gap.next.rest = 0 then out else gap.text ++ out
        plainPieces flow level fuel (pieces, gap.next) gap.crossed

/-- Reads a plain scalar. -/
def plainScalar (flow : Bool) (level : Nat) (c : Cursor) : Reading × Bool :=
  plainPieces flow level (c.rest.length + 1) ([], c) false

/-! ### Block scalars -/

/-- What becomes of the line breaks at the end of a block scalar. -/
inductive Chomping where
  | strip
  | clip
  | keep
  deriving DecidableEq, Repr

/-- Reads the sign that gives the chomping. -/
def readChomping (c : Cursor) : Option Chomping × Cursor :=
  match c.peek with
  | some '+' => (some .keep, c.advance)
  | some '-' => (some .strip, c.advance)
  | _ => (none, c)

/-- Reads the digit that gives the indentation; a zero is refused. -/
def readIncrement (c : Cursor) : Except DataError (Option Nat × Cursor) :=
  match c.peek.bind (Text.digitValue? 10) with
  | some 0 => .error malformed
  | some n => .ok (some n, c.advance)
  | none => .ok (none, c)

/-- Reads the signs after the indicator of a block scalar, in either order, and the rest of that
line. -/
def blockHeader (c : Cursor) : Except DataError (Chomping × Option Nat × Cursor) := do
  let (first, c) := readChomping c
  let (increment, c) ← readIncrement c
  let (second, c) := if first.isNone && increment.isSome then readChomping c else (none, c)
  unless endsWord c.peek do throw malformed
  let c := c.dropSpaces.dropComment
  unless endsLine c.peek do throw malformed
  let c := match c.lineBreak? with
    | some (_, c) => c
    | none => c
  return ((first <|> second).getD .clip, increment, c)

/-- Skips spaces up to a column. -/
def dropIndent (indent : Nat) (c : Cursor) : Cursor :=
  c.skip (min (c.rest.takeWhile (· == ' ')).length (indent - c.column))

/-- Reads empty lines, which may be indented up to a column. -/
def blockBreaks (indent : Nat) : Nat → Reading → Reading
  | 0, r => r
  | fuel + 1, (out, c) =>
    let c := dropIndent indent c
    match c.lineBreak? with
    | some (b, c) => blockBreaks indent fuel (b :: out, c)
    | none => (out, c)

/-- Reads the empty lines before the first line of a block scalar, and finds the greatest
indentation among them and it. -/
def blockIndentation : Nat → Reading → Nat → Reading × Nat
  | 0, r, indent => (r, indent)
  | fuel + 1, (out, c), indent =>
    let c := c.dropSpaces
    let indent := max indent c.column
    match c.lineBreak? with
    | some (b, c) => blockIndentation fuel (b :: out, c) indent
    | none => ((out, c), indent)

/-- What has been read of a block scalar: its text, the break that ended its last line, and the
empty lines after it. Texts are in reverse. -/
structure BlockText where
  text : List Char
  lineEnd : List Char
  breaks : List Char
  next : Cursor

/-- Whether another line of a block scalar starts at a cursor. -/
def isBlockLine (indent : Nat) (c : Cursor) : Bool := c.column == indent && c.peek.isSome

/-- Reads the lines of a block scalar. In a folded one, a line feed between two lines that do not
start with a blank is a space, or is left out if empty lines follow. -/
def blockLines (folded : Bool) (indent : Nat) : Nat → BlockText → BlockText
  | 0, b => b
  | fuel + 1, b =>
    if !isBlockLine indent b.next then b
    else
      let flush := !(b.next.peek.any isBlankChar)
      let (line, c) := b.next.take (!isBreak ·)
      let text := line.reverse ++ b.breaks ++ b.text
      let (lineEnd, c) := match c.lineBreak? with
        | some (e, c) => ([e], c)
        | none => ([], c)
      let (breaks, c) := blockBreaks indent (c.rest.length + 1) ([], c)
      if isBlockLine indent c then
        let joined := if folded && lineEnd == ['\n'] && flush && !(c.peek.any isBlankChar) then
            if breaks.isEmpty then [' '] else []
          else lineEnd
        blockLines folded indent fuel ⟨joined ++ text, [], breaks, c⟩
      else ⟨text, lineEnd, breaks, c⟩

/-- Reads a block scalar from its indicator on, inside of blocks that hold the columns from `level`
on. -/
def blockScalar (folded : Bool) (level : Nat) (c : Cursor) : Except DataError Reading := do
  let (chomping, increment, c) ← blockHeader c.advance
  let least := max level 1
  let fuel := c.rest.length + 1
  let ((breaks, c), indent) := match increment with
    | none =>
      let (r, deepest) := blockIndentation fuel ([], c) 0
      (r, max least deepest)
    | some n =>
      let indent := least + n - 1
      (blockBreaks indent fuel ([], c), indent)
  let b := blockLines folded indent (c.rest.length + 1) ⟨[], [], breaks, c⟩
  let ending := match chomping with
    | .strip => []
    | .clip => b.lineEnd
    | .keep => b.breaks ++ b.lineEnd
  return (ending ++ b.text, b.next)

end JanetEmbedding.Yaml
