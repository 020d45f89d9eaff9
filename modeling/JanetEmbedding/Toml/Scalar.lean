import JanetEmbedding.Datum.Basic
import JanetEmbedding.Datum.Error
import JanetEmbedding.Number.Reading

/-!
# TOML scalars

Texts, numbers, dates and times. Texts are read from the points of a document, since a surrogate may
stand in them. All other values are made of a few characters, and are read from those that stand in a
row. Every reader gives what it has read and what follows it.

## Main definitions

* `Toml.readBasic`, `Toml.readLiteral`, `Toml.readLongLiteral`: texts.
* `Toml.decimal?`, `Toml.date?`, `Toml.clock?`: where such a value stands.
* `Toml.readScalar`: a value that is neither an array nor a table.
-/

namespace JanetEmbedding.Toml

open Text (Point)

/-- What a malformed document is answered with. -/
abbrev malformed : DataError := .malformed .toml

/-- What has been read, and the points after it. -/
abbrev Parsed (α : Type) := α × List Point

/-- What has been read, and the characters after it. -/
abbrev Split (α : Type) := α × List Char

/-- Whether a point is a space or a tab. -/
def isBlank (p : Point) : Bool := p.isChar ' ' || p.isChar '\t'

/-- Whether a point is a line feed. -/
def isLineEnd (p : Point) : Bool := p.isChar '\n'

/-- Whether a character is a control character other than the tab. -/
def isControl (c : Char) : Bool := (c.toNat < 0x20 && c != '\t') || c.toNat == 0x7F

/-- Whether a point may not stand on a line. -/
def isIllegal (p : Point) : Bool := p.char?.any isControl

/-- Skips spaces and tabs. -/
def dropBlanks (ps : List Point) : List Point := ps.dropWhile isBlank

/-! ### Texts -/

/-- The character that a letter after a backslash stands for. -/
def escaped? : Char → Option Char
  | 'b' => some '\x08'
  | 't' => some '\t'
  | 'n' => some '\n'
  | 'f' => some '\x0c'
  | 'r' => some '\r'
  | '"' => some '"'
  | '\\' => some '\\'
  | _ => none

/-- The character whose number is written in exactly `width` hexadecimal digits. -/
def readNumbered (width : Nat) (ps : List Point) : Except DataError (Parsed Char) :=
  let digits := ps.take width
  let n? : Option Nat :=
    digits.foldl (fun n? p => do return (← n?) * 16 + (← p.char?.bind (Text.digitValue? 16))) (some 0)
  match n? with
  | some n =>
    if h : digits.length = width ∧ n.isValidChar then .ok (Char.ofNatAux n h.2, ps.drop width)
    else .error malformed
  | none => .error malformed

/-- Skips a line end that a backslash takes away, with the blanks around it. -/
def dropLineEnd (ps : List Point) : Except DataError (List Point) :=
  match dropBlanks ps with
  | [] => .ok []
  | p :: rest =>
    if isLineEnd p then .ok (rest.dropWhile fun q => isBlank q || isLineEnd q) else .error malformed

/-- Reads the rest of a text between quotation marks, which are three in a row for a long one. Text so
far is in reverse. -/
def basicRest (long : Bool) : Nat → List Point → List Point → Except DataError (Parsed Text)
  | 0, _, _ => .error malformed
  | fuel + 1, out, ps =>
    match ps with
    | [] => .error malformed
    | .char '"' :: rest =>
      if !long then .ok (⟨out.reverse⟩, rest)
      else match rest with
        | .char '"' :: .char '"' :: rest => .ok (⟨out.reverse⟩, rest)
        | _ => basicRest long fuel (.char '"' :: out) rest
    | .char '\\' :: rest =>
      match rest with
      | [] => .error malformed
      | .surrogate _ :: _ => .error malformed
      | .char c :: after =>
        if long && (isBlank (.char c) || c == '\n') then do
          basicRest long fuel out (← dropLineEnd rest)
        else if c == 'u' || c == 'U' then do
          let (d, after) ← readNumbered (if c == 'u' then 4 else 8) after
          basicRest long fuel (.char d :: out) after
        else match escaped? c with
          | some d => basicRest long fuel (.char d :: out) after
          | none => .error malformed
    | p :: rest =>
      if isIllegal p && !(long && isLineEnd p) then .error malformed
      else basicRest long fuel (p :: out) rest

/-- Reads a text between quotation marks after the first of them. -/
def readBasic (ps : List Point) : Except DataError (Parsed Text) := basicRest false (ps.length + 1) [] ps

/-- Reads a text between apostrophes after the first of them. -/
def readLiteral (ps : List Point) : Except DataError (Parsed Text) :=
  let points := ps.takeWhile (!·.isChar '\'')
  match ps.dropWhile (!·.isChar '\'') with
  | _ :: rest => if points.any isIllegal then .error malformed else .ok (⟨points⟩, rest)
  | [] => .error malformed

/-- Reads the rest of a text between three apostrophes. Text so far is in reverse. -/
def longLiteralRest (out : List Point) : List Point → Except DataError (Parsed Text)
  | .char '\'' :: .char '\'' :: .char '\'' :: rest => .ok (⟨out.reverse⟩, rest)
  | p :: rest =>
    if isIllegal p && !isLineEnd p then .error malformed else longLiteralRest (p :: out) rest
  | [] => .error malformed

/-- Reads a text between three apostrophes after them. -/
def readLongLiteral (ps : List Point) : Except DataError (Parsed Text) := longLiteralRest [] ps

/-- Drops the line end that a long text may start with. -/
def dropFirstLineEnd : List Point → List Point
  | .char '\n' :: ps => ps
  | ps => ps

/-- Adds the one or two marks that may stand right before the closing ones to a long text. -/
def addMarks (mark : Char) : Parsed Text → Parsed Text
  | (text, p :: q :: rest) =>
    if p.isChar mark && q.isChar mark then (text ++ Text.ofChars [mark, mark], rest)
    else if p.isChar mark then (text ++ Text.ofChars [mark], q :: rest)
    else (text, p :: q :: rest)
  | (text, [p]) => if p.isChar mark then (text ++ Text.ofChars [mark], []) else (text, [p])
  | (text, []) => (text, [])

/-- Reads a text, if one stands here. -/
def readText? : List Point → Option (Except DataError (Parsed Text))
  | .char '"' :: .char '"' :: .char '"' :: ps =>
    let ps := dropFirstLineEnd ps
    some ((basicRest true (ps.length + 1) [] ps).map (addMarks '"'))
  | .char '"' :: ps => some (readBasic ps)
  | .char '\'' :: .char '\'' :: .char '\'' :: ps =>
    some ((readLongLiteral (dropFirstLineEnd ps)).map (addMarks '\''))
  | .char '\'' :: ps => some (readLiteral ps)
  | _ => none

/-! ### Numbers -/

/-- Splits off digits, between which single underscores may stand. -/
def spacedDigits (p : Char → Bool) : List Char → List Char × List Char
  | '_' :: c :: cs =>
    if p c then
      let (ds, rest) := spacedDigits p cs
      ('_' :: c :: ds, rest)
    else ([], '_' :: c :: cs)
  | c :: cs =>
    if p c then
      let (ds, rest) := spacedDigits p cs
      (c :: ds, rest)
    else ([], c :: cs)
  | [] => ([], [])

/-- Splits off digits of which the first is no underscore, if there are any. -/
def digits? (p : Char → Bool) (cs : List Char) : Option (List Char × List Char) :=
  if cs.head?.any p then some (spacedDigits p cs) else none

/-- Whether a character is a digit of a base. -/
def isDigitOf (base : Nat) (c : Char) : Bool := (Text.digitValue? base c).isSome

/-- The value of digits of a base, underscores left out. -/
def digitsValue (base : Nat) (ds : List Char) : Nat :=
  ds.foldl (fun n d => match Text.digitValue? base d with
    | some v => n * base + v
    | none => n) 0

/-- Splits off an integer in base two, eight or sixteen. -/
def basedInteger? : List Char → Option (Nat × List Char)
  | '0' :: mark :: cs => do
    let base ← match mark with
      | 'x' => some 16
      | 'o' => some 8
      | 'b' => some 2
      | _ => none
    let (ds, rest) ← digits? (isDigitOf base) cs
    return (digitsValue base ds, rest)
  | _ => none

/-- Splits off a sign. -/
def splitSign : List Char → List Char × List Char
  | '+' :: cs => (['+'], cs)
  | '-' :: cs => (['-'], cs)
  | cs => ([], cs)

/-- Splits off a fraction, or nothing. -/
def splitFraction (cs : List Char) : List Char × List Char :=
  match cs with
  | '.' :: rest =>
    match digits? Text.isAsciiDigit rest with
    | some (ds, rest) => ('.' :: ds, rest)
    | none => ([], cs)
  | _ => ([], cs)

/-- Splits off an exponent, or nothing. -/
def splitExponent (cs : List Char) : List Char × List Char :=
  match cs with
  | c :: rest =>
    let (sign, rest) := splitSign rest
    match digits? Text.isAsciiDigit rest with
    | some (ds, rest) => if c == 'e' || c == 'E' then (c :: sign ++ ds, rest) else ([], cs)
    | none => ([], cs)
  | [] => ([], cs)

/-- Reads a number in base ten, if one stands here. Its digits do not start with a needless zero. -/
def decimal? (cs : List Char) : Option (Except DataError (Split Datum)) := do
  let (sign, body) := splitSign cs
  let (whole, rest) ← match body with
    | '0' :: rest => some (['0'], rest)
    | _ => digits? Text.isAsciiDigit body
  let (fraction, rest) := splitFraction rest
  let (exponent, rest) := splitExponent rest
  if fraction.isEmpty && exponent.isEmpty then
    let ds := whole.filter (· != '_')
    if Double.maxIntegerDigits < ds.length then return .error (.tooManyDigits ds.length)
    let n := Number.digitsValue ds
    return .ok (.int (if sign = ['-'] then -(n : Int) else n), rest)
  else match Number.readDouble? (String.ofList (sign ++ whole ++ fraction ++ exponent)) with
    | some x => return .ok (.float x, rest)
    | none => return .error malformed

/-! ### Dates and times -/

/-- Splits off `n` digits. -/
def fixedDigits? (n : Nat) (cs : List Char) : Option (Nat × List Char) :=
  let ds := cs.take n
  if ds.length = n && ds.all Text.isAsciiDigit then some (Number.digitsValue ds, cs.drop n) else none

/-- Splits off a given character. -/
def char? (c : Char) : List Char → Option (List Char)
  | d :: cs => if c == d then some cs else none
  | [] => none

/-- A value that satisfies a test. -/
def guard? {α : Type} (p : α → Bool) (r : α × List Char) : Option (α × List Char) :=
  if p r.1 then some r else none

/-- Splits off a fraction of a second, in microseconds. Further digits are left out. -/
def splitMicroseconds (cs : List Char) : Nat × List Char :=
  match cs with
  | '.' :: rest =>
    let ds := rest.takeWhile Text.isAsciiDigit
    if ds.isEmpty then (0, cs)
    else (Number.digitsValue ((ds ++ List.replicate 6 '0').take 6), rest.drop ds.length)
  | _ => (0, cs)

/-- Splits off hours and minutes. -/
def hourMinute? (cs : List Char) : Option ((Nat × Nat) × List Char) := do
  let (hour, cs) ← (fixedDigits? 2 cs).bind (guard? (· < 24))
  let (minute, cs) ← (fixedDigits? 2 (← char? ':' cs)).bind (guard? (· < 60))
  return ((hour, minute), cs)

/-- Splits off a time of day. -/
def clock? (cs : List Char) : Option (Calendar.Time × List Char) := do
  let ((hour, minute), cs) ← hourMinute? cs
  let (second, cs) ← (fixedDigits? 2 (← char? ':' cs)).bind (guard? (· < 60))
  let (microsecond, cs) := splitMicroseconds cs
  return (⟨hour, minute, second, microsecond, none⟩, cs)

/-- Splits off an offset from universal time in seconds, or nothing. -/
def splitOffset (cs : List Char) : Option Int × List Char :=
  match cs with
  | c :: rest =>
    if c == 'Z' || c == 'z' then (some 0, rest)
    else if c == '+' || c == '-' then
      match hourMinute? rest with
      | some ((hour, minute), rest) =>
        let seconds : Int := (hour * 60 + minute) * 60
        (some (if c == '-' then -seconds else seconds), rest)
      | none => (none, cs)
    else (none, cs)
  | [] => (none, cs)

/-- Splits off the digits of a date, with a month and a day that some month has. -/
def date? (cs : List Char) : Option ((Nat × Nat × Nat) × List Char) := do
  let (year, cs) ← fixedDigits? 4 cs
  let (month, cs) ← (fixedDigits? 2 (← char? '-' cs)).bind (guard? fun n => 1 ≤ n && n ≤ 12)
  let (day, cs) ← (fixedDigits? 2 (← char? '-' cs)).bind (guard? fun n => 1 ≤ n && n ≤ 31)
  return ((year, month, day), cs)

/-- Splits off what follows a date: a letter or a space, a time of day, and an offset. -/
def dayTime? (cs : List Char) : Option (Calendar.Time × List Char) :=
  match cs with
  | c :: rest =>
    if c == 'T' || c == 't' || c == ' ' then do
      let (time, rest) ← clock? rest
      let (offset, rest) := splitOffset rest
      return ({ time with offset }, rest)
    else none
  | [] => none

/-- Reads a date or a moment, if one stands here. -/
def stamp? (cs : List Char) : Option (Except DataError (Split Datum)) := do
  let ((year, month, day), cs) ← date? cs
  match Calendar.Date.make year month day with
  | .error _ => return .error malformed
  | .ok date =>
    match dayTime? cs with
    | some (time, cs) => return .ok (.moment ⟨date, time⟩ none, cs)
    | none => return .ok (.date date none, cs)

/-! ### Words -/

/-- The words that stand for a value. -/
def words : List (String × Datum) :=
  [("true", .bool true), ("false", .bool false), ("inf", .float (.infinite false)),
    ("+inf", .float (.infinite false)), ("-inf", .float (.infinite true)), ("nan", .float .nan),
    ("+nan", .float .nan), ("-nan", .float .nan)]

/-- Reads a word that stands for a value, if one stands here. -/
def word? (cs : List Char) : Option (Except DataError (Split Datum)) :=
  (words.find? fun (w, _) => w.toList.isPrefixOf cs).map fun (w, x) => .ok (x, cs.drop w.length)

/-! ### Values -/

/-- Whether a character may be part of a value that is no text. -/
def isValueChar (c : Char) : Bool := c.isAlphanum || ['+', '-', '.', ':', '_', ' '].contains c

/-- The characters in a row that values other than texts are made of. -/
def valueRun (ps : List Point) : List Char :=
  (ps.takeWhile fun p => p.char?.any isValueChar).filterMap Point.char?

/-- Reads a number, a date, a time or a word, if one stands here. -/
def value? (cs : List Char) : Option (Except DataError (Split Datum)) :=
  let clockValue? := (clock? cs).map fun (time, rest) => .ok (Datum.time time, rest)
  let based? := (basedInteger? cs).map fun (n, rest) => .ok (Datum.int n, rest)
  stamp? cs <|> clockValue? <|> based? <|> decimal? cs <|> word? cs

/-- Reads a value that is neither an array nor a table. -/
def readScalar (ps : List Point) : Except DataError (Parsed Datum) :=
  match readText? ps with
  | some r => r.map fun (text, rest) => (.text text, rest)
  | none =>
    let run := valueRun ps
    match value? run with
    | some r => r.map fun (x, left) => (x, ps.drop (run.length - left.length))
    | none => .error malformed

end JanetEmbedding.Toml
