import JanetEmbedding.Json.Basic
import JanetEmbedding.Number.Reading

/-!
# JSON tokens

A text is cut into tokens by a machine that reads one character after the other: the punctuation,
quoted texts, and **atoms**, the longest runs of letters, digits, signs and points. An atom is a
number, one of the constant words, or nothing.

A character may be escaped by its number in units of 16 bits, so that two escapes in a row can be one
character. One half of a character without the other is a surrogate.

## Main definitions

* `Json.Token`: a token.
* `Json.Token.ofAtom`: the token of an atom.
* `Json.tokens`: the tokens of a text.
-/

namespace JanetEmbedding.Json

/-- A token. -/
inductive Token where
  | beginList
  | endList
  | beginObject
  | endObject
  | comma
  | colon
  | text (s : Text)
  /-- a number or a constant word -/
  | scalar (j : Json)
  /-- an integer with too many digits -/
  | tooLong (digits : Nat)
  /-- what is no token; nothing after it is looked at -/
  | bad

namespace Token

/-! ### Atoms -/

/-- The parts of a number: its sign, its digits before and after the point, its exponent, and what
follows. A part that is not there is empty. -/
structure NumberParts where
  negative : Bool
  whole : List Char
  fraction : List Char
  exponent : List Char
  rest : List Char

/-- Splits off a fraction: a point and at least one digit. -/
def splitFraction : List Char → List Char × List Char
  | '.' :: cs =>
    let digits := cs.takeWhile Text.isAsciiDigit
    if digits.isEmpty then ([], '.' :: cs) else (digits, cs.dropWhile Text.isAsciiDigit)
  | cs => ([], cs)

/-- Splits off an exponent: the letter, a sign or none, and at least one digit. -/
def splitExponent : List Char → List Char × List Char
  | c :: cs =>
    let (sign, tail) := match cs with
      | '-' :: ds => (['-'], ds)
      | '+' :: ds => (['+'], ds)
      | ds => ([], ds)
    let digits := tail.takeWhile Text.isAsciiDigit
    if (c == 'e' || c == 'E') && !digits.isEmpty then
      ('e' :: sign ++ digits, tail.dropWhile Text.isAsciiDigit)
    else ([], c :: cs)
  | [] => ([], [])

/-- Splits a number off the start of a text. The digits before the point are a single zero, or do not
start with one. -/
def splitNumber (cs : List Char) : NumberParts :=
  let (negative, body) := match cs with
    | '-' :: cs => (true, cs)
    | cs => (false, cs)
  let whole := match body with
    | '0' :: _ => ['0']
    | _ => body.takeWhile Text.isAsciiDigit
  let (fraction, tail) := splitFraction (body.drop whole.length)
  let (exponent, rest) := splitExponent tail
  ⟨negative, whole, fraction, exponent, rest⟩

/-- The token of an atom that is no constant word. A number without a fraction and an exponent is an
integer. -/
def ofNumber (cs : List Char) : Token :=
  let p := splitNumber cs
  if p.whole.isEmpty then bad
  else if p.fraction.isEmpty && p.exponent.isEmpty then
    if Double.maxIntegerDigits < p.whole.length then tooLong p.whole.length
    else if !p.rest.isEmpty then bad
    else
      let n := Number.digitsValue p.whole
      scalar (int (if p.negative then -(n : Int) else n))
  else if !p.rest.isEmpty then bad
  else match Number.readExponent? p.exponent with
    | some e =>
      scalar (float (.ofDecimal p.negative (Number.digitsValue (p.whole ++ p.fraction))
        (e - p.fraction.length)))
    | none => bad

/-- The token of an atom. -/
def ofAtom (cs : List Char) : Token :=
  match String.ofList cs with
  | "null" => scalar null
  | "true" => scalar (bool true)
  | "false" => scalar (bool false)
  | "NaN" => scalar (float .nan)
  | "Infinity" => scalar (float (.infinite false))
  | "-Infinity" => scalar (float (.infinite true))
  | _ => ofNumber cs

end Token

/-! ### The machine -/

/-- The character that a letter after a backslash stands for. -/
def unescape? : Char → Option Char
  | '"' => some '"'
  | '\\' => some '\\'
  | '/' => some '/'
  | 'b' => some '\x08'
  | 'f' => some '\x0c'
  | 'n' => some '\n'
  | 'r' => some '\r'
  | 't' => some '\t'
  | _ => none

/-- The points of a text that is being read, in reverse, and whether the last one was written as an
escape by number. -/
structure Points where
  read : List Text.Point := []
  byNumber : Bool := false

namespace Points

/-- Reads one more point. -/
def push (ps : Points) (p : Text.Point) : Points := ⟨p :: ps.read, false⟩

/-- Reads one more point that is written as an escape by number. Behind the escape of a first half of a
character, the escape of a second half completes it. -/
def pushNumber (ps : Points) (n : Nat) : Points :=
  let p := Text.Point.ofCode n
  match ps with
  | ⟨first :: read, true⟩ =>
    match first.joined? p with
    | some c => ⟨.char c :: read, false⟩
    | none => ⟨p :: first :: read, true⟩
  | _ => ⟨p :: ps.read, true⟩

/-- The text that has been read. -/
def text (ps : Points) : Text := ⟨ps.read.reverse⟩

end Points

/-- What the machine is in the middle of. The characters of an atom are in reverse. -/
inductive Scan where
  | between
  | atom (chars : List Char)
  | inText (points : Points)
  | escape (points : Points)
  /-- an escape by number of which `owed + 1` digits are missing -/
  | number (points : Points) (owed value : Nat)
  /-- past what is no token -/
  | stuck

/-- Whether a character is blank in JSON. -/
def isSpace (c : Char) : Bool := c == ' ' || c == '\t' || c == '\n' || c == '\r'

/-- Whether a character can be part of an atom. -/
def isAtomChar (c : Char) : Bool := c.isAlphanum || c == '-' || c == '+' || c == '.'

/-- Reads a character between tokens. -/
def enter (c : Char) : List Token × Scan :=
  if isSpace c then ([], .between)
  else if isAtomChar c then ([], .atom [c])
  else match c with
    | '"' => ([], .inText {})
    | '[' => ([.beginList], .between)
    | ']' => ([.endList], .between)
    | '\x7b' => ([.beginObject], .between)
    | '\x7d' => ([.endObject], .between)
    | ',' => ([.comma], .between)
    | ':' => ([.colon], .between)
    | _ => ([.bad], .stuck)

/-- Reads one character: the tokens it completes, and what the machine is in after it. -/
def stepChar : Scan → Char → List Token × Scan
  | .between, c => enter c
  | .atom cs, c =>
    if isAtomChar c then ([], .atom (c :: cs))
    else
      let (ts, s) := enter c
      (.ofAtom cs.reverse :: ts, s)
  | .inText ps, c =>
    if c == '"' then ([.text ps.text], .between)
    else if c == '\\' then ([], .escape ps)
    else if c.toNat < 0x20 then ([.bad], .stuck)
    else ([], .inText (ps.push (.char c)))
  | .escape ps, c =>
    if c == 'u' then ([], .number ps 3 0)
    else match unescape? c with
      | some d => ([], .inText (ps.push (.char d)))
      | none => ([.bad], .stuck)
  | .number ps owed value, c =>
    match Text.digitValue? 16 c with
    | some d =>
      let value := value * 16 + d
      match owed with
      | 0 => ([], .inText (ps.pushNumber value))
      | owed + 1 => ([], .number ps owed value)
    | none => ([.bad], .stuck)
  | .stuck, _ => ([], .stuck)

/-- Reads one point. A surrogate can stand inside of a text only. -/
def step : Scan → Text.Point → List Token × Scan
  | s, .char c => stepChar s c
  | .inText ps, p => ([], .inText (ps.push p))
  | .atom cs, _ => ([.ofAtom cs.reverse, .bad], .stuck)
  | .stuck, _ => ([], .stuck)
  | _, _ => ([.bad], .stuck)

/-- What the end of the text completes. -/
def ending : Scan → List Token
  | .between => []
  | .atom cs => [.ofAtom cs.reverse]
  | .stuck => []
  | _ => [.bad]

/-- Reads one more point after a state, with the tokens so far in reverse. -/
def feed (m : List Token × Scan) (p : Text.Point) : List Token × Scan :=
  ((step m.2 p).1.reverse ++ m.1, (step m.2 p).2)

/-- The tokens of the points that follow a state. -/
def tokensFrom (s : Scan) (ps : List Text.Point) : List Token :=
  let (read, last) := ps.foldl feed ([], s)
  read.reverse ++ ending last

/-- The tokens of a text. -/
def tokens (t : Text) : List Token := tokensFrom .between t.points

/-! ### Laws -/

/-- The tokens so far only stand before the later ones. -/
theorem foldl_feed (ps : List Text.Point) (read : List Token) (s : Scan) :
    ps.foldl feed (read, s) =
      ((ps.foldl feed ([], s)).1 ++ read, (ps.foldl feed ([], s)).2) := by
  induction ps generalizing read s with
  | nil => rfl
  | cons p ps ih =>
    rw [List.foldl_cons, List.foldl_cons, feed, feed, ih, ih (_ ++ [])]
    simp

@[simp] theorem tokensFrom_nil (s : Scan) : tokensFrom s [] = ending s := rfl

@[simp] theorem tokensFrom_cons (s : Scan) (p : Text.Point) (ps : List Text.Point) :
    tokensFrom s (p :: ps) = (step s p).1 ++ tokensFrom (step s p).2 ps := by
  simp [tokensFrom, feed, foldl_feed ps (step s p).1.reverse]

end JanetEmbedding.Json
