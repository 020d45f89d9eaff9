import JanetEmbedding.Yaml.Character

/-!
# A place in a document

A cursor is what is left of a document, together with its place: the number of characters before it,
its line and its column. A byte-order mark takes no column.

## Main definitions

* `Yaml.Cursor`: the place.
* `Yaml.Cursor.advance`, `Yaml.Cursor.skip`, `Yaml.Cursor.take`: going on.
* `Yaml.Cursor.lineBreak?`: reads the end of a line.
-/

namespace JanetEmbedding.Yaml

/-- A place in a document. -/
structure Cursor where
  rest : List Char
  index : Nat
  line : Nat
  column : Nat

namespace Cursor

/-- The start of a document. -/
def start (cs : List Char) : Cursor := ⟨cs, 0, 0, 0⟩

/-- The character at a cursor. -/
def peek (c : Cursor) : Option Char := c.rest.head?

/-- The character `n` further on. -/
def peekAt (c : Cursor) (n : Nat) : Option Char := c.rest[n]?

/-- Whether a cursor is at a given character. -/
def isAt (c : Cursor) (ch : Char) : Bool := c.peek == some ch

/-- Goes on by one character. A carriage return with a line feed ends one line, not two. -/
def advance (c : Cursor) : Cursor :=
  match c.rest with
  | [] => c
  | ch :: rest =>
    if (isBreak ch && ch != '\r') || (ch == '\r' && rest.head? != some '\n') then
      ⟨rest, c.index + 1, c.line + 1, 0⟩
    else ⟨rest, c.index + 1, c.line, if ch == '\uFEFF' then c.column else c.column + 1⟩

/-- Goes on by a number of characters. -/
def skip : Cursor → Nat → Cursor
  | c, 0 => c
  | c, n + 1 => c.advance.skip n

/-- Reads the longest run of characters of a class. -/
def take (c : Cursor) (p : Char → Bool) : List Char × Cursor :=
  let run := c.rest.takeWhile p
  (run, c.skip run.length)

/-- Skips the longest run of characters of a class. -/
def drop (c : Cursor) (p : Char → Bool) : Cursor := (c.take p).2

/-- Skips spaces. -/
def dropSpaces (c : Cursor) : Cursor := c.drop (· == ' ')

/-- Skips a comment, if there is one. -/
def dropComment (c : Cursor) : Cursor := if c.isAt '#' then c.drop (!isBreak ·) else c

/-- Reads the end of a line. It is a line feed, unless the line was ended by one of the two Unicode
separators. -/
def lineBreak? (c : Cursor) : Option (Char × Cursor) :=
  match c.rest with
  | '\r' :: '\n' :: _ => some ('\n', c.skip 2)
  | ch :: _ =>
    if isBreak ch then
      some (if ch == '\u2028' || ch == '\u2029' then ch else '\n', c.advance)
    else none
  | [] => none

/-- Whether a marker of three characters stands here as a word of its own. -/
def isAtMarker (c : Cursor) (marker : Char) : Bool :=
  match c.rest with
  | a :: b :: d :: rest => a == marker && b == marker && d == marker && isGap rest.head?
  | _ => false

/-- Whether the start or the end of a document is marked here. -/
def isAtSeparator (c : Cursor) : Bool := c.isAtMarker '-' || c.isAtMarker '.'

end Cursor

end JanetEmbedding.Yaml
