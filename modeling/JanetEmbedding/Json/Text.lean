import JanetEmbedding.Json.Basic

/-!
# The text of a JSON value

A value is written either on one line, or with every item and every field on a line of its own,
indented by two spaces for each level. Only the quotation mark, the backslash and the control
characters are escaped.

## Main definitions

* `Json.quote`: a text in quotation marks.
* `Json.write`: the text of a value.
-/

namespace JanetEmbedding.Json

/-- One character of a text between quotation marks. -/
def quoteChar : Char → List Char
  | '"' => ['\\', '"']
  | '\\' => ['\\', '\\']
  | '\n' => ['\\', 'n']
  | '\r' => ['\\', 'r']
  | '\t' => ['\\', 't']
  | '\x0c' => ['\\', 'f']
  | '\x08' => ['\\', 'b']
  | c => if c.toNat < 0x20 then '\\' :: 'u' :: Text.hexDigits 4 c.toNat else [c]

/-- One point of a text between quotation marks. -/
def quotePoint : Text.Point → List Text.Point
  | .char c => (quoteChar c).map .char
  | p => [p]

/-- A text in quotation marks. -/
def quote (t : Text) : List Text.Point := .char '"' :: t.points.flatMap quotePoint ++ [.char '"']

/-- A decimal format whose not-a-number and infinities are spelled as words. -/
def numberLayout : Double.Layout := { Double.layout with nanText := "NaN", infinityText := "Infinity" }

/-- The text of an integer. -/
def integerText (n : Int) : List Char :=
  if n < 0 then '-' :: Double.decimalDigits n.natAbs else Double.decimalDigits n.natAbs

/-- The points of a mark, a word or a number. -/
def plainPoints (cs : List Char) : List Text.Point := cs.map .char

/-- How the parts of a list or an object are set apart at a level of nesting. -/
structure Spacing where
  /-- Whether every part has a line of its own. -/
  pretty : Bool
  depth : Nat

namespace Spacing

/-- The spacing one level further in. -/
def inner (s : Spacing) : Spacing := { s with depth := s.depth + 1 }

/-- What stands before the first part and after the last one. -/
def edge (s : Spacing) : List Text.Point :=
  plainPoints (if s.pretty then '\n' :: List.replicate (2 * s.depth) ' ' else [])

/-- What stands between two parts. -/
def between (s : Spacing) : List Text.Point := .char ',' :: if s.pretty then s.edge else [.char ' ']

end Spacing

/-- What stands between the name of a field and its value. -/
def colonPoints : List Text.Point := plainPoints [':', ' ']

mutual

/-- The points of a value. -/
def points (s : Spacing) : Json → List Text.Point
  | null => plainPoints "null".toList
  | bool true => plainPoints "true".toList
  | bool false => plainPoints "false".toList
  | int n => plainPoints (integerText n)
  | float x => plainPoints (x.textWith numberLayout).toList
  | text t => quote t
  | list [] => plainPoints ['[', ']']
  | list (j :: js) =>
    .char '[' :: s.inner.edge ++ points s.inner j ++ pointsOfItems s.inner js ++ s.edge ++ [.char ']']
  | object [] => plainPoints ['\x7b', '\x7d']
  | object ((k, j) :: fs) =>
    .char '\x7b' :: s.inner.edge ++ quote k ++ colonPoints ++ points s.inner j ++
      pointsOfFields s.inner fs ++ s.edge ++ [.char '\x7d']

/-- The points of the items after the first. -/
def pointsOfItems (s : Spacing) : List Json → List Text.Point
  | [] => []
  | j :: js => s.between ++ points s j ++ pointsOfItems s js

/-- The points of the fields after the first. -/
def pointsOfFields (s : Spacing) : List (Text × Json) → List Text.Point
  | [] => []
  | (k, j) :: fs => s.between ++ quote k ++ colonPoints ++ points s j ++ pointsOfFields s fs

end

/-- The text of a value. -/
def write (pretty : Bool) (j : Json) : Text := ⟨points ⟨pretty, 0⟩ j⟩

end JanetEmbedding.Json
