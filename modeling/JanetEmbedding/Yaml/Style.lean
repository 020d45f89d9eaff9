import JanetEmbedding.Yaml.Character
import JanetEmbedding.Yaml.Tag

/-!
# How a scalar is written

A scalar is written plain if that is read back as the same scalar, between apostrophes if it needs no
escapes, and between quotation marks otherwise. Bytes are written as a block where there can be one.

## Main definitions

* `Yaml.Traits`: what about a text decides its style.
* `Yaml.Style.choose`: the style of a scalar at a place.
-/

namespace JanetEmbedding.Yaml

/-- The styles of a scalar. -/
inductive Style where
  | plain
  | apostrophes
  | quotationMarks
  | block
  deriving DecidableEq, Repr

/-- Whether a character ends a line of a text that is written. -/
def isLineEnd (c : Char) : Bool := c == '\n' || c == '\u0085' || c == '\u2028' || c == '\u2029'

/-- Whether a character can be written without an escape. -/
def isUnescaped (c : Char) : Bool := c == '\n' || (' ' ≤ c && c ≤ '~')

/-- The two readings of an indicator: as one in a block collection, and as one in a flow
collection. -/
structure Indicators where
  block : Bool
  flow : Bool

namespace Indicators

/-- Either of two. -/
def or (a b : Indicators) : Indicators := ⟨a.block || b.block, a.flow || b.flow⟩

/-- What the first character of a text is taken for. -/
def ofFirst (c : Char) (next : Option Char) : Indicators :=
  if "#,[]\x7b\x7d&*!|>'\"%@`".toList.contains c then ⟨true, true⟩
  else if c == '?' || c == ':' then ⟨isGap next, true⟩
  else if c == '-' then ⟨isGap next, isGap next⟩
  else ⟨false, false⟩

/-- What a later character of a text is taken for. -/
def ofLater (before c : Char) (next : Option Char) : Indicators :=
  if c == ':' then ⟨isGap next, true⟩
  else if c == '?' || isFlowIndicator c then ⟨false, true⟩
  else if c == '#' then ⟨isGap (some before), isGap (some before)⟩
  else ⟨false, false⟩

/-- What the characters after a given one are taken for. -/
def ofRest : Char → List Char → Indicators
  | _, [] => ⟨false, false⟩
  | before, c :: cs => (ofLater before c cs.head?).or (ofRest c cs)

/-- What the characters of a text are taken for. A text that starts like the mark of a document is
taken for one. -/
def ofText : List Char → Indicators
  | [] => ⟨false, false⟩
  | c :: cs =>
    if ['-', '-', '-'].isPrefixOf (c :: cs) || ['.', '.', '.'].isPrefixOf (c :: cs) then ⟨true, true⟩
    else (ofFirst c cs.head?).or (ofRest c cs)

end Indicators

/-- Whether two characters that satisfy two tests follow each other in a text. -/
def hasPair (p q : Char → Bool) : List Char → Bool
  | a :: b :: cs => (p a && q b) || hasPair p q (b :: cs)
  | _ => false

/-- What about a text decides its style. -/
structure Traits where
  empty : Bool
  multiline : Bool
  flowPlain : Bool
  blockPlain : Bool
  apostrophes : Bool
  block : Bool

/-- The traits of some characters. -/
def Traits.ofChars (cs : List Char) : Traits :=
  if cs.isEmpty then ⟨true, false, false, true, true, false⟩
  else
    let edge (c : Char) : Bool := c == ' ' || isLineEnd c
    let multiline := cs.any isLineEnd
    let breakSpace := hasPair isLineEnd (· == ' ') cs
    let special := hasPair (· == ' ') isLineEnd cs || cs.any (!isUnescaped ·)
    let indicators := Indicators.ofText cs
    let plain := !(cs.head?.any edge || cs.getLast?.any edge || breakSpace || special || multiline)
    { empty := false
      multiline
      flowPlain := plain && !indicators.flow
      blockPlain := plain && !indicators.block
      apostrophes := !breakSpace && !special
      block := cs.getLast? != some ' ' && !special }

/-- The traits of a text. One with a surrogate needs escapes. -/
def Traits.of (t : Text) : Traits :=
  match t.toChars? with
  | some cs => .ofChars cs
  | none => ⟨false, t.points.any fun p => p.char?.any isLineEnd, false, false, false, false⟩

/-- The style of a scalar, which may be in a flow collection or a simple key. -/
def Style.choose (tag : Tag) (text : Text) (traits : Traits) (flow simpleKey : Bool) : Style :=
  if tag = .binary then
    if !flow && !simpleKey && traits.block then .block else .quotationMarks
  else if tag = .ofPlain text && !(simpleKey && (traits.empty || traits.multiline)) &&
      (if flow then traits.flowPlain else traits.blockPlain) then .plain
  else if traits.apostrophes && !(simpleKey && traits.multiline) then .apostrophes
  else .quotationMarks

end JanetEmbedding.Yaml
