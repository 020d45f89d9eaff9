import JanetEmbedding.Text.Utf8
import JanetEmbedding.Yaml.Scalar

/-!
# Tokens

A document is cut into tokens. Besides what is written, there are tokens for the start and the end of
a block collection, which follow from the indentation alone.

A **simple key** is known as a key only by the colon after it, so the places where one may have begun
are kept as pending, one for each level of flow collections. When the colon comes, the tokens of the
key are inserted in front of it.

## Main definitions

* `Yaml.Token`: a token.
* `Yaml.Lexer`: the tokens so far and all that decides how to go on.
* `Yaml.tokens`: the tokens of a document; what cannot be read is a last token `Token.fault`.
-/

namespace JanetEmbedding.Yaml

/-- A tag as it is written: the handle, if there is one, and what follows it. -/
structure TagMark where
  handle : Option String
  suffix : String
  deriving DecidableEq, Repr

/-- A directive. -/
inductive Directive where
  /-- the version of the format, without its minor number -/
  | version (major : Nat)
  /-- a tag handle and what it stands for -/
  | handle (name meaning : String)
  | other
  deriving DecidableEq, Repr

/-- A token. -/
inductive Token where
  | directive (d : Directive)
  | documentStart
  | documentEnd
  | blockSequenceStart
  | blockMappingStart
  | blockEnd
  | flowSequenceStart
  | flowSequenceEnd
  | flowMappingStart
  | flowMappingEnd
  | flowEntry
  | blockEntry
  | key
  | value
  | alias (name : String)
  | anchor (name : String)
  | tag (t : TagMark)
  | scalar (plain : Bool) (text : Text)
  | fault (e : DataError)
  deriving DecidableEq, Repr

/-! ### Directives, names and tags -/

/-- Reads a word of name characters, which may not be empty. -/
def readName (c : Cursor) : Except DataError (String × Cursor) :=
  match c.take isNameChar with
  | ([], _) => .error malformed
  | (cs, c) => .ok (String.ofList cs, c)

/-- Reads one byte of a tag, written as a percent sign and two hexadecimal digits. -/
def tagByte? (c : Cursor) : Option (UInt8 × Cursor) :=
  match c.rest with
  | '%' :: a :: b :: _ => (hexValue? [a, b]).map fun n => (UInt8.ofNat n, c.skip 3)
  | _ => none

/-- Reads the bytes of a tag that follow in a row; a percent sign without its digits is refused. -/
def tagBytes : Nat → Cursor → Except DataError (List UInt8 × Cursor)
  | 0, c => .ok ([], c)
  | fuel + 1, c =>
    if c.isAt '%' then
      match tagByte? c with
      | some (b, c) => (tagBytes fuel c).map fun (bs, c) => (b :: bs, c)
      | none => .error malformed
    else .ok ([], c)

/-- Reads the text of a tag, with escaped bytes in UTF-8. Text so far is in reverse. -/
def tagText : Nat → Reading → Except DataError Reading
  | 0, r => .ok r
  | fuel + 1, (out, c) =>
    match c.peek with
    | none => .ok (out, c)
    | some ch =>
      if ch == '%' then do
        let (bytes, c) ← tagBytes (c.rest.length + 1) c
        match Utf8.decodeStrict bytes with
        | .ok cs => tagText fuel (cs.reverse ++ out, c)
        | .error _ => .error malformed
      else if isTagChar ch then tagText fuel (ch :: out, c.advance)
      else .ok (out, c)

/-- Reads the text of a tag, which may not be empty. -/
def readTagText (c : Cursor) : Except DataError (String × Cursor) := do
  let (out, next) ← tagText (c.rest.length + 1) ([], c)
  if next.index = c.index then .error malformed
  else return (String.ofList out.reverse, next)

/-- Reads a tag handle: an exclamation mark, or a name between two of them. -/
def readHandle (c : Cursor) : Except DataError (String × Cursor) :=
  if !c.isAt '!' then .error malformed
  else
    let c := c.advance
    if c.isAt ' ' then .ok ("!", c)
    else
      let (name, c) := c.take isNameChar
      if c.isAt '!' then .ok (String.ofList ('!' :: name ++ ['!']), c.advance) else .error malformed

/-- Reads a number of the version directive. -/
def readVersionNumber (c : Cursor) : Except DataError (Nat × Cursor) :=
  match c.take Text.isAsciiDigit with
  | ([], _) => .error malformed
  | (ds, c) =>
    if 4300 < ds.length then .error (.tooManyDigits ds.length)
    else .ok (ds.foldl (fun n d => n * 10 + (d.toNat - '0'.toNat)) 0, c)

/-- Reads a directive from its percent sign on, to the end of its line. -/
def readDirective (c : Cursor) : Except DataError (Directive × Cursor) := do
  let (name, c) ← readName c.advance
  unless endsWord c.peek do throw malformed
  let (d, c) ← match name with
    | "YAML" => do
      let (major, c) ← readVersionNumber c.dropSpaces
      unless c.isAt '.' do throw malformed
      let (_, c) ← readVersionNumber c.advance
      unless endsWord c.peek do throw malformed
      pure (Directive.version major, c)
    | "TAG" => do
      let (handle, c) ← readHandle c.dropSpaces
      unless c.isAt ' ' do throw malformed
      let (meaning, c) ← readTagText c.dropSpaces
      unless endsWord c.peek do throw malformed
      pure (Directive.handle handle meaning, c)
    | _ => pure (Directive.other, c.drop (!isBreak ·))
  let c := c.dropSpaces.dropComment
  unless endsLine c.peek do throw malformed
  return (d, match c.lineBreak? with
    | some (_, c) => c
    | none => c)

/-- Reads the name of an anchor or an alias, which has to end where something else may begin. -/
def readAnchorName (c : Cursor) : Except DataError (String × Cursor) := do
  let (name, c) ← readName c.advance
  if isGap c.peek || c.peek.any "?:,]\x7d%@`".toList.contains then return (name, c)
  else throw malformed

/-- Reads a tag from its exclamation mark on. -/
def readTag (c : Cursor) : Except DataError (TagMark × Cursor) := do
  let (t, c) ←
    if c.peekAt 1 == some '<' then do
      let (text, c) ← readTagText (c.skip 2)
      unless c.isAt '>' do throw malformed
      pure (TagMark.mk none text, c.advance)
    else if isGap (c.peekAt 1) then pure (TagMark.mk none "!", c.advance)
    else do
      let word := c.advance.rest.takeWhile fun ch => !(endsWord (some ch))
      let (handle, c) ← if word.contains '!' then readHandle c else pure ("!", c.advance)
      let (text, c) ← readTagText c
      pure (TagMark.mk (some handle) text, c)
  unless endsWord c.peek do throw malformed
  return (t, c)

/-! ### The state of the lexer -/

/-- A place where a simple key may have begun. -/
structure PendingKey where
  /-- the number of tokens before it -/
  position : Nat
  /-- whether there has to be a key, because a block mapping goes on there -/
  required : Bool
  index : Nat
  line : Nat
  column : Nat

/-- The tokens so far, and all that decides how to go on. -/
structure Lexer where
  cursor : Cursor
  tokens : Array Token := #[]
  /-- the number of flow collections around -/
  flow : Nat := 0
  /-- one more than the column of the innermost block collection, or zero outside of all -/
  level : Nat := 0
  /-- the levels of the block collections around -/
  outer : List Nat := []
  /-- whether a simple key may begin -/
  keyAllowed : Bool := true
  /-- the places where simple keys may have begun, by their number of flow collections -/
  pending : List (Nat × PendingKey) := []

namespace Lexer

/-- Appends a token that has been read up to a cursor. -/
def push (l : Lexer) (t : Token) (c : Cursor) : Lexer :=
  { l with tokens := l.tokens.push t, cursor := c }

/-- Whether a pending key has become impossible: a key has at most 1024 characters on one line. -/
def isStale (c : Cursor) (k : PendingKey) : Bool := k.line != c.line || c.index - k.index > 1024

/-- Forgets the pending keys that have become impossible; it fails if one was required. -/
def dropStale (l : Lexer) : Except DataError Lexer :=
  if l.pending.any fun (_, k) => isStale l.cursor k && k.required then .error malformed
  else .ok { l with pending := l.pending.filter fun (_, k) => !isStale l.cursor k }

/-- Forgets the pending key among the flow collections here; it fails if it was required. -/
def dropPending (l : Lexer) : Except DataError Lexer :=
  if l.pending.any fun (n, k) => n == l.flow && k.required then .error malformed
  else .ok { l with pending := l.pending.filter fun (n, _) => n != l.flow }

/-- Notes that a simple key may begin here. -/
def markPending (l : Lexer) : Except DataError Lexer := do
  if !l.keyAllowed then return l
  let l' ← l.dropPending
  let c := l.cursor
  let required := l.flow == 0 && l.level == c.column + 1
  return { l' with pending := (l.flow, ⟨l.tokens.size, required, c.index, c.line, c.column⟩) :: l'.pending }

/-- Ends the block collections whose level is above a given one. -/
def unwindTo (limit : Nat) : List Nat → Lexer → Lexer
  | [], l => l
  | outer :: rest, l =>
    if limit < l.level then
      unwindTo limit rest { l with level := outer, outer := rest, tokens := l.tokens.push .blockEnd }
    else l

/-- Ends the block collections that do not hold a column; `none` stands for a column before all. -/
def unwind (l : Lexer) (column : Option Nat) : Lexer :=
  if l.flow = 0 then unwindTo ((column.map (· + 1)).getD 0) l.outer l else l

/-- Begins a block collection at a column, unless the one around already stands there. Its token is
inserted at a position. -/
def open? (l : Lexer) (column position : Nat) (t : Token) : Lexer :=
  if l.flow = 0 ∧ l.level ≤ column then
    { l with
      level := column + 1
      outer := l.level :: l.outer
      tokens := l.tokens.insertIdxIfInBounds position t }
  else l

/-- Skips blanks, comments and line ends up to the next token. -/
def skipToToken : Nat → Lexer → Lexer
  | 0, l => l
  | fuel + 1, l =>
    let c := l.cursor.dropSpaces.dropComment
    match c.lineBreak? with
    | some (_, c) =>
      skipToToken fuel { l with cursor := c, keyAllowed := l.keyAllowed || l.flow == 0 }
    | none => { l with cursor := c }

/-! ### Single tokens -/

/-- Reads a token that no simple key can go on over and that takes a number of characters. -/
def mark (l : Lexer) (t : Token) (width : Nat) (keyAllowed : Bool) : Except DataError Lexer := do
  let l ← l.dropPending
  return { l with keyAllowed }.push t (l.cursor.skip width)

/-- Reads the end of a flow collection. -/
def closeFlow (l : Lexer) (t : Token) : Except DataError Lexer := do
  let l ← l.dropPending
  return { l with flow := l.flow - 1, keyAllowed := false }.push t l.cursor.advance

/-- Reads the start of a flow collection. -/
def openFlow (l : Lexer) (t : Token) : Except DataError Lexer := do
  let l ← l.markPending
  return { l with flow := l.flow + 1, keyAllowed := true }.push t l.cursor.advance

/-- Reads the indicator of a sequence item. -/
def blockEntry (l : Lexer) : Except DataError Lexer := do
  if l.flow == 0 && !l.keyAllowed then throw malformed
  (l.open? l.cursor.column l.tokens.size .blockSequenceStart).mark .blockEntry 1 true

/-- Reads the indicator of a key. -/
def keyMark (l : Lexer) : Except DataError Lexer := do
  if l.flow == 0 && !l.keyAllowed then throw malformed
  (l.open? l.cursor.column l.tokens.size .blockMappingStart).mark .key 1 (l.flow == 0)

/-- Reads the indicator of a value. If a simple key is pending, it has now been found. -/
def valueMark (l : Lexer) : Except DataError Lexer :=
  match l.pending.find? fun (n, _) => n == l.flow with
  | some (_, k) =>
    let l := { l with
      pending := l.pending.filter fun (n, _) => n != l.flow
      tokens := l.tokens.insertIdxIfInBounds k.position .key
      keyAllowed := false }
    let l := l.open? k.column k.position .blockMappingStart
    .ok (l.push .value l.cursor.advance)
  | none => do
    if l.flow == 0 && !l.keyAllowed then throw malformed
    (l.open? l.cursor.column l.tokens.size .blockMappingStart).mark .value 1 (l.flow == 0)

/-- Reads a token that may be, or begin, a simple key. -/
def node (l : Lexer) (read : Cursor → Except DataError (Token × Cursor)) :
    Except DataError Lexer := do
  let l ← l.markPending
  let (t, c) ← read l.cursor
  return { l with keyAllowed := false }.push t c

/-- Reads a block scalar. -/
def block (l : Lexer) (folded : Bool) : Except DataError Lexer := do
  let l ← l.dropPending
  let (out, c) ← blockScalar folded l.level l.cursor
  return { l with keyAllowed := true }.push (.scalar false (Text.ofChars out.reverse)) c

/-- Reads a plain scalar. -/
def plain (l : Lexer) : Except DataError Lexer := do
  let l ← l.markPending
  let ((out, c), crossed) := plainScalar (l.flow != 0) l.level l.cursor
  return { l with keyAllowed := crossed }.push (.scalar true (Text.ofChars out.reverse)) c

/-- Whether a plain scalar may begin with a character that is followed by another. -/
def startsPlain (flow : Bool) (c : Char) (next : Option Char) : Bool :=
  !(isGap (some c) || isIndicator c) ||
    (!isGap next && (c == '-' || (!flow && (c == '?' || c == ':'))))

/-- Reads the token that begins with a given character. -/
def dispatch (l : Lexer) (ch : Char) : Except DataError Lexer := do
  let c := l.cursor
  let flow := l.flow != 0
  let gap := isGap (c.peekAt 1)
  if c.column == 0 && ch == '%' then
    let l ← (l.unwind none).dropPending
    let (d, next) ← readDirective c
    return { l with keyAllowed := false }.push (.directive d) next
  if c.column == 0 && c.isAtMarker '-' then return ← (l.unwind none).mark .documentStart 3 false
  if c.column == 0 && c.isAtMarker '.' then return ← (l.unwind none).mark .documentEnd 3 false
  match ch with
  | '[' => l.openFlow .flowSequenceStart
  | '\x7b' => l.openFlow .flowMappingStart
  | ']' => l.closeFlow .flowSequenceEnd
  | '\x7d' => l.closeFlow .flowMappingEnd
  | ',' => l.mark .flowEntry 1 true
  | '*' => l.node fun c => (readAnchorName c).map fun (n, c) => (.alias n, c)
  | '&' => l.node fun c => (readAnchorName c).map fun (n, c) => (.anchor n, c)
  | '!' => l.node fun c => (readTag c).map fun (t, c) => (.tag t, c)
  | '\'' => l.node fun c =>
    (quotedScalar false c).map fun (out, c) => (.scalar false ⟨out.reverse⟩, c)
  | '"' => l.node fun c =>
    (quotedScalar true c).map fun (out, c) => (.scalar false ⟨out.reverse⟩, c)
  | _ =>
    if ch == '-' && gap then l.blockEntry
    else if ch == '?' && (flow || gap) then l.keyMark
    else if ch == ':' && (flow || gap) then l.valueMark
    else if ch == '|' && !flow then l.block false
    else if ch == '>' && !flow then l.block true
    else if startsPlain flow ch (c.peekAt 1) then l.plain
    else throw malformed

/-- Reads one token; `none` at the end of the document. -/
def step (l : Lexer) : Except DataError (Lexer × Bool) := do
  let l ← (skipToToken (l.cursor.rest.length + 1) l).dropStale
  let l := l.unwind (some l.cursor.column)
  match l.cursor.peek with
  | none => return (← (l.unwind none).dropPending, false)
  | some ch => return (← l.dispatch ch, true)

/-- The number of tokens that are settled. A token where a simple key may have begun is settled only
once it is known whether one has. -/
def settled (l : Lexer) : Nat :=
  (l.pending.filter fun (_, k) => !isStale l.cursor k).foldl (fun n (_, k) => min n k.position)
    l.tokens.size

/-- Reads tokens to the end. What cannot be read comes after the tokens that are settled. -/
def run : Nat → Lexer → List Token
  | 0, l => l.tokens.toList
  | fuel + 1, l =>
    match l.step with
    | .error e => l.tokens.toList.take l.settled ++ [.fault e]
    | .ok (l, true) => run fuel l
    | .ok (l, false) => l.tokens.toList

end Lexer

/-- The tokens of a document. -/
def tokens (cs : List Char) : List Token :=
  let c := Cursor.start cs
  let c := if c.isAt '\uFEFF' then c.advance else c
  Lexer.run (cs.length + 2) ⟨c, #[], 0, 0, [], true, []⟩

end JanetEmbedding.Yaml
